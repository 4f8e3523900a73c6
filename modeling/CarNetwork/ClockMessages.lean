import CarNetwork.Delivery

/-!
# The texts and the arithmetic of the clock messages

What `sscanf` reads out of a clock message is what the sender printed into it, and
the master's computation on four clock readings is the one over the integers as long as
the clocks are below `2 ^ 62`.
-/
namespace CarNetwork.Protocol

open CarNetwork.ByteText CarNetwork.DecimalText CarNetwork.Conversions CarNetwork.Ethernet
open CarNetwork.ClockSync

/-! ## Texts -/

/-- Digits, signs and separators: what numbers are printed with. -/
def isNumeric (b : UInt8) : Bool := isDigit b || b = 45 || b = 32

theorem isNumeric_of_mem_decimal {n : ℕ} {b : UInt8} (hb : b ∈ decimal n) : isNumeric b = true := by
  simp [isNumeric, isDigit_of_mem_decimal n b hb]

theorem isNumeric_of_mem_intText {z : ℤ} {b : UInt8} (hb : b ∈ intText z) : isNumeric b = true := by
  unfold intText at hb
  split at hb
  · rcases List.mem_cons.mp hb with rfl | hb
    · rfl
    · exact isNumeric_of_mem_decimal hb
  · exact isNumeric_of_mem_decimal hb

theorem getLast?_decimal (n : ℕ) : ∃ b, (decimal n).getLast? = some b ∧ isDigit b = true := by
  have h := List.getLast?_eq_getLast_of_ne_nil (decimal_ne_nil n)
  exact ⟨_, h, isDigit_of_mem_decimal n _ (List.getLast_mem _)⟩

theorem getLast?_append_decimal (s : Bytes) (n : ℕ) :
    ∃ b, (s ++ decimal n).getLast? = some b ∧ isDigit b = true := by
  obtain ⟨b, hb, hd⟩ := getLast?_decimal n
  exact ⟨b, by simp [List.getLast?_append, hb], hd⟩

theorem intText_eq (z : ℤ) :
    ∃ sign, intText z = sign ++ decimal z.natAbs ∧ (sign = [] ∨ sign = [45]) := by
  unfold intText
  split
  · exact ⟨[45], rfl, Or.inr rfl⟩
  · exact ⟨[], rfl, Or.inl rfl⟩

/-- A printed list of numbers passes through the receiver's clean-up unchanged. -/
theorem cleanBody_eq_self {s : Bytes} (hnum : ∀ b ∈ s, isNumeric b = true)
    (hhead : ∀ b, s.head? = some b → isSpace b = false)
    (hlast : ∃ b, s.getLast? = some b ∧ isDigit b = true) : cleanBody s = s := by
  rw [cleanBody, cString_of_no_nul s fun h => by simpa [isNumeric, isDigit] using hnum 0 h]
  refine trim_eq_self s hhead fun b hb => ?_
  obtain ⟨b', hb', hd⟩ := hlast
  cases hb.symm.trans hb'
  exact isSpace_of_isDigit b hd

theorem head_decimal_append (n : ℕ) (s : Bytes) :
    ∀ b, (decimal n ++ s).head? = some b → isSpace b = false := by
  obtain ⟨b, t, hd, hb⟩ := decimal_cons n
  intro b' h
  rw [hd] at h
  cases h
  exact isSpace_of_isDigit b hb

theorem head_intText_append (z : ℤ) (s : Bytes) :
    ∀ b, (intText z ++ s).head? = some b → isSpace b = false := by
  obtain ⟨sign, hz, hsign⟩ := intText_eq z
  rw [hz]
  rcases hsign with rfl | rfl
  · exact head_decimal_append _ s
  · intro b h
    cases h
    rfl

theorem snprintf_eq_self {size : ℕ} {s : Bytes} (h : s.length < size) : snprintf size s = s :=
  List.take_of_length_le (by omega)

theorem length_decimal_uint64 (t : UInt64) : (decimal t.toNat).length ≤ 20 :=
  length_decimal_le (by norm_num) (lt_trans (UInt64.toNat_lt t) (by norm_num))

theorem length_intText_longLong {z : ℤ} (h : InLongLong z) : (intText z).length ≤ 20 := by
  obtain ⟨hlo, hhi⟩ := h
  exact length_intText_le (k := 19) (by norm_num) (by omega)

theorem body_syncResp (t1 : UInt64) : (Emission.syncResp t1).body = decimal t1.toNat := by
  have hlen := length_decimal_uint64 t1
  rw [Emission.body, snprintf_eq_self (by omega)]

theorem body_delayReq (t1 t2 t3 : UInt64) :
    (Emission.delayReq t1 t2 t3).body = delayReqText t1 t2 t3 := by
  have h1 := length_decimal_uint64 t1
  have h2 := length_decimal_uint64 t2
  have h3 := length_decimal_uint64 t3
  rw [Emission.body, snprintf_eq_self (by simp [delayReqText]; omega)]

theorem body_delayResp {offset rtt : ℤ} (ho : InLongLong offset) (hr : InLongLong rtt) :
    (Emission.delayResp offset rtt).body = delayRespText offset rtt := by
  have h1 := length_intText_longLong ho
  have h2 := length_intText_longLong hr
  rw [Emission.body, snprintf_eq_self (by simp [delayRespText]; omega)]

theorem cleanBody_decimal (n : ℕ) : cleanBody (decimal n) = decimal n :=
  cleanBody_eq_self (fun _ => isNumeric_of_mem_decimal) (by simpa using head_decimal_append n [])
    (getLast?_decimal n)

theorem cleanBody_delayReqText (t1 t2 t3 : UInt64) :
    cleanBody (delayReqText t1 t2 t3) = delayReqText t1 t2 t3 := by
  refine cleanBody_eq_self (fun b hb => ?_) ?_ (getLast?_append_decimal _ _)
  · simp only [delayReqText, List.mem_append, List.mem_singleton] at hb
    rcases hb with (((hb | rfl) | hb) | rfl) | hb
    exacts [isNumeric_of_mem_decimal hb, rfl, isNumeric_of_mem_decimal hb, rfl,
      isNumeric_of_mem_decimal hb]
  · simp only [delayReqText, List.append_assoc]
    exact head_decimal_append _ _

theorem cleanBody_delayRespText (offset rtt : ℤ) :
    cleanBody (delayRespText offset rtt) = delayRespText offset rtt := by
  refine cleanBody_eq_self (fun b hb => ?_) ?_ ?_
  · simp only [delayRespText, List.mem_append, List.mem_singleton] at hb
    rcases hb with (hb | rfl) | hb
    exacts [isNumeric_of_mem_intText hb, rfl, isNumeric_of_mem_intText hb]
  · simp only [delayRespText, List.append_assoc]
    exact head_intText_append _ _
  · obtain ⟨sign, hz, -⟩ := intText_eq rtt
    rw [delayRespText, hz, ← List.append_assoc]
    exact getLast?_append_decimal _ _

theorem scanUnsignedLong_text (t1 : UInt64) :
    scanUnsignedLong (decimal t1.toNat) = some (t1, []) := by
  simpa using scanUnsignedLong_decimal t1 [] noDigit_nil

theorem scanDelayReq_text (t1 t2 t3 : UInt64) :
    scanDelayReq (delayReqText t1 t2 t3) = some (t1, t2, t3) := by
  simp [delayReqText, scanDelayReq, space, scanUnsignedLong_decimal, scanUnsignedLong_space,
    noDigit_space, scanUnsignedLong_text]

theorem scanDelayResp_text {offset rtt : ℤ} (ho : InLongLong offset) (hr : InLongLong rtt) :
    scanDelayResp (delayRespText offset rtt) = (offset, rtt) := by
  have hscan := scanLongLong_intText rtt hr [] noDigit_nil
  rw [List.append_nil] at hscan
  simp [delayRespText, scanDelayResp, space, scanLongLong_intText, scanLongLong_space,
    noDigit_space, ho, hscan]

theorem scan_syncResp (t1 : UInt64) :
    scanUnsignedLong (cleanBody (Emission.syncResp t1).body) = some (t1, []) := by
  rw [body_syncResp, cleanBody_decimal, scanUnsignedLong_text]

theorem scan_delayReq (t1 t2 t3 : UInt64) :
    scanDelayReq (cleanBody (Emission.delayReq t1 t2 t3).body) = some (t1, t2, t3) := by
  rw [body_delayReq, cleanBody_delayReqText, scanDelayReq_text]

theorem scan_delayResp {offset rtt : ℤ} (ho : InLongLong offset) (hr : InLongLong rtt) :
    scanDelayResp (cleanBody (Emission.delayResp offset rtt).body) = (offset, rtt) := by
  rw [body_delayResp ho hr, cleanBody_delayRespText, scanDelayResp_text ho hr]

/-- The wire determines the sort of an emission and its body. -/
theorem Emission.of_wire_eq {k : Key} {e e' : Emission} {q q' : Instance} {src src' : Endpoint}
    {time time' : UInt64} (h : e.wire k q src time = e'.wire k q' src' time') :
    e.type = e'.type ∧ e.body = e'.body := by
  have hm := buildMessage_injective h
  exact ⟨congrArg Message.control hm, congrArg Message.body hm⟩

theorem internal_of_group {p q : Instance} {src : Endpoint} {t : UInt64} {e : Emission} {b : UInt8}
    (hp : p.currentGroupId = b.toNat) (hq : q.currentGroupId = b.toNat) :
    isMessageInternal p (received e q src t) = true := by
  simp [isMessageInternal, received, controlMessage, hp, hq, uint8_ofInt_toNat]

theorem length_clockBody_le (e : Emission)
    (he : (∃ t1, e = .syncResp t1) ∨ (∃ t1 t2 t3, e = .delayReq t1 t2 t3) ∨ ∃ o r,
      e = .delayResp o r) :
    e.body.length ≤ 1000 := by
  rcases he with ⟨t1, rfl⟩ | ⟨t1, t2, t3, rfl⟩ | ⟨o, r, rfl⟩ <;>
    simp only [Emission.body, snprintf, List.length_take] <;> omega

/-- A clock message reaches the handlers of a receiver as the text that was printed: the
buffer cuts nothing off, the message fits a frame, and the receiver finds the tag right and
the group its own. -/
structure Carries (key : Key) (p q : Instance) (src : Endpoint) (time : UInt64) (e : Emission)
    (text : Bytes) :
    Prop where
  whole : e.body = text
  fits : (e.wire key q src time).length ≤ MTU
  read : ∃ msg, parseMessage (e.wire key q src time) = .ok msg ∧ msg.control = e.type ∧
    isMessageInternal p msg = true ∧ verifyMsgac key msg.msgac msg.body = true ∧
      cleanBody msg.body = text

theorem carries_of_body {key : Key} {p q : Instance} {src : Endpoint} {time : UInt64}
    {b : UInt8} {e : Emission} {text : Bytes} (hp : p.currentGroupId = b.toNat)
    (hq : q.currentGroupId = b.toNat)
    (htag : e.tag key = generateMac key e.body) (hlen : e.body.length ≤ 1000)
    (hbody : e.body = text) (hclean : cleanBody text = text) : Carries key p q src time e text := by
  have hinternal : isMessageInternal p (received e q src time) = true := internal_of_group hp hq
  refine ⟨hbody, ?_, _, parse_build _, rfl, hinternal, ?_, ?_⟩
  · have hwire := length_buildMessage_le (controlMessage q src e.type (e.tag key) e.body time)
    have hsame : (controlMessage q src e.type (e.tag key) e.body time).body = e.body := rfl
    rw [hsame] at hwire
    rw [Emission.wire, MTU]
    omega
  · exact beq_iff_eq.mpr htag.symm
  · exact (congrArg cleanBody hbody).trans hclean

/-- The codec of the clock messages is exact: whatever numbers a node prints, a node of
its group takes the message for its own, finds its tag right, and scans the same numbers
out of it. -/
theorem sync_codec (key : Key) (p q : Instance) (src : Endpoint) (time : UInt64) (b : UInt8)
    (hp : p.currentGroupId = b.toNat) (hq : q.currentGroupId = b.toNat) :
    (∀ t1 : UInt64, Carries key p q src time (.syncResp t1) (decimal t1.toNat) ∧
      scanUnsignedLong (decimal t1.toNat) = some (t1, [])) ∧
    (∀ t1 t2 t3 : UInt64, Carries key p q src time (.delayReq t1 t2 t3) (delayReqText t1 t2 t3) ∧
      scanDelayReq (delayReqText t1 t2 t3) = some (t1, t2, t3)) ∧
    ∀ offset rtt : ℤ, InLongLong offset → InLongLong rtt →
      Carries key p q src time (.delayResp offset rtt) (delayRespText offset rtt) ∧
      scanDelayResp (delayRespText offset rtt) = (offset, rtt) := by
  refine ⟨fun t1 => ?_, fun t1 t2 t3 => ?_, fun offset rtt ho hr => ?_⟩
  · have hlen := length_clockBody_le (.syncResp t1) (Or.inl ⟨_, rfl⟩)
    exact ⟨carries_of_body hp hq rfl hlen (body_syncResp t1) (cleanBody_decimal _),
      scanUnsignedLong_text t1⟩
  · have hlen := length_clockBody_le (.delayReq t1 t2 t3) (Or.inr (Or.inl ⟨_, _, _, rfl⟩))
    exact ⟨carries_of_body hp hq rfl hlen (body_delayReq t1 t2 t3)
      (cleanBody_delayReqText t1 t2 t3), scanDelayReq_text t1 t2 t3⟩
  · have hlen := length_clockBody_le (.delayResp offset rtt) (Or.inr (Or.inr ⟨_, _, rfl⟩))
    exact ⟨carries_of_body hp hq rfl hlen (body_delayResp ho hr)
      (cleanBody_delayRespText offset rtt), scanDelayResp_text ho hr⟩

/-- The smallest offset and the largest round trip between two nodes of group 0. -/
theorem extreme_sample_carried :
    Carries SECRET_KEY { address := default } { address := default } {} 0
      (.delayResp (-9223372036854775808) 9223372036854775807)
      (delayRespText (-9223372036854775808) 9223372036854775807) ∧
    scanDelayResp (delayRespText (-9223372036854775808) 9223372036854775807) =
      (-9223372036854775808, 9223372036854775807) := by
  obtain ⟨-, -, hresp⟩ := sync_codec SECRET_KEY { address := default }
      { address := default } {} 0 0 rfl rfl
  exact hresp _ _ (by decide) (by decide)

/-! ## Arithmetic -/

theorem asInt64_eq_bmod_sub (a b : UInt64) :
    asInt64 (a - b) = ((a.toNat : ℤ) - b.toNat).bmod (2 ^ 64) := by
  have hb := UInt64.toNat_lt b
  have hword : ((a - b).toNat : ℤ) = ((a.toNat : ℤ) - b.toNat) % (2 ^ 64 : ℕ) := by
    rw [UInt64.toNat_sub]
    omega
  have hmod := Int.emod_bmod ((a.toNat : ℤ) - b.toNat) (2 ^ 64)
  calc asInt64 (a - b) = ((a - b).toNat : ℤ).bmod (2 ^ 64) := rfl
    _ = ((a.toNat : ℤ) - b.toNat).bmod (2 ^ 64) := by rw [hword, hmod]

theorem asInt64_sub {a b : UInt64} (ha : a.toNat < 2 ^ 62) (hb : b.toNat < 2 ^ 62) :
    asInt64 (a - b) = (a.toNat : ℤ) - b.toNat := by
  rw [asInt64_eq_bmod_sub]
  exact Int.bmod_eq_of_le (by omega) (by omega)

/-- The master's rounding, over the integers. -/
theorem ptpOffset_eq {t1 t2 t3 t4 : UInt64} (h1 : t1.toNat < 2 ^ 62) (h2 : t2.toNat < 2 ^ 62)
    (h3 : t3.toNat < 2 ^ 62) (h4 : t4.toNat < 2 ^ 62) :
    ptpOffset t1 t2 t3 t4 =
      (((t2.toNat : ℤ) - t1.toNat) + ((t3.toNat : ℤ) - t4.toNat)).tdiv 2 := by
  rw [ptpOffset, asInt64_sub h2 h1, asInt64_sub h3 h4, toLongLong, Int.bmod_eq_of_le] <;> omega

theorem ptpRtt_eq {t1 t2 t4 : UInt64} (h1 : t1.toNat < 2 ^ 62) (h4 : t4.toNat < 2 ^ 62) :
    ptpRtt t1 t2 t2 t4 = (t4.toNat : ℤ) - t1.toNat := by
  rw [ptpRtt, UInt64.sub_self, UInt64.sub_zero, asInt64_sub h4 h1]

theorem two_mul_tdiv_two (z : ℤ) : z - 1 ≤ 2 * z.tdiv 2 ∧ 2 * z.tdiv 2 ≤ z + 1 := by
  have hz := Int.mul_tdiv_add_tmod z 2
  have hlt := Int.tmod_lt_of_pos z (show (0 : ℤ) < 2 by norm_num)
  have hgt := Int.lt_tmod_of_pos z (show (0 : ℤ) < 2 by norm_num)
  omega

/-- A sample is sound for a clock difference when it is off by half the round trip at
most, up to the rounding. -/
def SoundSample (theta offset rtt : ℤ) : Prop := 0 ≤ rtt ∧ |2 * offset - 2 * theta| ≤ rtt + 1

/-- Readings in causal order, the middle one on a clock that is `theta` ahead, give a
sound sample. -/
theorem soundSample_of_causal {t1 t2 t4 : UInt64} {theta : ℤ} (h1 : t1.toNat < 2 ^ 62)
    (h2 : t2.toNat < 2 ^ 62) (h4 : t4.toNat < 2 ^ 62) (h12 : (t1.toNat : ℤ) ≤ t2.toNat - theta)
    (h24 : (t2.toNat : ℤ) - theta ≤ t4.toNat) :
    SoundSample theta (ptpOffset t1 t2 t2 t4) (ptpRtt t1 t2 t2 t4) := by
  rw [ptpOffset_eq h1 h2 h2 h4, ptpRtt_eq h1 h4]
  have hround := two_mul_tdiv_two (((t2.toNat : ℤ) - t1.toNat) + ((t2.toNat : ℤ) - t4.toNat))
  refine ⟨by omega, ?_⟩
  rw [abs_le]
  constructor <;> omega

theorem inLongLong_ptp {t1 t2 t4 : UInt64} (h1 : t1.toNat < 2 ^ 62) (h2 : t2.toNat < 2 ^ 62)
    (h4 : t4.toNat < 2 ^ 62) :
    InLongLong (ptpOffset t1 t2 t2 t4) ∧ InLongLong (ptpRtt t1 t2 t2 t4) := by
  rw [ptpOffset_eq h1 h2 h2 h4, ptpRtt_eq h1 h4]
  have hround := two_mul_tdiv_two (((t2.toNat : ℤ) - t1.toNat) + ((t2.toNat : ℤ) - t4.toNat))
  constructor <;> constructor <;> omega

/-! ## Handlers -/

section Handlers

variable {env : Env} {p : Instance} {msg : Message} {c : AsyncCapsule} {x : Effect}

theorem mem_onSyncReq (hx : x ∈ (handleSync env p msg c .syncReq).effects) :
    isMessageInternal p msg = true ∧ p.isMaster = true ∧
      x = .transmit (.control .SYNC_RESP) ⟨p.address, p.controlLocal.port⟩ c.src
        ((Emission.syncResp (env.now 0)).wire env.key p p.controlLocal (env.now 1)) := by
  simp only [handleSync] at hx
  split at hx
  · rename_i hint
    unfold onSyncReq at hx
    split at hx
    · rename_i hm
      exact ⟨hint, hm, mem_send hx⟩
    · cases hx
  · cases hx

theorem mem_onSyncResp {t1 t : UInt64} {rest : Bytes}
    (hbody : scanUnsignedLong msg.body = some (t1, rest))
    (hx : x ∈ (handleSync env p msg c (.syncResp t)).effects) :
    x = .transmit (.control .DELAY_REQ) ⟨p.address, p.controlLocal.port⟩ c.src
      ((Emission.delayReq t1 (env.now 0) (env.now 0)).wire env.key p p.controlLocal
        (env.now 1)) := by
  simp only [handleSync] at hx
  split at hx
  · simp only [onSyncResp, hbody, Option.map_some, Option.getD_some] at hx
    exact mem_send hx
  · cases hx

theorem mem_onDelayReq {t1 t2 t3 s1 s2 s3 : UInt64}
    (hbody : scanDelayReq msg.body = some (t1, t2, t3))
    (hx : x ∈ (handleSync env p msg c (.delayReq s1 s2 s3)).effects) :
    x = .transmit (.control .DELAY_RESP) ⟨p.address, p.controlLocal.port⟩ c.src
      ((Emission.delayResp (ptpOffset t1 t2 t3 (env.now 0)) (ptpRtt t1 t2 t3 (env.now 0))).wire
        env.key p p.controlLocal (env.now 1)) := by
  simp only [handleSync] at hx
  split at hx
  · simp only [onDelayReq, hbody] at hx
    exact mem_send hx
  · cases hx

theorem mem_onDelayResp {o r : ℤ} (hx : x ∈ (handleSync env p msg c (.delayResp o r)).effects) :
    x = .ptpSample (scanDelayResp msg.body).1 (scanDelayResp msg.body).2 ∨
      ∃ us, x = .adjustTime us := by
  simp only [handleSync] at hx
  split at hx
  · simp only [onDelayResp, List.mem_cons, List.not_mem_nil, or_false] at hx
    exact hx.imp id fun h => ⟨_, h⟩
  · cases hx

theorem mem_onReady (hx : x ∈ (handleSync env p msg c .ready).effects) :
    ∃ src dst payload, x = .transmit (.control .GO) src dst payload := by
  simp only [handleSync, onReady] at hx
  split at hx
  · split at hx
    · exact ⟨_, _, _, mem_send hx⟩
    · cases hx
  · cases hx

theorem mem_onGo (hx : x ∈ (handleSync env p msg c .go).effects) : x = .syncDoneCallback := by
  simp only [handleSync, onGo] at hx
  split at hx
  · split at hx
    · cases hx
    · dsimp only at hx
      split at hx
      · exact List.mem_singleton.mp hx
      · cases hx
  · cases hx

end Handlers

end CarNetwork.Protocol
