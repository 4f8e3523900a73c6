import CarNetwork.GroupMessages

/-!
# Malformed clock messages

The three handlers of the clock exchange read their numbers with `sscanf`. Only the one of
DELAY_REQ looks at how many were read; the other two go on with zero for what is missing,
and a zero is a time or an offset like any other.
-/
namespace CarNetwork.Protocol

open CarNetwork.ByteText CarNetwork.DecimalText CarNetwork.Conversions CarNetwork.Ethernet

/-! ## Sequences of integers -/

/-- The pieces of a text between white space. -/
def words (s : Bytes) : List Bytes := (s.splitOnP isSpace).filter fun w => !w.isEmpty

/-- Decimal digits, with or without a sign. -/
def isInteger (w : Bytes) : Bool :=
  let digits := if w.head? = some 45 ∨ w.head? = some 43 then w.tail else w
  !digits.isEmpty && digits.all isDigit

/-- The text is a sequence of at least `n` decimal integers. -/
def IntegerSequence (n : ℕ) (s : Bytes) : Prop :=
  n ≤ (words s).length ∧ ∀ w ∈ words s, isInteger w = true

instance (n : ℕ) (s : Bytes) : Decidable (IntegerSequence n s) :=
  inferInstanceAs (Decidable (_ ∧ _))

@[simp] theorem words_nil : words [] = [] := rfl

theorem words_space {b : UInt8} (hb : isSpace b = true) (s : Bytes) : words (b :: s) = words s := by
  simp [words, List.splitOnP_cons_eq_if_modifyHead, hb]

theorem words_dropWhile (s : Bytes) : words (s.dropWhile isSpace) = words s := by
  induction s with
  | nil => rfl
  | cons b s ih =>
    by_cases hb : isSpace b = true
    · rw [List.dropWhile_cons_of_pos hb, ih, words_space hb]
    · rw [List.dropWhile_cons_of_neg hb]

/-- A text that ends or goes on with white space. -/
def Separated (s : Bytes) : Prop := ∀ b, s.head? = some b → isSpace b = true

theorem words_word {w rest : Bytes} (hne : w ≠ []) (hw : ∀ b ∈ w, isSpace b = false)
    (hrest : Separated rest) :
    words (w ++ rest) = w :: words rest := by
  cases rest with
  | nil => simp [words, List.splitOnP_eq_singleton hw, hne]
  | cons b rest =>
    have hb := hrest b rfl
    rw [words_space hb, words, List.splitOnP_append_cons_of_forall_mem hw b hb]
    simp [words, hne]

theorem noDigit_of_separated {s : Bytes} (h : Separated s) : NoDigit s := by
  intro b hb
  by_contra hd
  have := isSpace_of_isDigit b (by simpa using hd)
  simp [h b hb] at this

theorem exists_word_append {s w : Bytes} {ws : List Bytes} (h : words s = w :: ws) :
    ∃ rest, s.dropWhile isSpace = w ++ rest ∧ w ≠ [] ∧ Separated rest ∧ words rest = ws := by
  set u := s.dropWhile isSpace with hu
  have hwords : words u = w :: ws := by rw [hu, words_dropWhile, h]
  have hsplit : u.takeWhile (fun b => !isSpace b) ++ u.dropWhile (fun b => !isSpace b) = u :=
    List.takeWhile_append_dropWhile
  have hne : u.takeWhile (fun b => !isSpace b) ≠ [] := by
    cases hcons : u with
    | nil => simp [hcons] at hwords
    | cons b t =>
      have hhead := List.head?_dropWhile_not isSpace s
      rw [← hu, hcons] at hhead
      have hb : isSpace b = false := hhead
      simp [hb]
  have hword : ∀ b ∈ u.takeWhile (fun b => !isSpace b), isSpace b = false := fun b hb => by
    simpa using List.mem_takeWhile_imp hb
  have hrest : Separated (u.dropWhile fun b => !isSpace b) := by
    intro b hb
    have hhead := List.head?_dropWhile_not (fun b => !isSpace b) u
    rw [hb] at hhead
    simpa using hhead
  rw [← hsplit, words_word hne hword hrest] at hwords
  obtain ⟨rfl, hws⟩ := List.cons.inj hwords
  exact ⟨_, hsplit.symm, hne, hrest, hws⟩

/-- Where the first word is an integer it is scanned, and the other words are left. -/
theorem scanInteger_word {s w : Bytes} {ws : List Bytes} (h : words s = w :: ws)
    (hw : isInteger w = true) :
    ∃ r, scanInteger s = some r ∧ words r.rest = ws := by
  obtain ⟨rest, hs, hne, hrest, hws⟩ := exists_word_append h
  have hno := noDigit_of_separated hrest
  obtain ⟨b, t, rfl⟩ := List.exists_cons_of_ne_nil hne
  have hdigits (negative : Bool) {digits : Bytes}
      (hd : (!digits.isEmpty && digits.all isDigit) = true) :
      ∃ r, scanDigits negative (digits ++ rest) = some r ∧ words r.rest = ws := by
    simp only [Bool.and_eq_true, Bool.not_eq_true', List.isEmpty_eq_false_iff,
      List.all_eq_true] at hd
    exact ⟨_, scanDigits_append negative hd.1 hd.2 hno, hws⟩
  simp only [scanInteger, hs, List.cons_append]
  simp only [isInteger, List.head?_cons, Option.some.injEq, List.tail_cons] at hw
  by_cases hminus : b = 45
  · simp only [hminus, true_or, if_true] at hw ⊢
    exact hdigits true hw
  · by_cases hplus : b = 43
    · simp only [hplus, or_true, if_true] at hw
      rw [if_neg hminus, if_pos hplus]
      exact hdigits false hw
    · simp only [hminus, hplus, or_self, if_false] at hw
      rw [if_neg hminus, if_neg hplus]
      exact hdigits false hw

/-- A sequence of three integers is never refused. -/
theorem scanDelayReq_of_integers {s : Bytes} (h : IntegerSequence 3 s) :
    ∃ ts, scanDelayReq s = some ts := by
  obtain ⟨hlen, hint⟩ := h
  obtain ⟨w1, w2, w3, ws, hwords⟩ : ∃ w1 w2 w3 ws, words s = w1 :: w2 :: w3 :: ws := by
    match words s, hlen with
    | w1 :: w2 :: w3 :: ws, _ => exact ⟨w1, w2, w3, ws, rfl⟩
  rw [hwords] at hint
  obtain ⟨r1, h1, hr1⟩ := scanInteger_word hwords (hint w1 (by simp))
  obtain ⟨r2, h2, hr2⟩ := scanInteger_word hr1 (hint w2 (by simp))
  obtain ⟨r3, h3, -⟩ := scanInteger_word hr2 (hint w3 (by simp))
  simp [scanDelayReq, scanUnsignedLong, h1, h2, h3]

/-! ## What the handlers do about other texts -/

/-- The number of integers that the body of a clock message has. -/
def expectedNumbers : ControlType → ℕ
  | .SYNC_RESP => 1
  | .DELAY_REQ => 3
  | .DELAY_RESP => 2
  | _ => 0

/-- A frame sent, a sample recorded or a clock correction requested. -/
def Effect.isAction : Effect → Bool
  | .transmit _ _ _ _ => true
  | .ptpSample _ _ => true
  | .adjustTime _ => true
  | _ => false

/-- The effects are calls of observers at most. -/
def Idle (effects : List Effect) : Prop := ∀ e ∈ effects, e.isAction = false

instance (effects : List Effect) : Decidable (Idle effects) :=
  inferInstanceAs (Decidable (∀ e ∈ effects, e.isAction = false))

/-- A clock message from the own group, received by a node in the role it is for. -/
def handlesClockMessage (p : Instance) (msg : Message) : Bool :=
  isMessageInternal p msg && (if msg.control = .DELAY_REQ then p.isMaster else !p.isMaster)

theorem idle_forwardToObservers (p : Instance) (msg : Message) (c : AsyncCapsule) :
    Idle (forwardToObservers p msg c) := by
  intro x hx
  obtain ⟨po, rfl | rfl⟩ := mem_forward hx
  · rfl
  · rfl

theorem not_idle_sendControl {p : Instance} {src dst : Endpoint} {t : ControlType}
    {tag : UInt8} {body : Bytes} {time : UInt64} (h : body.length ≤ 1000) :
    ¬ Idle (sendControl p src dst t tag body time) := by
  rw [sendControl_eq h]
  exact fun hidle => absurd (hidle _ (List.mem_singleton_self _)) (by simp [Effect.isAction])

theorem length_snprintf_le {size : ℕ} (h : size ≤ 1001) (s : Bytes) :
    (snprintf size s).length ≤ 1000 := by
  rw [snprintf, List.length_take]
  omega

theorem idle_append {as bs : List Effect} (h : Idle bs) : Idle (as ++ bs) ↔ Idle as := by
  simp only [Idle, List.forall_mem_append, and_iff_left_iff_imp] at h ⊢
  exact fun _ => h

theorem not_idle_onSyncResp (env : Env) (p : Instance) (msg : Message) (c : AsyncCapsule) :
    ¬ Idle (onSyncResp env p msg c).effects :=
  not_idle_sendControl (length_snprintf_le (by norm_num) _)

theorem not_idle_onDelayResp (p : Instance) (msg : Message) :
    ¬ Idle (onDelayResp p msg).effects := by
  intro h
  exact absurd (h _ List.mem_cons_self) (by simp [Effect.isAction])

/-- The one handler that looks at what `sscanf` returns. -/
theorem idle_onDelayReq_iff (env : Env) (p : Instance) (msg : Message) (c : AsyncCapsule) :
    Idle (onDelayReq env p msg c).effects ↔ scanDelayReq msg.body = none := by
  unfold onDelayReq
  split
  · rename_i hscan
    simp [hscan, Idle]
  · rename_i t1 t2 t3 hscan
    simp only [hscan, reduceCtorEq, iff_false]
    exact not_idle_sendControl (length_snprintf_le (by norm_num) _)

theorem inst_of_idle_onDelayReq {env : Env} {p : Instance} {msg : Message} {c : AsyncCapsule}
    (h : scanDelayReq msg.body = none) : (onDelayReq env p msg c).inst = p := by
  simp [onDelayReq, h]

/-- A message that a handler leaves alone. -/
def Ignored (p : Instance) (msg : Message) : Prop :=
  handlesClockMessage p msg = false ∨ (msg.control = .DELAY_REQ ∧ scanDelayReq msg.body = none)

instance (p : Instance) (msg : Message) : Decidable (Ignored p msg) :=
  inferInstanceAs (Decidable (_ ∨ _))

theorem idle_handle_iff (env : Env) (p : Instance) {msg : Message} (c : AsyncCapsule)
    (hkind : msg.control = .SYNC_RESP ∨ msg.control = .DELAY_REQ ∨ msg.control = .DELAY_RESP) :
    ∃ h, handle env p msg c = .ok h ∧ (Idle h.effects ↔ Ignored p msg) ∧
      (Ignored p msg → h.inst = p) := by
  have hquiet : Idle ([] : List Effect) := by simp [Idle]
  rcases hkind with hkind | hkind | hkind
  · simp only [handle, hkind, Ignored, handlesClockMessage]
    refine ⟨_, rfl, ?_⟩
    split
    · rename_i hguard
      simp [hguard.1, hguard.2, not_idle_onSyncResp]
    · simp_all
  · simp only [handle, hkind, Ignored, handlesClockMessage]
    refine ⟨_, rfl, ?_⟩
    split
    · rename_i hguard
      simp only [hguard.1, hguard.2, idle_onDelayReq_iff]
      simpa using fun hscan => inst_of_idle_onDelayReq hscan
    · simp_all
  · simp only [handle, hkind, Ignored, handlesClockMessage]
    refine ⟨_, rfl, ?_⟩
    split
    · rename_i hguard
      simp [hguard.1, hguard.2, not_idle_onDelayResp]
    · simp_all

/-- A malformed clock message is without effect if and only if it is not for this node, or
it is a DELAY_REQ out of which `sscanf` does not read three numbers. A body that is a
sequence of three integers is not among these. -/
theorem malformed_without_effect_iff (env : Env) (p : Instance) (c : AsyncCapsule) (msg : Message)
    (haccepted : acceptedMessage env c = some msg)
    (hkind : msg.control = .SYNC_RESP ∨ msg.control = .DELAY_REQ ∨ msg.control = .DELAY_RESP) :
    ∃ p' effects, update env p c = .ok (p', effects) ∧
      (¬ IntegerSequence (expectedNumbers msg.control) msg.body → (Idle effects ↔ Ignored p msg)) ∧
      (Ignored p msg → p' = p) ∧ (scanDelayReq msg.body = none → ¬ IntegerSequence 3 msg.body) := by
  obtain ⟨h, hh, hidle, hinst⟩ := idle_handle_iff env p c hkind
  have hrefused : scanDelayReq msg.body = none → ¬ IntegerSequence 3 msg.body := by
    intro hscan hsequence
    obtain ⟨ts, hts⟩ := scanDelayReq_of_integers hsequence
    cases hscan.symm.trans hts
  rw [update_of_accepted haccepted, hh]
  refine ⟨_, _, rfl, fun _ => ?_, hinst, hrefused⟩
  have hforward : Idle (if h.forward then forwardToObservers h.inst msg c else []) := by
    split
    · exact idle_forwardToObservers _ _ _
    · simp [Idle]
  rw [idle_append hforward]
  exact hidle

/-- A clock message of group 0 with the given body, as it is on the wire. -/
def clockCapsule (t : ControlType) (body : Bytes) : AsyncCapsule where
  src := ⟨.zero, GATEWAY_PORT⟩
  dst := ⟨.zero, GATEWAY_PORT⟩
  origin := .ethernet
  payload := buildMessage { control := t, body }

/-- A master that gets the text `x` for a DELAY_REQ does nothing. -/
theorem master_ignores_text :
    ∃ p' effects, update acceptingEnv { address := .zero, isMaster := true }
      (clockCapsule .DELAY_REQ (ascii "x")) =
      .ok (p', effects) ∧ Idle effects ∧ p' = { address := .zero, isMaster := true } := by
  obtain ⟨p', effects, hupdate, hidle, hinst, -⟩ := malformed_without_effect_iff acceptingEnv
    { address := .zero, isMaster := true } (clockCapsule .DELAY_REQ (ascii "x"))
    { control := .DELAY_REQ, body := ascii "x" } (by decide +kernel) (Or.inr (Or.inl rfl))
  have hignored : Ignored { address := .zero, isMaster := true }
      { control := .DELAY_REQ, body := ascii "x" } := by
    decide +kernel
  exact ⟨p', effects, hupdate, (hidle (by decide +kernel)).mpr hignored, hinst hignored⟩

/-- A worker that gets the same text for a SYNC_RESP answers it, with zero for the master's
time; for a DELAY_RESP it records the sample zero and corrects its clock. -/
theorem worker_acts_on_text :
    ¬ IntegerSequence 1 (ascii "x") ∧ ¬ IntegerSequence 2 (ascii "x") ∧
    (processed acceptingEnv { address := .zero }
      (clockCapsule .SYNC_RESP (ascii "x"))).2.filterMap Effect.sent =
      [(.control .DELAY_REQ, 0, delayReqText 0 0 0)] ∧
    (processed acceptingEnv { address := .zero } (clockCapsule .DELAY_RESP (ascii "x"))).2 =
      [.ptpSample 0 0, .adjustTime 0] := by
  decide +kernel

end CarNetwork.Protocol
