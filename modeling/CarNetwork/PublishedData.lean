import CarNetwork.Delivery
import CarNetwork.PublisherLoop
import CarNetwork.Relay
import CarNetwork.SubscriptionRequest
import CarNetwork.ThrowingCalls

/-!
# Where published data goes

A subscriber names itself as ADDRESS:PORT. The publisher thread puts this text behind "TO="
for `send_local`, which reads a port there and takes the address of its own machine. What
becomes of a subscription that is due is known before the sweep: store, data, clock and
order of iteration give the turns of all that are due, and the message of a turn is sent
if no text before it fails to parse and the shared memory takes it.
-/
namespace CarNetwork.PubSub

open CarNetwork.ByteText CarNetwork.DecimalText CarNetwork.Conversions CarNetwork.KeyedList
open CarNetwork.Ethernet CarNetwork.Relay CarNetwork.ThrowingCalls
open CarNetwork.Protocol (Instance Effect Message buildMessage)
open CarNetwork.Sizes (SHM_LIMIT)

/-! ## The text of a subscriber -/

/-- ADDRESS:PORT. -/
def subscriberText (a : Address) (q : UInt16) : SubscriberId := a.str ++ colon ++ decimal q.toNat

theorem hexByte_addressAlphabet (o : UInt8) : ∀ b ∈ hexByte 65 o, b ∈ addressAlphabet := by
  have hdigit : ∀ d : Fin 16, hexDigit 65 d ∈ addressAlphabet := by decide
  have ho := UInt8.toNat_lt o
  simp only [hexByte, List.forall_mem_cons]
  exact ⟨hdigit ⟨o.toNat / 16, by omega⟩, hdigit ⟨o.toNat % 16, by omega⟩, by simp⟩

theorem subscriberText_addressAlphabet (a : Address) (q : UInt16) :
    ∀ b ∈ subscriberText a q, b ∈ addressAlphabet := by
  have hcolon : ∀ b ∈ colon, b ∈ addressAlphabet := by decide +kernel
  have hdigit : ∀ d : Fin 10, digitByte d ∈ addressAlphabet := by decide
  have hdecimal : ∀ b ∈ decimal q.toNat, b ∈ addressAlphabet := by
    intro b hb
    obtain ⟨hlo, hhi⟩ := (isDigit_iff b).mp (isDigit_of_mem_decimal _ b hb)
    have hb : digitByte (b.toNat - 48) = b :=
      UInt8.toNat_inj.mp (by rw [digitByte_toNat _ (by omega)]; omega)
    exact hb ▸ hdigit ⟨b.toNat - 48, by omega⟩
  simp only [subscriberText, Address.str, List.forall_mem_append]
  have hbyte := hexByte_addressAlphabet
  exact ⟨⟨⟨⟨⟨⟨⟨⟨⟨⟨⟨⟨hbyte _, hcolon⟩, hbyte _⟩, hcolon⟩, hbyte _⟩, hcolon⟩, hbyte _⟩, hcolon⟩,
    hbyte _⟩, hcolon⟩, hbyte _⟩, hcolon⟩, hdecimal⟩

/-- The decimal number at the start of two hexadecimal digits. -/
def leadingNumber (o : UInt8) : Option ℕ :=
  if 160 ≤ o.toNat then none
  else if o.toNat % 16 < 10 then some (10 * (o.toNat / 16) + o.toNat % 16)
  else some (o.toNat / 16)

theorem hexDigit_scan : ∀ d : Fin 16, isSpace (hexDigit 65 d) = false ∧
    (hexDigit 65 d ≠ 45 ∧ hexDigit 65 d ≠ 43) ∧
    isDigit (hexDigit 65 d) = decide (d.val < 10) ∧
      (d.val < 10 → (hexDigit 65 d).toNat - 48 = d) := by
  decide

/-- What the conversion of an address text to a number makes of it. -/
theorem stoi_hexByte (o : UInt8) (rest : Bytes) :
    stoi (hexByte 65 o ++ colon ++ rest) =
      match leadingNumber o with
      | some n => .ok (n : ℤ)
      | none => .error .invalidArgument := by
  have ho := UInt8.toNat_lt o
  obtain ⟨hspace, hsign, hdigit, hvalue⟩ := hexDigit_scan ⟨o.toNat / 16, by omega⟩
  obtain ⟨-, -, hdigit', hvalue'⟩ := hexDigit_scan ⟨o.toNat % 16, by omega⟩
  dsimp only at hspace hsign hdigit hvalue hdigit' hvalue'
  have hcolon : NoDigit (colon ++ rest) := by
    intro b hb
    cases hb
    rfl
  have hstoi {digits tail : Bytes} {n : ℕ} (hne : digits ≠ []) (hdigits : ∀ b ∈ digits,
      isDigit b = true)
      (htail : NoDigit tail) (hn : digitsValue digits = n) (hsmall : n < 256) :
      stoi (digits ++ tail) = .ok (n : ℤ) := by
    have hin : InInt n := ⟨by omega, by omega⟩
    rw [stoi, scanInteger_digits hne hdigits htail, hn]
    exact if_pos hin
  rw [hexByte, List.append_assoc]
  by_cases hhi : o.toNat / 16 < 10
  · rw [leadingNumber, if_neg (by omega)]
    simp only [hhi, decide_true] at hdigit
    by_cases hlo : o.toNat % 16 < 10
    · simp only [hlo, decide_true] at hdigit'
      rw [if_pos hlo]
      apply hstoi
      · simp
      · simp [hdigit, hdigit']
      · exact hcolon
      · simp only [digitsValue, List.foldl_cons, List.foldl_nil, hvalue hhi, hvalue' hlo]
        omega
      · omega
    · simp only [hlo, decide_false] at hdigit'
      rw [if_neg hlo]
      -- the letter ends the number
      rw [List.cons_append, ← List.singleton_append]
      apply hstoi
      · simp
      · simp [hdigit]
      · intro b hb
        cases hb
        exact hdigit'
      · simp [digitsValue, hvalue hhi]
      · omega
  · rw [leadingNumber, if_pos (by omega)]
    simp only [hhi, decide_false] at hdigit
    rw [List.cons_append, stoi, scanInteger_of_not_digit hspace hsign hdigit]

/-! ## Reading the destination -/

/-- `send_local` takes the subscriber's text for a port of the own machine, and the data as it
is, for every data text. -/
theorem localDestination_publication (mac : Address) {who : SubscriberId}
    (hwho : ∀ b ∈ who, b ∈ addressAlphabet) (v : Bytes) :
    Car.localDestination mac (ascii "TO=" ++ who ++ ascii " DATA=" ++ v) =
      (stoi who).map fun z => (⟨mac, UInt16.ofInt z⟩, v) := by
  set s := ascii "TO=" ++ who ++ ascii " DATA=" ++ v with hs
  have hto : find s (ascii "TO=") 0 = some 0 := by
    apply find_of_drop
    rw [List.drop_zero, hs, List.append_assoc, List.append_assoc]
  have hbefore : s = (ascii "TO=" ++ (who ++ [space])) ++ (ascii "DATA=" ++ v) := by
    have hspace : ascii " DATA=" = [space] ++ ascii "DATA=" := by decide
    rw [hs, hspace]
    simp only [List.append_assoc]
  have hapart : Apart (ascii "DATA=") (ascii "TO=" ++ (who ++ [space])) := by
    -- no address byte is the T of the key
    have hT : (84 : UInt8) ∉ who := fun h => absurd (hwho _ h) (by decide)
    exact Apart.append (by decide) (apart_snoc (by decide) hT (by decide))
  have hdata : find s (ascii "DATA=") 0 = some (who.length + 4) := by
    rw [find, List.drop_zero, hbefore, search_skip hapart, search_prefix]
    simp [ascii]
  have hport : substr s (0 + 3) (who.length + 4 - 0 - 4) = who := by
    have hdrop : s.drop 3 = who ++ (ascii " DATA=" ++ v) := by
      rw [hs, List.append_assoc, List.append_assoc]
      rfl
    rw [Nat.zero_add, Nat.sub_zero, Nat.add_sub_cancel]
    exact substr_of_drop hdrop
  have hrest : s.drop (who.length + 4 + 5) = v := by
    have hlen : who.length + 4 + 5 = (ascii "TO=" ++ (who ++ [space]) ++ ascii "DATA=").length := by
      simp [ascii]
    have hsplit : s = (ascii "TO=" ++ (who ++ [space]) ++ ascii "DATA=") ++ v := by
      rw [hbefore, List.append_assoc (ascii "TO=" ++ (who ++ [space]))]
    rw [hsplit, hlen, List.drop_left]
  simp only [Car.localDestination, hto, hdata, if_pos (show 0 + 4 ≤ who.length + 4 by omega), hport,
    hrest]
  cases stoi who <;> rfl

theorem leadingNumber_lt {o : UInt8} {n : ℕ} (h : leadingNumber o = some n) : n < 256 := by
  have ho := UInt8.toNat_lt o
  unfold leadingNumber at h
  split at h
  · cases h
  · split at h
    · cases h
      omega
    · cases h
      omega

theorem uint16_ofInt_eq_iff {n : ℕ} (hn : n < 256) (q : UInt16) :
    UInt16.ofInt n = q ↔ n = q.toNat := by
  have hword : (UInt16.ofNat n).toNat = n := UInt16.toNat_ofNat_of_lt' (by rw [UInt16.size]; omega)
  have hofInt := uint16_ofInt_toNat (UInt16.ofNat n)
  rw [hword] at hofInt
  rw [hofInt, ← UInt16.toNat_inj, hword]

/-! ## The turns of a sweep -/

/-- A subscription that is due in a sweep: how many calls of `send_local` and how many clock
readings come before its own. -/
structure Turn where
  type : VehicleDataType
  who : SubscriberId
  number : ℕ
  reading : ℕ
  deriving DecidableEq

def Turn.report (x : Turn) : Report := (x.type, x.who)

/-- The turns of the subscribers of one type. -/
def turnsOf (t : VehicleDataType) : List SubscriberId → ℕ → ℕ → List Turn
  | [], _, _ => []
  | who :: due, number, reading =>
    ⟨t, who, number, reading⟩ :: turnsOf t due (number + 1) (reading + 1)

/-- The turns of all subscriptions that are due when the given types are visited: the clock is
read once for each type and once for each message. -/
def PublishSubscriber.turns (ps : PublishSubscriber) (now : ℕ → UInt64) :
    List VehicleDataType → ℕ → ℕ → List Turn
  | [], _, _ => []
  | t :: ts, number, reading =>
    let due := ps.dueAt (now reading) t
    turnsOf t due number (reading + 1) ++
      ps.turns now ts (number + due.length) (reading + 1 + due.length)

theorem report_turnsOf (t : VehicleDataType) (due : List SubscriberId) (number reading : ℕ) :
    (turnsOf t due number reading).map Turn.report = due.map (t, ·) := by
  induction due generalizing number reading with
  | nil => rfl
  | cons who due ih => simp [turnsOf, Turn.report, ih]

theorem type_of_mem_turnsOf {t : VehicleDataType} {due : List SubscriberId} {number reading : ℕ}
    {x : Turn} (hx : x ∈ turnsOf t due number reading) : x.type = t := by
  have hmem := List.mem_map_of_mem (f := Turn.report) hx
  rw [report_turnsOf] at hmem
  obtain ⟨who, -, hreport⟩ := List.mem_map.mp hmem
  exact (congrArg Prod.fst hreport).symm

section Turns

variable {ps : PublishSubscriber} {now : ℕ → UInt64} {ts : List VehicleDataType}

theorem type_of_mem_turns {number reading : ℕ} {x : Turn}
    (hx : x ∈ ps.turns now ts number reading) : x.type ∈ ts := by
  induction ts generalizing number reading with
  | nil => cases hx
  | cons t ts ih =>
    rcases List.mem_append.mp hx with hx | hx
    · exact type_of_mem_turnsOf hx ▸ List.mem_cons_self
    · exact List.mem_cons_of_mem t (ih hx)

/-- Each subscription has at most one turn. -/
theorem nodup_turns (hts : ts.Nodup) (hwho : ∀ t, ((ps.entries t).map Subscription.who).Nodup)
    (number reading : ℕ) : ((ps.turns now ts number reading).map Turn.report).Nodup := by
  induction ts generalizing number reading with
  | nil => exact List.nodup_nil
  | cons t ts ih =>
    obtain ⟨hnot, hnodup⟩ := List.nodup_cons.mp hts
    have hdue : (ps.dueAt (now reading) t).Nodup := by
      unfold PublishSubscriber.dueAt
      split
      · exact (hwho t).sublist (List.filter_sublist.map _)
      · exact List.nodup_nil
    rw [PublishSubscriber.turns, List.map_append, report_turnsOf]
    refine List.Nodup.append (hdue.map fun _ _ h => (Prod.mk.inj h).2) (ih hnodup _ _) ?_
    intro r hr hr'
    obtain ⟨who, -, rfl⟩ := List.mem_map.mp hr
    obtain ⟨x, hx, hreport⟩ := List.mem_map.mp hr'
    have htype : x.type = t := congrArg Prod.fst hreport
    exact hnot (htype ▸ type_of_mem_turns hx)

end Turns

namespace Publisher

/-- The call of `send_local` in a turn of a sweep that begins with the given message id. -/
def callOf (c : Publisher) (now : ℕ → UInt64) (nextMsgId : UInt64) (x : Turn) :
    Except CxxException (List Effect) :=
  match c.data.lookup x.type with
  | none => .ok []
  | some value => Car.sendLocal c.proto c.port (c.publication x.who value)
      (nextMsgId + UInt64.ofNat x.number) (now x.reading)

/-- `send_local` finds a port in the text that it is given in the turn, or no destination. -/
def parses (c : Publisher) (x : Turn) : Bool :=
  match c.data.lookup x.type with
  | none => true
  | some value => (Car.localDestination c.proto.address (c.publication x.who value)).isOk

/-- The turns of a sweep. -/
def turns (c : Publisher) (order : IterationOrder) (now : ℕ → UInt64) (ps : PublishSubscriber) :
    List Turn := ps.turns now (order.toList c.data.keys) 0 0

theorem isOk_callOf (c : Publisher) (now : ℕ → UInt64) (nextMsgId : UInt64) (x : Turn) :
    (c.callOf now nextMsgId x).isOk = c.parses x := by
  unfold callOf parses
  split
  · rfl
  · rename_i value _
    rw [Car.sendLocal]
    cases Car.localDestination c.proto.address (c.publication x.who value) <;> rfl

/-! ## The sends of a sweep -/

/-- A report with the effects of its call. -/
def sent (x : Turn × List Effect) : Report × List Effect := (x.1.report, x.2)

section Sweep

variable {c : Publisher} {order : IterationOrder} {now : ℕ → UInt64} {t : VehicleDataType}
  {value : VehicleValue} {g : Progress} {nextMsgId : UInt64}

theorem foldl_sendTo_of_thrown (due : List SubscriberId) {e : CxxException}
    (h : g.thrown = some e) : due.foldl (c.sendTo now t value) g = g := by
  induction due with
  | nil => rfl
  | cons who due ih => rw [List.foldl_cons, sendTo, if_pos (by simp [h]), ih]

theorem foldl_visit_of_thrown (ts : List VehicleDataType) {e : CxxException}
    (h : g.thrown = some e) : ts.foldl (c.visit order now) g = g := by
  induction ts with
  | nil => rfl
  | cons t ts ih => rw [List.foldl_cons, c.visit_of_thrown order now h, ih]

theorem sendTo_of_error {who : SubscriberId} {e : CxxException} (hrun : g.thrown = none)
    (h : Car.sendLocal c.proto c.port (c.publication who value) g.nextMsgId (now g.readings) =
      .error e) : c.sendTo now t value g who = { g with thrown := some e } := by
  rw [sendTo, if_neg (by simp [hrun]), h]

theorem sendTo_of_ok {who : SubscriberId} {effects : List Effect} (hrun : g.thrown = none)
    (h : Car.sendLocal c.proto c.port (c.publication who value) g.nextMsgId (now g.readings) =
      .ok effects) :
    c.sendTo now t value g who =
      { g with
        nextMsgId := g.nextMsgId + 1
        readings := g.readings + 1
        sends := g.sends ++ [((t, who), effects)] } := by
  rw [sendTo, if_neg (by simp [hrun]), h]

/-- Sending to the due subscribers of a type is the calls of their turns. -/
theorem foldl_sendTo_eq (now : ℕ → UInt64) (hvalue : c.data.lookup t = some value)
    (due : List SubscriberId) (hrun : g.thrown = none) {number : ℕ}
    (hid : g.nextMsgId = nextMsgId + UInt64.ofNat number) :
    let calls := untilThrown (c.callOf now nextMsgId) (turnsOf t due number g.readings)
    let g' := due.foldl (c.sendTo now t value) g
    g'.sends = g.sends ++ calls.1.map sent ∧ g'.thrown = calls.2 ∧
      (calls.2 = none → g'.nextMsgId = nextMsgId + UInt64.ofNat (number + due.length) ∧
        g'.readings = g.readings + due.length) := by
  induction due generalizing g number with
  | nil => simp [turnsOf, untilThrown, hrun, hid]
  | cons who due ih =>
    have hcall : c.callOf now nextMsgId ⟨t, who, number, g.readings⟩ =
        Car.sendLocal c.proto c.port (c.publication who value) g.nextMsgId (now g.readings) := by
      simp only [callOf, hvalue, hid]
    cases hsend : Car.sendLocal c.proto c.port (c.publication who value) g.nextMsgId
        (now g.readings) with
    | error e =>
      rw [turnsOf, untilThrown_cons_of_error (hcall.trans hsend), List.foldl_cons,
        sendTo_of_error hrun hsend, foldl_sendTo_of_thrown due rfl]
      simp
    | ok effects =>
      have hnext : g.nextMsgId + 1 = nextMsgId + UInt64.ofNat (number + 1) := by
        rw [hid, UInt64.ofNat_add, UInt64.add_assoc]
        rfl
      rw [turnsOf, untilThrown_cons_of_ok (hcall.trans hsend), List.foldl_cons,
        sendTo_of_ok hrun hsend]
      obtain ⟨hsends, hthrown, hafter⟩ := ih (g := { g with
        nextMsgId := g.nextMsgId + 1
        readings := g.readings + 1
        sends := g.sends ++ [((t, who), effects)] }) hrun hnext
      refine ⟨hsends.trans ?_, hthrown, fun hnone => ?_⟩
      · simp [sent, Turn.report]
      · obtain ⟨hnextId, hreadings⟩ := hafter hnone
        refine ⟨hnextId.trans ?_, hreadings.trans ?_⟩
        · rw [List.length_cons, Nat.add_assoc, Nat.add_comm 1]
        · simp only [List.length_cons]
          omega

/-- A check of one type does not change what is due of another. -/
theorem dueAt_checkType_of_ne (ps : PublishSubscriber) (nowUs nowUs' : UInt64)
    {t t' : VehicleDataType} (h : t' ≠ t) :
    (ps.checkType nowUs t).2.dueAt nowUs' t' = ps.dueAt nowUs' t' := by
  simp only [PublishSubscriber.dueAt, PublishSubscriber.checkType_supports,
    PublishSubscriber.entries_checkType, if_neg fun hc : t' = t ∧ ps.supports t' = true => h hc.1]

/-- Visiting types with data is the calls of the turns, whatever the store has become by
earlier visits of other types. -/
theorem foldl_visit_eq (order : IterationOrder) (now : ℕ → UInt64) (ps : PublishSubscriber)
    {ts : List VehicleDataType} (hts : ts.Nodup) (hdata : ∀ t ∈ ts, t ∈ c.data)
    (hrun : g.thrown = none) {number : ℕ} (hid : g.nextMsgId = nextMsgId + UInt64.ofNat number)
    (hstore : ∀ t ∈ ts, ∀ nowUs, g.pubSub.dueAt nowUs t = ps.dueAt nowUs t) :
    let calls := untilThrown (c.callOf now nextMsgId) (ps.turns now ts number g.readings)
    (ts.foldl (c.visit order now) g).sends = g.sends ++ calls.1.map sent ∧
      (ts.foldl (c.visit order now) g).thrown = calls.2 := by
  induction ts generalizing g number with
  | nil => simp [PublishSubscriber.turns, untilThrown, hrun]
  | cons t ts ih =>
    obtain ⟨hnot, hnodup⟩ := List.nodup_cons.mp hts
    obtain ⟨ht, hdata⟩ := List.forall_mem_cons.mp hdata
    obtain ⟨hdue, hstore⟩ := List.forall_mem_cons.mp hstore
    obtain ⟨value, hvalue⟩ := Option.isSome_iff_exists.mp (Finmap.lookup_isSome.mpr ht)
    let checked : Progress := { g with
      pubSub := (g.pubSub.checkType (now g.readings) t).2
      readings := g.readings + 1
      reports := g.reports ++ (ps.dueAt (now g.readings) t).map (t, ·) }
    have hvisit : c.visit order now g t =
        (ps.dueAt (now g.readings) t).foldl (c.sendTo now t value) checked := by
      rw [c.visit_eq order now hrun hvalue, hdue]
    obtain ⟨hsends, hthrown, hafter⟩ := foldl_sendTo_eq (g := checked) now hvalue
      (ps.dueAt (now g.readings) t) hrun hid
    have hpubSub := (c.foldl_sendTo_frame now t value (ps.dueAt (now g.readings) t) checked).1
    rw [← hvisit] at hsends hthrown hafter hpubSub
    simp only [List.foldl_cons, PublishSubscriber.turns]
    cases hcalls : (untilThrown (c.callOf now nextMsgId)
        (turnsOf t (ps.dueAt (now g.readings) t) number (g.readings + 1))).2 with
    | some e =>
      rw [foldl_visit_of_thrown ts (hthrown.trans hcalls), untilThrown_append_of_thrown hcalls]
      exact ⟨hsends, hthrown⟩
    | none =>
      obtain ⟨hnextId, hreadings⟩ := hafter hcalls
      have hkept : ∀ t' ∈ ts, ∀ nowUs,
          (c.visit order now g t).pubSub.dueAt nowUs t' = ps.dueAt nowUs t' := by
        intro t' ht' nowUs
        have hne : t' ≠ t := fun h => hnot (h ▸ ht')
        rw [hpubSub, dueAt_checkType_of_ne _ _ _ hne]
        exact hstore t' ht' nowUs
      obtain ⟨hsends', hthrown'⟩ := ih hnodup hdata (hthrown.trans hcalls) hnextId hkept
      rw [hreadings] at hsends' hthrown'
      rw [untilThrown_append hcalls]
      refine ⟨?_, hthrown'⟩
      rw [hsends', hsends, List.map_append, List.append_assoc]

/-- What a sweep sends, and how it ends, is decided by the calls of its turns. -/
theorem sweep_eq (c : Publisher) (order : IterationOrder) (now : ℕ → UInt64)
    (ps : PublishSubscriber) (nextMsgId : UInt64) :
    let calls := untilThrown (c.callOf now nextMsgId) (c.turns order now ps)
    (c.sweep order now ps nextMsgId).sends = calls.1.map sent ∧
      (c.sweep order now ps nextMsgId).thrown = calls.2 := by
  have hdata : ∀ t ∈ order.toList c.data.keys, t ∈ c.data := by
    intro t ht
    rwa [order.mem, Finmap.mem_keys] at ht
  have hid : nextMsgId = nextMsgId + UInt64.ofNat 0 := (UInt64.add_zero nextMsgId).symm
  obtain ⟨hsends, hthrown⟩ := foldl_visit_eq (g := { pubSub := ps, nextMsgId }) order now ps
    (order.nodup _) hdata rfl hid fun _ _ _ => rfl
  exact ⟨hsends.trans (List.nil_append _), hthrown⟩

end Sweep

/-! ## The message of a turn -/

/-- The call puts a single message on a channel, for the endpoint and with the given body. -/
def SentTo (mac : Address) (dst : Endpoint) (v : Bytes) (effects : List Effect) : Prop :=
  ∃ src channel m, m.body = v ∧
    emitted false mac effects = [⟨src, dst, channel, buildMessage m⟩]

/-- The message of a turn. -/
def messageOf (c : Publisher) (now : ℕ → UInt64) (nextMsgId : UInt64) (x : Turn) (v : Bytes) :
    Message :=
  Car.commMessage c.proto ⟨c.proto.address, c.port⟩ (Int32.ofInt c.port.toNat) v
    (nextMsgId + UInt64.ofNat x.number) (now x.reading)

section Send

variable {c : Publisher} {a : Address} {q : UInt16} {now : ℕ → UInt64} {nextMsgId : UInt64}
  {x : Turn} {v : Bytes} {effects : List Effect}

/-- What the call for a subscriber sends, or that it throws. -/
theorem callOf_subscriberText (hdata : c.data.lookup x.type = some (.string v))
    (hwho : x.who = subscriberText a q) :
    c.callOf now nextMsgId x =
      match leadingNumber a.firstOctet with
      | some n => .ok (Car.sendMessage c.proto ⟨c.proto.address, c.port⟩
          ⟨c.proto.address, UInt16.ofInt n⟩ (c.messageOf now nextMsgId x v))
      | none => .error .invalidArgument := by
  have hdst := localDestination_publication c.proto.address (subscriberText_addressAlphabet a q) v
  obtain ⟨rest, htext⟩ : ∃ rest, subscriberText a q = hexByte 65 a.firstOctet ++ colon ++ rest :=
    ⟨_, by simp only [subscriberText, Address.str, List.append_assoc]; rfl⟩
  simp only [callOf, hdata, hwho]
  rw [Car.sendLocal, publication, vehicleDataToString, hdst, htext, stoi_hexByte]
  cases leadingNumber a.firstOctet <;> rfl

/-- The message arrives where the subscriber asked for it only if that is the own machine, the
port is the number that its address begins with, and the shared memory takes it. -/
theorem sentTo_iff (hdata : c.data.lookup x.type = some (.string v))
    (hwho : x.who = subscriberText a q) (h : c.callOf now nextMsgId x = .ok effects) :
    SentTo c.proto.address ⟨a, q⟩ v effects ↔
      a = c.proto.address ∧ leadingNumber a.firstOctet = some q.toNat ∧
        (buildMessage (c.messageOf now nextMsgId x v)).length ≤ SHM_LIMIT := by
  rw [callOf_subscriberText hdata hwho] at h
  cases hn : leadingNumber a.firstOctet with
  | none =>
    rw [hn] at h
    cases h
  | some n =>
    rw [hn] at h
    obtain rfl := Except.ok.inj h
    have hport := uint16_ofInt_eq_iff (leadingNumber_lt hn) q
    rw [SentTo, emitted_shm rfl]
    by_cases hlen : (buildMessage (c.messageOf now nextMsgId x v)).length ≤ SHM_LIMIT
    · rw [List.filter_cons_of_pos (by simpa [fits] using hlen), List.filter_nil]
      constructor
      · rintro ⟨src, channel, m, -, hsent⟩
        obtain ⟨-, hdst, -⟩ := Protocol.AsyncCapsule.mk.inj (List.singleton_inj.mp hsent)
        obtain ⟨hmac, hnumber⟩ := Endpoint.mk.inj hdst
        exact ⟨hmac.symm, congrArg some (hport.mp hnumber), hlen⟩
      · rintro ⟨rfl, hnumber, -⟩
        have hq : UInt16.ofInt n = q := hport.mpr (Option.some.inj hnumber)
        exact ⟨_, _, _, rfl, by rw [hq]⟩
    · rw [List.filter_cons_of_neg (by simpa [fits] using hlen), List.filter_nil]
      simp [hlen]

end Send

/-! ## From the request to the message -/

/-- The sweep has sent something for the report, and always the value to the endpoint. -/
def Published (mac : Address) (g : Progress) (r : Report) (dst : Endpoint) (v : Bytes) : Prop :=
  (∃ effects, (r, effects) ∈ g.sends) ∧ ∀ effects, (r, effects) ∈ g.sends → SentTo mac dst v effects

section Sweep

variable {c : Publisher} {order : IterationOrder} {now : ℕ → UInt64} {ps : PublishSubscriber}
  {nextMsgId : UInt64} {a : Address} {q : UInt16} {v : Bytes} {before after : List Turn} {x : Turn}

/-- The call of a turn is made if all texts before it parse, and it is the only one for its
subscription. -/
theorem mem_sends_iff (hwho : ∀ t, ((ps.entries t).map Subscription.who).Nodup)
    (hturns : c.turns order now ps = before ++ x :: after) (effects : List Effect) :
    (x.report, effects) ∈ (c.sweep order now ps nextMsgId).sends ↔
      (∀ y ∈ before, c.parses y = true) ∧ c.callOf now nextMsgId x = .ok effects := by
  have hnodup : ((before ++ x :: after).map Turn.report).Nodup :=
    hturns ▸ nodup_turns (order.nodup _) hwho 0 0
  rw [(c.sweep_eq order now ps nextMsgId).1, hturns]
  simp only [← isOk_callOf c now nextMsgId]
  constructor
  · intro hmem
    obtain ⟨⟨y, effects'⟩, hy, heq⟩ := List.mem_map.mp hmem
    obtain ⟨hreport, rfl⟩ := Prod.mk.inj heq
    obtain ⟨before', after', hsplit, hok, hcall⟩ := mem_untilThrown.mp hy
    -- no other turn has the same report
    rw [List.map_append, List.map_cons, List.nodup_append, List.nodup_cons] at hnodup
    obtain ⟨-, ⟨hafter, -⟩, hbefore⟩ := hnodup
    have hnotBefore : y ∉ before := fun hmem =>
      hbefore _ (List.mem_map_of_mem hmem) _ List.mem_cons_self hreport
    have hnotAfter : y ∉ after := fun hmem => hafter (hreport ▸ List.mem_map_of_mem hmem)
    obtain ⟨rfl, rfl, rfl⟩ := (List.append_cons_inj_of_notMem hnotBefore hnotAfter).mp hsplit
    exact ⟨hok, hcall⟩
  · rintro ⟨hok, hcall⟩
    exact List.mem_map.mpr ⟨(x, effects), mem_untilThrown.mpr ⟨before, after, rfl, hok, hcall⟩, rfl⟩

theorem published_iff (hwho : ∀ t, ((ps.entries t).map Subscription.who).Nodup)
    (hturns : c.turns order now ps = before ++ x :: after)
    (hdata : c.data.lookup x.type = some (.string v)) (hx : x.who = subscriberText a q) :
    Published c.proto.address (c.sweep order now ps nextMsgId) x.report ⟨a, q⟩ v ↔
      a = c.proto.address ∧ leadingNumber a.firstOctet = some q.toNat ∧
        (∀ y ∈ before, c.parses y = true) ∧
        (buildMessage (c.messageOf now nextMsgId x v)).length ≤ SHM_LIMIT := by
  simp only [Published, mem_sends_iff hwho hturns]
  constructor
  · rintro ⟨⟨effects, hok, hcall⟩, hall⟩
    obtain ⟨hmac, hnumber, hlen⟩ := (sentTo_iff hdata hx hcall).mp (hall effects ⟨hok, hcall⟩)
    exact ⟨hmac, hnumber, hok, hlen⟩
  · rintro ⟨hmac, hnumber, hok, hlen⟩
    refine ⟨⟨_, hok, (callOf_subscriberText hdata hx).trans (by rw [hnumber])⟩, ?_⟩
    rintro effects ⟨-, hcall⟩
    exact (sentTo_iff hdata hx hcall).mpr ⟨hmac, hnumber, hlen⟩

/-- The subscriber's address begins with a letter: the thread does not survive the turn. -/
theorem thrown_of_letter (hturns : c.turns order now ps = before ++ x :: after)
    (hdata : c.data.lookup x.type = some (.string v)) (hx : x.who = subscriberText a q)
    (hletter : leadingNumber a.firstOctet = none) :
    (c.sweep order now ps nextMsgId).thrown ≠ none := by
  rw [(c.sweep_eq order now ps nextMsgId).2]
  intro hnone
  have hok := isOk_of_not_thrown hnone x (by simp [hturns])
  rw [callOf_subscriberText hdata hx, hletter] at hok
  cases hok

end Sweep

/-- A request for ADDRESS:PORT is digested and stored under this text. When the subscription
has a turn in a later sweep, the value goes to that endpoint exactly if the address is the
component's own, the number at the start of its text is the port, the texts of all turns
before parse, and the message is within the limit of the shared memory, as every value of
at most 1351 bytes is. For an address that begins with a letter the thread ends with an
exception. -/
theorem request_published_iff {c : Publisher} {calls : List Call} {a : Address} {q code : UInt16}
    {periodUs : UInt64} {fs : List (Bytes × Bytes)} {v : Bytes}
    (hperm : fs.Perm (requestFields (subscriberText a q) code periodUs))
    (hsup : (PublishSubscriber.empty.run calls).supports (.ofCode code) = true)
    (hdata : c.data.lookup (.ofCode code) = some (.string v)) (nowUs : UInt64) :
    ∃ ps, digestSubs (PublishSubscriber.empty.run calls) (fieldsText fs) nowUs = .ok (true, ps) ∧
      (periodUs ≠ 0 → entry Subscription.who (subscriberText a q) (ps.entries (.ofCode code)) =
        some ⟨subscriberText a q, periodUs, nowUs + periodUs⟩) ∧
      ∀ later order now nextMsgId before x after,
        c.turns order now (ps.run later) = before ++ x :: after →
        x.report = (.ofCode code, subscriberText a q) →
        (Published c.proto.address (c.sweep order now (ps.run later) nextMsgId) x.report ⟨a, q⟩ v ↔
          a = c.proto.address ∧ leadingNumber a.firstOctet = some q.toNat ∧
            (∀ y ∈ before, c.parses y = true) ∧
            (buildMessage (c.messageOf now nextMsgId x v)).length ≤ SHM_LIMIT) ∧
        (v.length ≤ 1351 → (buildMessage (c.messageOf now nextMsgId x v)).length ≤ SHM_LIMIT) ∧
        (leadingNumber a.firstOctet = none →
          (c.sweep order now (ps.run later) nextMsgId).thrown ≠ none) := by
  obtain ⟨hspace, hhead⟩ := notMem_of_addressAlphabet (subscriberText_addressAlphabet a q)
  have hdigest := digestSubs_fieldsText hperm hspace hhead (PublishSubscriber.empty.run calls) nowUs
  rw [if_pos hsup] at hdigest
  refine ⟨_, hdigest, fun hperiod => ?_,
    fun later order now nextMsgId before x after hturns hx => ?_⟩
  · rw [PublishSubscriber.entries_subscribe, if_pos ⟨rfl, hsup, hperiod⟩]
    exact Subscription.entry_enlist_self _ _ _ _
  · obtain ⟨htype, hwho⟩ := Prod.mk.inj hx
    rw [← htype] at hdata
    have hnodup : ∀ t, ((PublishSubscriber.entries (PublishSubscriber.run
        ((PublishSubscriber.empty.run calls).subscribe (.ofCode code) (subscriberText a q) periodUs
          nowUs).1 later) t).map Subscription.who).Nodup := by
      intro t
      have hrecorded := PublishSubscriber.recorded_run
        (calls ++ .subscribe (.ofCode code) (subscriberText a q) periodUs nowUs :: later) t
      rw [PublishSubscriber.run, List.foldl_append, List.foldl_cons] at hrecorded
      exact hrecorded.nodup
    have hlen := Protocol.length_buildMessage_le (c.messageOf now nextMsgId x v)
    refine ⟨published_iff hnodup hturns hdata hwho, fun hshort => ?_,
      thrown_of_letter hturns hdata hwho⟩
    have hbody : (c.messageOf now nextMsgId x v).body = v := rfl
    rw [hbody] at hlen
    rw [SHM_LIMIT]
    omega

/-! ## Two subscribers -/

section Sample

/-- The address of vehicle 5 in `run_vms.sh`, up to its first octet. -/
def sampleMac (first : UInt8) : Address := ⟨#v[first, 0x54, 0x00, 0x12, 0x34, 0x05]⟩

/-- A component of that machine with an engine speed. -/
def speedPublisher (first : UInt8) : Publisher where
  proto := Car.initializeCommunicator (sampleMac first) Car.POWERTRAIN_PORT
  port := Car.POWERTRAIN_PORT
  data := .singleton .ENGINE_RPM (.string (ascii "900"))
  doubleText := fun _ => []

/-- The store after a request of a component of the same machine, with period 5 at time 0. -/
def subscribedStore (first : UInt8) (q : UInt16) : PublishSubscriber :=
  ((PublishSubscriber.empty.run [.addCapability .ENGINE_RPM]).subscribe .ENGINE_RPM
    (subscriberText (sampleMac first) q) 5 0).1

/-- The sweep at time 10. -/
noncomputable def sampleSweep (first : UInt8) (q : UInt16) : Progress :=
  (speedPublisher first).sweep PublishSubscriber.anyOrder (fun _ => 10) (subscribedStore first q) 0

theorem sampleSweep_eq (first : UInt8) (q : UInt16) : sampleSweep first q =
    (speedPublisher first).visit PublishSubscriber.anyOrder (fun _ => 10)
      { pubSub := subscribedStore first q, nextMsgId := 0 } .ENGINE_RPM := by
  have hkeys : (speedPublisher first).data.keys = {.ENGINE_RPM} := rfl
  rw [sampleSweep, sweep, hkeys, IterationOrder.toList_singleton, List.foldl_cons, List.foldl_nil]

/-- Port 52 of the machine 52:54:00:12:34:05 gets its data. -/
theorem port_of_first_octet_served :
    Published (sampleMac 0x52) (sampleSweep 0x52 52)
      (.ENGINE_RPM, subscriberText (sampleMac 0x52) 52) ⟨sampleMac 0x52, 52⟩ (ascii "900") := by
  have hcode : VehicleDataType.ofCode 1 = .ENGINE_RPM := by decide
  have hdata : (speedPublisher 0x52).data.lookup (.ofCode 1) = some (.string (ascii "900")) := by
    decide
  have hsup : (PublishSubscriber.empty.run [.addCapability .ENGINE_RPM]).supports (.ofCode 1) =
      true := by decide
  have hrequest := List.Perm.refl (requestFields (subscriberText (sampleMac 0x52) 52) 1 5)
  obtain ⟨ps, hdigest, -, hpublished⟩ := request_published_iff hrequest hsup hdata 0
  have hstore := digestSubs_fieldsText hrequest (by decide) (by decide)
    (PublishSubscriber.empty.run [.addCapability .ENGINE_RPM]) 0
  rw [if_pos hsup] at hstore
  obtain rfl := (Prod.mk.inj (Except.ok.inj (hdigest.symm.trans hstore))).2
  rw [hcode] at hpublished
  have hturns : (speedPublisher 0x52).turns PublishSubscriber.anyOrder (fun _ => 10)
      (subscribedStore 0x52 52) =
        [] ++ ⟨.ENGINE_RPM, subscriberText (sampleMac 0x52) 52, 0, 1⟩ :: [] := by
    have hkeys : (speedPublisher 0x52).data.keys = {.ENGINE_RPM} := rfl
    rw [turns, hkeys, IterationOrder.toList_singleton]
    decide +kernel
  obtain ⟨hiff, hshort, -⟩ := hpublished [] PublishSubscriber.anyOrder (fun _ => 10) 0 [] _ []
    hturns rfl
  exact hiff.mpr ⟨rfl, by decide, by simp, hshort (by decide)⟩

/-- Port 102 of that machine does not: its data goes to port 52. A subscriber whose address
begins with a letter ends the thread. -/
theorem brake_port_missed :
    (.ENGINE_RPM, subscriberText (sampleMac 0x52) 102) ∈ (sampleSweep 0x52 102).reports ∧
    (sampleSweep 0x52 102).sends = [((.ENGINE_RPM, subscriberText (sampleMac 0x52) 102),
      [.transmit .data ⟨sampleMac 0x52, Car.POWERTRAIN_PORT⟩ ⟨sampleMac 0x52, 52⟩ (buildMessage
        (Car.commMessage (speedPublisher 0x52).proto ⟨sampleMac 0x52, Car.POWERTRAIN_PORT⟩ 101
          (ascii "900") 0 10))])] ∧
    ¬ Published (sampleMac 0x52) (sampleSweep 0x52 102)
      (.ENGINE_RPM, subscriberText (sampleMac 0x52) 102) ⟨sampleMac 0x52, 102⟩ (ascii "900") ∧
    (.ENGINE_RPM, subscriberText (sampleMac 0xB2) 102) ∈ (sampleSweep 0xB2 102).reports ∧
    (sampleSweep 0xB2 102).sends = [] ∧
    (sampleSweep 0xB2 102).thrown = some .invalidArgument := by
  have hsends : (sampleSweep 0x52 102).sends =
      [((.ENGINE_RPM, subscriberText (sampleMac 0x52) 102),
        [.transmit .data ⟨sampleMac 0x52, Car.POWERTRAIN_PORT⟩ ⟨sampleMac 0x52, 52⟩ (buildMessage
          (Car.commMessage (speedPublisher 0x52).proto ⟨sampleMac 0x52, Car.POWERTRAIN_PORT⟩ 101
            (ascii "900") 0 10))])] := by
    rw [sampleSweep_eq]
    decide +kernel
  refine ⟨?_, hsends, fun h => ?_, ?_⟩
  · rw [sampleSweep_eq]
    decide +kernel
  · obtain ⟨src, channel, m, -, hsent⟩ := h.2 _ (by rw [hsends]; exact List.mem_singleton_self _)
    have hport : (emitted false (sampleMac 0x52) [.transmit .data
        ⟨sampleMac 0x52, Car.POWERTRAIN_PORT⟩ ⟨sampleMac 0x52, 52⟩ (buildMessage
          (Car.commMessage (speedPublisher 0x52).proto ⟨sampleMac 0x52, Car.POWERTRAIN_PORT⟩ 101
            (ascii "900") 0 10))]).map (·.dst.port) = [52] := by decide +kernel
    rw [hsent, List.map_singleton, List.singleton_inj] at hport
    have hsame : (102 : UInt16) = 52 := hport
    exact absurd hsame (by decide)
  · rw [sampleSweep_eq]
    decide +kernel

end Sample

end Publisher

end CarNetwork.PubSub
