import CarNetwork.Gateway
import CarNetwork.SubscriptionStore

/-!
# The publisher thread

`publisher_loop` waits until the earliest deadline of the store and then sweeps over the
data table of its component. The wait looks at every subscription; the sweep asks for the
types that have data, and the store answers for those it still supports.
-/
namespace CarNetwork.PubSub

open CarNetwork.ByteText CarNetwork.DecimalText CarNetwork.Conversions CarNetwork.KeyedList
open CarNetwork.Protocol (Instance Effect asInt64)

/-! ## The wait -/

theorem IterationOrder.toList_singleton (order : IterationOrder) (t : VehicleDataType) :
    order.toList {t} = [t] := by
  have hperm : (order.toList {t}).Perm [t] := by
    rw [List.perm_ext_iff_of_nodup (order.nodup _) (List.nodup_singleton t)]
    simp [order.mem]
  exact List.perm_singleton.mp hperm

theorem IterationOrder.toList_empty (order : IterationOrder) : order.toList ∅ = [] :=
  List.eq_nil_iff_forall_not_mem.mpr fun t => by simp [order.mem]

def UINT64_MAX : UInt64 := 0xFFFFFFFFFFFFFFFF

def Subscription.earlier (nextDue : UInt64) (s : Subscription) : UInt64 :=
  if s.nextDueUs < nextDue then s.nextDueUs else nextDue

theorem Subscription.foldl_earlier (list : List Subscription) (nextDue : UInt64) :
    list.foldl earlier nextDue = nextDue ∨ ∃ s ∈ list, list.foldl earlier nextDue =
      s.nextDueUs := by
  induction list generalizing nextDue with
  | nil => exact Or.inl rfl
  | cons s list ih =>
    rcases ih (earlier nextDue s) with h | ⟨s', hs', h⟩
    · rw [List.foldl_cons, h, earlier]
      split
      · exact Or.inr ⟨s, List.mem_cons_self, rfl⟩
      · exact Or.inl rfl
    · exact Or.inr ⟨s', List.mem_cons_of_mem s hs', h⟩

/-- Whether `sleep_for` sleeps: not for a duration that is not positive. -/
def sleeps : Option ℤ → Bool
  | some us => 0 < us
  | none => false

namespace PublishSubscriber

/-- The loops of `wait_until_next_due` over all subscriptions. -/
def nextDue (ps : PublishSubscriber) (order : IterationOrder) : UInt64 :=
  (order.toList ps.subs.keys).foldl (fun m t =>
    (ps.entries t).foldl Subscription.earlier m) UINT64_MAX

/-- `wait_until_next_due`: the microseconds for which it calls `sleep_for`, if it does. The
count of a duration is a signed word. -/
def waitUntilNextDue (ps : PublishSubscriber) (order : IterationOrder)
    (nowUs : UInt64) : Option ℤ :=
  if ps.nextDue order = UINT64_MAX then some 1000000
  else if nowUs < ps.nextDue order then some (asInt64 (ps.nextDue order - nowUs)) else none

theorem nextDue_eq (ps : PublishSubscriber) (order : IterationOrder) :
    ps.nextDue order = UINT64_MAX ∨ ∃ t, ∃ s ∈ ps.entries t, ps.nextDue order = s.nextDueUs := by
  rw [nextDue, ← List.foldl_flatMap]
  rcases Subscription.foldl_earlier ((order.toList ps.subs.keys).flatMap ps.entries) UINT64_MAX with
    h | ⟨s, hs, h⟩
  · exact Or.inl h
  · obtain ⟨t, -, hs⟩ := List.mem_flatMap.mp hs
    exact Or.inr ⟨t, s, hs, h⟩

/-- A wait that does not sleep has seen a deadline that has passed, or one half the range of
the clock ahead. -/
theorem nextDue_of_not_sleeps {ps : PublishSubscriber} {order : IterationOrder} {nowUs : UInt64}
    (h : sleeps (ps.waitUntilNextDue order nowUs) = false) :
    (∃ t, ∃ s ∈ ps.entries t, ps.nextDue order = s.nextDueUs) ∧
      (ps.nextDue order ≤ nowUs ∨ nowUs.toNat + 2 ^ 63 ≤ (ps.nextDue order).toNat) := by
  unfold waitUntilNextDue at h
  by_cases hmax : ps.nextDue order = UINT64_MAX
  · rw [if_pos hmax] at h
    cases h
  · refine ⟨(ps.nextDue_eq order).resolve_left hmax, ?_⟩
    rw [if_neg hmax] at h
    by_cases hlt : nowUs < ps.nextDue order
    · right
      rw [if_pos hlt] at h
      have hnot : ¬ 0 < asInt64 (ps.nextDue order - nowUs) := by simpa [sleeps] using h
      rw [UInt64.lt_iff_toNat_lt] at hlt
      have hsub := UInt64.toNat_sub_of_le (ps.nextDue order) nowUs
        (UInt64.le_iff_toNat_le.mpr hlt.le)
      by_contra hnear
      have hbmod : asInt64 (ps.nextDue order - nowUs) = ((ps.nextDue order - nowUs).toNat : ℤ) :=
        Int.bmod_eq_of_le (by omega) (by omega)
      omega
    · left
      rw [UInt64.lt_iff_toNat_lt] at hlt
      rw [UInt64.le_iff_toNat_le]
      omega

theorem getDueSubscribers_single (ps : PublishSubscriber) (order : IterationOrder)
    (t : VehicleDataType) (nowUs : UInt64) :
    ps.getDueSubscribers order t false nowUs = (ps.dueAt nowUs t, (ps.checkType nowUs t).2) := by
  simp [getDueSubscribers, dueReports, typesToCheck, checkTypes, checkType_reports,
    Function.comp_def]

theorem dueAt_ne_nil_iff (ps : PublishSubscriber) (nowUs : UInt64) (t : VehicleDataType) :
    ps.dueAt nowUs t ≠ [] ↔ ps.supports t = true ∧ ∃ s ∈ ps.entries t, s.nextDueUs ≤ nowUs := by
  unfold dueAt
  by_cases hsup : ps.supports t = true
  · simp [hsup, List.filter_eq_nil_iff]
  · simp [hsup]

/-- A check that finds nothing due leaves the store alone. -/
theorem checkType_of_not_due {ps : PublishSubscriber} {nowUs : UInt64} {t : VehicleDataType}
    (h : ps.dueAt nowUs t = []) : (ps.checkType nowUs t).2 = ps := by
  apply ext_lookup
  · simp
  · intro t'
    rw [lookup_checkType, checkedList]
    split
    · rename_i ht
      obtain rfl := List.mem_singleton.mp ht.1
      cases hlist : ps.subs.lookup t' with
      | none => rfl
      | some list =>
        have hnone : ∀ s ∈ list, ¬ s.nextDueUs ≤ nowUs := by
          intro s hs hdue
          exact (ps.dueAt_ne_nil_iff nowUs t').mpr ⟨ht.2, s,
            by simpa [entries, hlist] using hs, hdue⟩ h
        have hsame : list.map (Subscription.advance nowUs) = list :=
          (List.map_congr_left fun s hs => if_neg (hnone s hs)).trans (List.map_id' list)
        rw [Option.map_some, hsame]
    · rfl

theorem entries_checkType (ps : PublishSubscriber) (nowUs : UInt64) (t t' : VehicleDataType) :
    (ps.checkType nowUs t).2.entries t' =
      if t' = t ∧ ps.supports t' = true then
        (ps.entries t').map (Subscription.advance nowUs)
      else ps.entries t' := by
  simp only [entries, lookup_checkType, checkedList, List.mem_singleton]
  split
  · cases ps.subs.lookup t' <;> rfl
  · rfl

end PublishSubscriber

/-! ## The sweep -/

/-- `VehicleValue`; a double is given by its representation. -/
inductive VehicleValue
  | int (i : Int32)
  | double (bits : UInt64)
  | string (s : Bytes)
  | bool (b : Bool)
  deriving DecidableEq

/-- What the publisher thread of a component reads: the protocol instance and port it sends
with, the data table, and what the library prints for a double. -/
structure Publisher where
  proto : Instance
  port : UInt16
  data : Finmap (fun _ : VehicleDataType => VehicleValue)
  doubleText : UInt64 → Bytes

/-- A sweep so far: the store, the next message id, the number of clock readings, the
subscriptions found due, the completed calls of `send_local` with their effects, and the
exception that ended the thread. -/
structure Progress where
  pubSub : PublishSubscriber
  nextMsgId : UInt64
  readings : ℕ := 0
  reports : List Report := []
  sends : List (Report × List Effect) := []
  thrown : Option CxxException := none

namespace Publisher

def vehicleDataToString (c : Publisher) : VehicleValue → Bytes
  | .int i => intText i.toInt
  | .double bits => c.doubleText bits
  | .string s => s
  | .bool b => if b then ascii "true" else ascii "false"

/-- The text handed to `send_local`. -/
def publication (c : Publisher) (who : SubscriberId) (value : VehicleValue) : Bytes :=
  ascii "TO=" ++ who ++ ascii " DATA=" ++ c.vehicleDataToString value

/-- The inner loop's body. Nothing is executed after an exception, and a message id is taken
only behind the point where one can be thrown. -/
def sendTo (c : Publisher) (now : ℕ → UInt64) (t : VehicleDataType)
    (value : VehicleValue) (g : Progress) (who : SubscriberId) : Progress :=
  if g.thrown.isSome then g
  else match Car.sendLocal c.proto c.port (c.publication who value) g.nextMsgId
    (now g.readings) with
    | .error e => { g with thrown := some e }
    | .ok effects =>
      { g with
        nextMsgId := g.nextMsgId + 1
        readings := g.readings + 1
        sends := g.sends ++ [((t, who), effects)] }

/-- The outer loop's body. -/
def visit (c : Publisher) (order : IterationOrder) (now : ℕ → UInt64) (g : Progress)
    (t : VehicleDataType) :
    Progress :=
  match g.thrown, c.data.lookup t with
  | none, some value =>
    let (due, ps) := g.pubSub.getDueSubscribers order t false (now g.readings)
    due.foldl (c.sendTo now t value)
      { g with
        pubSub := ps
        readings := g.readings + 1
        reports := g.reports ++ due.map (t, ·) }
  | _, _ => g

/-- The body of `publisher_loop` behind the wait; `now` gives the clock readings in turn. -/
def sweep (c : Publisher) (order : IterationOrder) (now : ℕ → UInt64) (ps : PublishSubscriber)
    (nextMsgId : UInt64) : Progress :=
  (order.toList c.data.keys).foldl (c.visit order now) { pubSub := ps, nextMsgId }

section Steps

variable (c : Publisher) (order : IterationOrder) (now : ℕ → UInt64) (t : VehicleDataType)
  (value : VehicleValue)

/-- Sending touches neither the store nor the reports. -/
theorem foldl_sendTo_frame (due : List SubscriberId) (g : Progress) :
    (due.foldl (c.sendTo now t value) g).pubSub = g.pubSub ∧
      (due.foldl (c.sendTo now t value) g).reports = g.reports := by
  induction due generalizing g with
  | nil => exact ⟨rfl, rfl⟩
  | cons who due ih =>
    have hstep : (c.sendTo now t value g who).pubSub = g.pubSub ∧
        (c.sendTo now t value g who).reports = g.reports := by
      unfold sendTo
      split
      · exact ⟨rfl, rfl⟩
      · split
        · exact ⟨rfl, rfl⟩
        · exact ⟨rfl, rfl⟩
    rw [List.foldl_cons, (ih _).1, (ih _).2]
    exact hstep

variable {t value} {g : Progress}

theorem visit_of_thrown {e : CxxException} (h : g.thrown = some e) (t : VehicleDataType) :
    c.visit order now g t = g := by
  rw [visit, h]

theorem visit_eq (hrun : g.thrown = none) (hdata : c.data.lookup t = some value) :
    c.visit order now g t =
      (g.pubSub.dueAt (now g.readings) t).foldl (c.sendTo now t value)
        { g with
          pubSub := (g.pubSub.checkType (now g.readings) t).2
          readings := g.readings + 1
          reports := g.reports ++ (g.pubSub.dueAt (now g.readings) t).map (t, ·) } := by
  simp only [visit, hrun, hdata, PublishSubscriber.getDueSubscribers_single]

/-- What a visit does to store and reports, whether or not a send throws. -/
theorem visit_cases (g : Progress) (t : VehicleDataType) :
    ((c.visit order now g t).pubSub = g.pubSub ∧ (c.visit order now g t).reports = g.reports) ∨
    ((c.visit order now g t).pubSub = (g.pubSub.checkType (now g.readings) t).2 ∧
      (c.visit order now g t).reports =
        g.reports ++ (g.pubSub.dueAt (now g.readings) t).map (t, ·)) := by
  cases hrun : g.thrown with
  | some e =>
    rw [c.visit_of_thrown order now hrun]
    exact Or.inl ⟨rfl, rfl⟩
  | none =>
    cases hdata : c.data.lookup t with
    | none =>
      rw [visit, hrun, hdata]
      exact Or.inl ⟨rfl, rfl⟩
    | some value =>
      rw [c.visit_eq order now hrun hdata]
      exact Or.inr (c.foldl_sendTo_frame now t value _ _)

/-- A visit that finds nothing due only reads the clock. -/
theorem visit_of_not_due (hrun : g.thrown = none) (hdata : t ∈ c.data)
    (h : g.pubSub.dueAt (now g.readings) t = []) :
    c.visit order now g t = { g with readings := g.readings + 1 } := by
  obtain ⟨value, hvalue⟩ := Option.isSome_iff_exists.mp (Finmap.lookup_isSome.mpr hdata)
  rw [c.visit_eq order now hrun hvalue, h, PublishSubscriber.checkType_of_not_due h]
  simp

/-- Reports are never taken back, and other types keep their lists. -/
theorem foldl_visit_frame (ts : List VehicleDataType) (g : Progress) :
    (∀ r ∈ g.reports, r ∈ (ts.foldl (c.visit order now) g).reports) ∧
      ∀ t, t ∉ ts → (ts.foldl (c.visit order now) g).pubSub.entries t = g.pubSub.entries t := by
  induction ts generalizing g with
  | nil => exact ⟨fun _ hr => hr, fun _ _ => rfl⟩
  | cons t ts ih =>
    obtain ⟨hreports, hentries⟩ := ih (c.visit order now g t)
    refine ⟨fun r hr => hreports r ?_, fun t' ht' => ?_⟩
    · rcases c.visit_cases order now g t with ⟨-, h⟩ | ⟨-, h⟩
      · rwa [h]
      · rw [h]
        exact List.mem_append_left _ hr
    · obtain ⟨hne, hnot⟩ := not_or.mp (mt List.mem_cons.mpr ht')
      rw [List.foldl_cons, hentries t' hnot]
      rcases c.visit_cases order now g t with ⟨h, -⟩ | ⟨h, -⟩
      · rw [h]
      · rw [h, PublishSubscriber.entries_checkType, if_neg fun h => hne h.1]

/-- Either nothing is due when its turn comes and the visits read the clock only, or some
type has its due subscriptions reported and their deadlines moved. -/
theorem foldl_visit_cases {ts : List VehicleDataType} (hts : ts.Nodup)
    (hdata : ∀ t ∈ ts, t ∈ c.data) (hrun : g.thrown = none) :
    ((∀ i t, ts[i]? = some t → g.pubSub.dueAt (now (g.readings + i)) t = []) ∧
      ts.foldl (c.visit order now) g = { g with readings := g.readings + ts.length }) ∨
    ∃ i t, ts[i]? = some t ∧ g.pubSub.dueAt (now (g.readings + i)) t ≠ [] ∧
      (∀ who ∈ g.pubSub.dueAt (now (g.readings + i)) t,
        (t, who) ∈ (ts.foldl (c.visit order now) g).reports) ∧
      (ts.foldl (c.visit order now) g).pubSub.entries t =
        (g.pubSub.entries t).map (Subscription.advance (now (g.readings + i))) := by
  induction ts generalizing g with
  | nil => exact Or.inl ⟨by simp, by simp⟩
  | cons t ts ih =>
    obtain ⟨hnot, hnodup⟩ := List.nodup_cons.mp hts
    obtain ⟨ht, hdata⟩ := List.forall_mem_cons.mp hdata
    by_cases hdue : g.pubSub.dueAt (now g.readings) t = []
    · have hvisit := c.visit_of_not_due order now hrun ht hdue
      rw [List.foldl_cons, hvisit]
      have hindex (i : ℕ) : g.readings + 1 + i = g.readings + (i + 1) := by omega
      rcases ih hnodup hdata (g := { g with readings := g.readings + 1 }) hrun with ⟨hidle, hfold⟩ |
        ⟨i, t', hi, hrest⟩
      · left
        refine ⟨fun i t' hi => ?_, by rw [hfold, List.length_cons, hindex]⟩
        cases i with
        | zero =>
          cases hi
          exact hdue
        | succ i => exact hindex i ▸ hidle i t' hi
      · right
        rw [hindex] at hrest
        exact ⟨i + 1, t', hi, hrest⟩
    · right
      obtain ⟨value, hvalue⟩ := Option.isSome_iff_exists.mp (Finmap.lookup_isSome.mpr ht)
      have hvisit := c.visit_eq order now hrun hvalue
      obtain ⟨hstore, hreports⟩ :=
        c.foldl_sendTo_frame now t value (g.pubSub.dueAt (now g.readings) t)
        { g with
          pubSub := (g.pubSub.checkType (now g.readings) t).2
          readings := g.readings + 1
          reports := g.reports ++ (g.pubSub.dueAt (now g.readings) t).map (t, ·) }
      rw [← hvisit] at hstore hreports
      obtain ⟨hkept, hframe⟩ := c.foldl_visit_frame order now ts (c.visit order now g t)
      refine ⟨0, t, rfl, hdue, fun who hwho => hkept _ ?_, ?_⟩
      · rw [hreports]
        exact List.mem_append_right _ (List.mem_map_of_mem hwho)
      · have hsup := ((g.pubSub.dueAt_ne_nil_iff _ t).mp hdue).1
        rw [List.foldl_cons, hframe t hnot, hstore, PublishSubscriber.entries_checkType,
          if_pos ⟨rfl, hsup⟩]
        rfl

end Steps

/-! ## Progress -/

/-- The sweep reports a subscription of the store and moves its deadline. -/
def Advances (ps : PublishSubscriber) (g : Progress) : Prop :=
  ∃ t who s, (t, who) ∈ g.reports ∧ entry Subscription.who who (ps.entries t) = some s ∧
    entry Subscription.who who (g.pubSub.entries t) =
      some { s with nextDueUs := s.nextDueUs + s.periodUs } ∧
    s.nextDueUs + s.periodUs ≠ s.nextDueUs

/-- A type with data has a subscription that is due when its turn comes in the sweep. -/
def DueInTurn (c : Publisher) (order : IterationOrder) (now : ℕ → UInt64)
    (ps : PublishSubscriber) : Prop :=
  ∃ i t, (order.toList c.data.keys)[i]? = some t ∧ ps.supports t = true ∧ ∃ s ∈ ps.entries t,
    s.nextDueUs ≤ now i

/-- The wait sleeps, or the sweep behind it gets somewhere. -/
def DoesNotSpin (c : Publisher) (order : IterationOrder) (waitUs : UInt64) (now : ℕ → UInt64)
    (ps : PublishSubscriber) (nextMsgId : UInt64) : Prop :=
  sleeps (ps.waitUntilNextDue order waitUs) = false → Advances ps (c.sweep order now ps nextMsgId)

section Spin

variable (c : Publisher) (order : IterationOrder) (now : ℕ → UInt64) (calls : List Call)
  (nextMsgId : UInt64)

theorem advances_of_moved {t : VehicleDataType} {nowUs : UInt64} {g : Progress}
    (hdue : (PublishSubscriber.empty.run calls).dueAt nowUs t ≠ [])
    (hreports : ∀ who ∈ (PublishSubscriber.empty.run calls).dueAt nowUs t, (t, who) ∈ g.reports)
    (hentries : g.pubSub.entries t =
      ((PublishSubscriber.empty.run calls).entries t).map (Subscription.advance nowUs)) :
    Advances (PublishSubscriber.empty.run calls) g := by
  have hrecorded := PublishSubscriber.recorded_run calls t
  obtain ⟨hsup, s, hs, hdeadline⟩ := (PublishSubscriber.dueAt_ne_nil_iff _ _ t).mp hdue
  have hentry := (entry_eq_some_iff hrecorded.nodup).mpr ⟨hs, rfl⟩
  have hperiod : s.periodUs ≠ 0 :=
    PublishSubscriber.period_ne_zero_of_success (mem_of_lastWrite (hrecorded.values s hs))
  refine ⟨t, s.who, s, hreports s.who ?_, hentry, ?_, ?_⟩
  · simp only [PublishSubscriber.dueAt, hsup, if_true, List.mem_map, List.mem_filter]
    exact ⟨s, ⟨hs, by simpa using hdeadline⟩, rfl⟩
  · rw [hentries, entry_map (fun a => a.advance_who nowUs), hentry, Option.map_some,
      Subscription.advance, if_pos hdeadline]
  · intro h
    exact hperiod (by simpa using h)

theorem sweep_advances_iff :
    Advances (PublishSubscriber.empty.run calls)
      (c.sweep order now (PublishSubscriber.empty.run calls) nextMsgId) ↔
      c.DueInTurn order now (PublishSubscriber.empty.run calls) := by
  have hdata : ∀ t ∈ order.toList c.data.keys, t ∈ c.data := by
    intro t ht
    rwa [order.mem, Finmap.mem_keys] at ht
  have hcases := c.foldl_visit_cases order now (order.nodup c.data.keys) hdata
    (g := { pubSub := PublishSubscriber.empty.run calls, nextMsgId }) rfl
  simp only [Nat.zero_add] at hcases
  rw [sweep]
  rcases hcases with ⟨hidle, hfold⟩ | ⟨i, t, hi, hdue, hreports, hentries⟩
  · constructor
    · rintro ⟨t, who, s, hreport, -⟩
      rw [hfold] at hreport
      cases hreport
    · rintro ⟨i, t, hi, hdue⟩
      exact absurd (hidle i t hi) ((PublishSubscriber.dueAt_ne_nil_iff _ _ t).mpr hdue)
  · constructor
    · intro _
      exact ⟨i, t, hi, (PublishSubscriber.dueAt_ne_nil_iff _ _ t).mp hdue⟩
    · intro _
      exact advances_of_moved calls hdue hreports hentries

/-- After any history of the store, the loop does not spin exactly when the wait sleeps or a
type with data has a subscription due in its turn. It is enough that every subscribed type
is supported and has data, and that the earliest deadline is less than half the range of
the clock ahead. -/
theorem doesNotSpin_iff (waitUs : UInt64) :
    (c.DoesNotSpin order waitUs now (PublishSubscriber.empty.run calls) nextMsgId ↔
      sleeps ((PublishSubscriber.empty.run calls).waitUntilNextDue order waitUs) = true ∨
        c.DueInTurn order now (PublishSubscriber.empty.run calls)) ∧
    ((∀ t, (PublishSubscriber.empty.run calls).entries t ≠ [] →
        (PublishSubscriber.empty.run calls).supports t = true ∧ t ∈ c.data) →
      ((PublishSubscriber.empty.run calls).nextDue order = UINT64_MAX ∨
        ((PublishSubscriber.empty.run calls).nextDue order).toNat < waitUs.toNat + 2 ^ 63) →
      (∀ i, waitUs ≤ now i) →
      c.DoesNotSpin order waitUs now (PublishSubscriber.empty.run calls) nextMsgId) := by
  constructor
  · rw [DoesNotSpin, sweep_advances_iff]
    cases sleeps ((PublishSubscriber.empty.run calls).waitUntilNextDue order waitUs) <;> simp
  · intro hcovered hnear hnow hawake
    rw [sweep_advances_iff]
    obtain ⟨⟨t, s, hs, hnext⟩, hpast⟩ := PublishSubscriber.nextDue_of_not_sleeps hawake
    obtain ⟨hsup, hdata⟩ := hcovered t (List.ne_nil_of_mem hs)
    obtain ⟨i, hi⟩ := List.mem_iff_getElem?.mp
      ((order.mem c.data.keys t).mpr (Finmap.mem_keys.mpr hdata))
    refine ⟨i, t, hi, hsup, s, hs, ?_⟩
    have hdue : (PublishSubscriber.empty.run calls).nextDue order ≤ waitUs := by
      rcases hpast with h | h
      · exact h
      · rcases hnear with hmax | hnear
        · rw [PublishSubscriber.waitUntilNextDue, if_pos hmax] at hawake
          cases hawake
        · omega
    rw [← hnext]
    exact UInt64.le_trans hdue (hnow i)

end Spin

/-- A component with the given data table. -/
def samplePublisher (data : Finmap (fun _ : VehicleDataType => VehicleValue)) : Publisher where
  proto := Car.initializeCommunicator .zero Car.POWERTRAIN_PORT
  port := Car.POWERTRAIN_PORT
  data := data
  doubleText := fun _ => []

/-- One subscription to the engine speed, made at time 0. -/
def sampleHistory (periodUs : UInt64) : List Call :=
  [.addCapability .ENGINE_RPM, .subscribe .ENGINE_RPM (ascii "7") periodUs 0]

theorem nextDue_of_keys {ps : PublishSubscriber} {t : VehicleDataType} (hkeys : ps.subs.keys = {t})
    (order : IterationOrder) :
    ps.nextDue order = (ps.entries t).foldl Subscription.earlier UINT64_MAX := by
  rw [PublishSubscriber.nextDue, hkeys, order.toList_singleton]
  rfl

theorem dueInTurn_samplePublisher {t : VehicleDataType} {value : VehicleValue}
    {order : IterationOrder} {now : ℕ → UInt64} {ps : PublishSubscriber}
    (h : (samplePublisher (.singleton t value)).DueInTurn order now ps) :
    ps.supports t = true ∧ ∃ s ∈ ps.entries t, s.nextDueUs ≤ now 0 := by
  obtain ⟨i, t', hi, hdue⟩ := h
  have hkeys : (samplePublisher (.singleton t value)).data.keys = {t} := rfl
  rw [hkeys, order.toList_singleton] at hi
  cases i with
  | zero =>
    cases hi
    exact hdue
  | succ i => cases hi

/-- With data for the only subscribed type, the sweep at time 10 reports the deadline of time 5. -/
theorem subscribed_data_advances :
    Advances (PublishSubscriber.empty.run (sampleHistory 5))
      ((samplePublisher (.singleton .ENGINE_RPM (.int 900))).sweep
        PublishSubscriber.anyOrder (fun _ => 10)
        (PublishSubscriber.empty.run (sampleHistory 5)) 0) := by
  have hkeys : (PublishSubscriber.empty.run (sampleHistory 5)).subs.keys = {.ENGINE_RPM} := by
    decide
  have hnext := nextDue_of_keys hkeys PublishSubscriber.anyOrder
  have hcovered : ∀ t, (PublishSubscriber.empty.run (sampleHistory 5)).entries t ≠ [] →
      (PublishSubscriber.empty.run (sampleHistory 5)).supports t = true ∧
        t ∈ (samplePublisher (.singleton .ENGINE_RPM (.int 900))).data := by
    intro t ht
    by_cases h : t ∈ (PublishSubscriber.empty.run (sampleHistory 5)).subs
    · rw [← Finmap.mem_keys, hkeys, Finset.mem_singleton] at h
      subst h
      decide
    · rw [PublishSubscriber.entries, Finmap.lookup_eq_none.mpr h] at ht
      exact absurd rfl ht
  refine (doesNotSpin_iff (samplePublisher (.singleton .ENGINE_RPM (.int 900)))
    PublishSubscriber.anyOrder
    (fun _ => 10) (sampleHistory 5) 0 10).2 hcovered (Or.inr ?_) (fun _ => ?_) ?_
  · rw [hnext]
    decide
  · decide
  · rw [PublishSubscriber.waitUntilNextDue, hnext]
    decide

/-- The loop spins on a subscription that is due, to a type without data or to one that is no
longer supported, and on one whose deadline is half the range of the clock ahead. -/
theorem publisher_loop_spins :
    ¬ (samplePublisher ∅).DoesNotSpin PublishSubscriber.anyOrder 10 (fun _ => 10)
      (PublishSubscriber.empty.run (sampleHistory 5)) 0 ∧
    ¬ (samplePublisher (.singleton .ENGINE_RPM (.int 900))).DoesNotSpin
      PublishSubscriber.anyOrder 10 (fun _ => 10)
      (PublishSubscriber.empty.run (sampleHistory 5 ++ [.removeCapability .ENGINE_RPM])) 0 ∧
    ¬ (samplePublisher (.singleton .ENGINE_RPM (.int 900))).DoesNotSpin
      PublishSubscriber.anyOrder 0 (fun _ => 0)
      (PublishSubscriber.empty.run (sampleHistory 0x8000000000000000)) 0 := by
  refine ⟨fun h => ?_, fun h => ?_, fun h => ?_⟩
  · have hkeys : (PublishSubscriber.empty.run (sampleHistory 5)).subs.keys = {.ENGINE_RPM} := by
      decide
    have hadvances := h (by rw [PublishSubscriber.waitUntilNextDue, nextDue_of_keys hkeys]; decide)
    obtain ⟨i, t, hi, -⟩ := (sweep_advances_iff _ _ _ _ _).mp hadvances
    have hnone : (samplePublisher ∅).data.keys = ∅ := rfl
    rw [hnone, IterationOrder.toList_empty] at hi
    cases hi
  · have hkeys : (PublishSubscriber.empty.run
        (sampleHistory 5 ++ [.removeCapability .ENGINE_RPM])).subs.keys = {.ENGINE_RPM} := by decide
    have hadvances := h (by rw [PublishSubscriber.waitUntilNextDue, nextDue_of_keys hkeys]; decide)
    have hdue := dueInTurn_samplePublisher ((sweep_advances_iff _ _ _ _ _).mp hadvances)
    exact absurd hdue.1 (by decide)
  · have hkeys : (PublishSubscriber.empty.run (sampleHistory 0x8000000000000000)).subs.keys =
        {.ENGINE_RPM} := by decide
    have hadvances := h (by rw [PublishSubscriber.waitUntilNextDue, nextDue_of_keys hkeys]; decide)
    have hdue := dueInTurn_samplePublisher ((sweep_advances_iff _ _ _ _ _).mp hadvances)
    exact absurd hdue.2 (by decide)

end Publisher

end CarNetwork.PubSub
