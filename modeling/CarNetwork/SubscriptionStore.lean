import CarNetwork.PublishSubscriber

/-!
# The store over whole histories

Sequences of calls to a store, at any times. What each list holds is determined by the
successful subscriptions of its type: the subscribers in the order of their first
subscription, each with the period of the last one.
-/
namespace CarNetwork.PubSub

open CarNetwork.ByteText CarNetwork.KeyedList

/-- A call to a store with the clock reading it makes. -/
inductive Call
  | addCapability (type : VehicleDataType)
  | removeCapability (type : VehicleDataType)
  | subscribe (type : VehicleDataType) (who : SubscriberId) (periodUs nowUs : UInt64)
  | getDueSubscribers (order : IterationOrder) (type : VehicleDataType) (allTypes : Bool)
      (nowUs : UInt64)

namespace PublishSubscriber

/-- The store after a call. -/
def call (ps : PublishSubscriber) : Call → PublishSubscriber
  | .addCapability type => ps.addCapability type
  | .removeCapability type => ps.removeCapability type
  | .subscribe type who periodUs nowUs => (ps.subscribe type who periodUs nowUs).1
  | .getDueSubscribers order type allTypes nowUs =>
    (ps.getDueSubscribers order type allTypes nowUs).2

/-- The subscriptions that a call reports. -/
def reports (ps : PublishSubscriber) : Call → List Report
  | .getDueSubscribers order type allTypes nowUs => (ps.dueReports order type allTypes nowUs).1
  | _ => []

/-- The subscriber and the period if the call is a subscription to the type, which is supported,
and the period is not zero. -/
def acceptedFor (ps : PublishSubscriber) (t : VehicleDataType) : Call → List (SubscriberId × UInt64)
  | .subscribe type who periodUs _ =>
    if type = t ∧ ps.supports type = true ∧ periodUs ≠ 0 then [(who, periodUs)] else []
  | _ => []

def run (ps : PublishSubscriber) (calls : List Call) : PublishSubscriber := calls.foldl call ps

/-- The successful subscriptions to a type in the course of a run. -/
def successes (t : VehicleDataType) : PublishSubscriber → List Call → List (SubscriberId × UInt64)
  | _, [] => []
  | ps, c :: calls => ps.acceptedFor t c ++ successes t (ps.call c) calls

/-- The reports in the course of a run. -/
def reported : PublishSubscriber → List Call → List Report
  | _, [] => []
  | ps, c :: calls => ps.reports c ++ reported (ps.call c) calls

/-! ## One call -/

theorem subscribe_true_iff (ps : PublishSubscriber) (type : VehicleDataType) (who : SubscriberId)
    (periodUs nowUs : UInt64) :
    (ps.subscribe type who periodUs nowUs).2 = true ↔ ps.supports type = true ∧ periodUs ≠ 0 := by
  unfold subscribe
  split
  · rename_i h
    rcases h with h | h
    · simp [h]
    · simp [h]
  · rename_i h
    simpa [not_or] using h

/-- A subscription writes to the list of its type if it is accepted, and nothing else. -/
theorem entries_subscribe (ps : PublishSubscriber) (type t : VehicleDataType) (who : SubscriberId)
    (periodUs nowUs : UInt64) :
    (ps.subscribe type who periodUs nowUs).1.entries t =
      if type = t ∧ ps.supports type = true ∧ periodUs ≠ 0 then
        Subscription.enlist who periodUs (nowUs + periodUs) (ps.entries t)
      else ps.entries t := by
  unfold subscribe
  split
  · rename_i h
    rw [if_neg (by rintro ⟨-, hsup, hperiod⟩; exact h.elim (by simp [hsup]) hperiod)]
  · rename_i h
    have haccepted : ps.supports type = true ∧ periodUs ≠ 0 := by simpa [not_or] using h
    by_cases ht : type = t
    · subst ht
      simp [entries, haccepted]
    · simp [entries, ht, Finmap.lookup_insert_of_ne _ (Ne.symm ht)]

/-- When a call checks a type: a query that visits it, and only while it is supported. -/
def checkTime (ps : PublishSubscriber) (t : VehicleDataType) : Call → Option UInt64
  | .getDueSubscribers order type allTypes nowUs =>
    if t ∈ ps.typesToCheck order type allTypes ∧ ps.supports t = true then some nowUs else none
  | _ => none

theorem entries_getDueSubscribers (ps : PublishSubscriber) (order : IterationOrder)
    (type t : VehicleDataType) (allTypes : Bool) (nowUs : UInt64) :
    (ps.getDueSubscribers order type allTypes nowUs).2.entries t =
      match ps.checkTime t (.getDueSubscribers order type allTypes nowUs) with
      | some now => (ps.entries t).map (Subscription.advance now)
      | none => ps.entries t := by
  have hlookup := lookup_checkTypes nowUs (ps.nodup_typesToCheck order type allTypes) ps t
  simp only [entries, getDueSubscribers, dueReports, checkTime, hlookup, checkedList]
  by_cases h : t ∈ ps.typesToCheck order type allTypes ∧ ps.supports t = true
  · simp only [if_pos h]
    cases ps.subs.lookup t <;> rfl
  · simp only [if_neg h]

/-- What one call can do to the list of a type. -/
theorem entries_call (ps : PublishSubscriber) (t : VehicleDataType) (c : Call) :
    (∃ who periodUs nowUs, ps.acceptedFor t c = [(who, periodUs)] ∧ periodUs ≠ 0 ∧
      ps.checkTime t c = none ∧
      (ps.call c).entries t = Subscription.enlist who periodUs (nowUs + periodUs) (ps.entries t)) ∨
    (ps.acceptedFor t c = [] ∧ (ps.call c).entries t =
      match ps.checkTime t c with
      | some now => (ps.entries t).map (Subscription.advance now)
      | none => ps.entries t) := by
  cases c with
  | addCapability type => exact Or.inr ⟨rfl, rfl⟩
  | removeCapability type => exact Or.inr ⟨rfl, rfl⟩
  | subscribe type who periodUs nowUs =>
    have hentries := ps.entries_subscribe type t who periodUs nowUs
    by_cases h : type = t ∧ ps.supports type = true ∧ periodUs ≠ 0
    · rw [if_pos h] at hentries
      exact Or.inl ⟨who, periodUs, nowUs, if_pos h, h.2.2, rfl, hentries⟩
    · rw [if_neg h] at hentries
      exact Or.inr ⟨if_neg h, hentries⟩
  | getDueSubscribers order type allTypes nowUs =>
    exact Or.inr ⟨rfl, ps.entries_getDueSubscribers order type t allTypes nowUs⟩

/-! ## Runs -/

/-- The list of a type records the successful subscriptions of a history. -/
abbrev Recorded (ps : PublishSubscriber) (t : VehicleDataType) (h : List (SubscriberId × UInt64)) :
    Prop :=
  Records Subscription.who Subscription.periodUs (ps.entries t) h

theorem Recorded.call {ps : PublishSubscriber} {t : VehicleDataType}
    {h : List (SubscriberId × UInt64)} (hr : ps.Recorded t h) (c : Call) :
    (ps.call c).Recorded t (h ++ ps.acceptedFor t c) := by
  rcases ps.entries_call t c with ⟨who, periodUs, nowUs, haccepted, -, -, hentries⟩ |
    ⟨haccepted, hentries⟩
  · rw [Recorded, haccepted, hentries]
    exact hr.upsert (fun _ => ⟨rfl, rfl⟩) ⟨rfl, rfl⟩
  · rw [Recorded, haccepted, hentries, List.append_nil]
    split
    · exact hr.map fun s => ⟨s.advance_who _, s.advance_periodUs _⟩
    · exact hr

theorem Recorded.run {ps : PublishSubscriber} {t : VehicleDataType}
    {h : List (SubscriberId × UInt64)} (hr : ps.Recorded t h) (calls : List Call) :
    (ps.run calls).Recorded t (h ++ successes t ps calls) := by
  induction calls generalizing ps h with
  | nil => simpa [PublishSubscriber.run, successes] using hr
  | cons c calls ih =>
    have hrest := ih (hr.call c)
    rwa [List.append_assoc] at hrest

/-- The empty store. -/
def empty : PublishSubscriber := {}

theorem recorded_empty (t : VehicleDataType) : empty.Recorded t [] := Records.nil

theorem recorded_run (calls : List Call) (t : VehicleDataType) :
    (empty.run calls).Recorded t (successes t empty calls) :=
  (recorded_empty t).run calls

theorem period_ne_zero_of_success {t : VehicleDataType} {ps : PublishSubscriber} {calls : List Call}
    {e : SubscriberId × UInt64} (h : e ∈ successes t ps calls) : e.2 ≠ 0 := by
  induction calls generalizing ps with
  | nil => cases h
  | cons c calls ih =>
    rcases List.mem_append.mp h with h | h
    · rcases ps.entries_call t c with ⟨who, periodUs, nowUs, haccepted, hne, -, -⟩ | ⟨haccepted, -⟩
      · rw [haccepted] at h
        exact List.mem_singleton.mp h ▸ hne
      · rw [haccepted] at h
        cases h
    · exact ih h

/-- After any calls, the list of a type has one entry for each subscriber that subscribed to
it with success, in the order of the first successes, with the period of the last one,
which is not zero. -/
theorem store_keeps_subscriptions (calls : List Call) (t : VehicleDataType) :
    (((empty.run calls).entries t).map Subscription.who).Nodup ∧
    ((empty.run calls).entries t).map Subscription.who =
      ((successes t empty calls).map Prod.fst).eraseDups ∧
    ∀ e ∈ (empty.run calls).entries t,
      e.periodUs ≠ 0 ∧ lastWrite e.who (successes t empty calls) = some e.periodUs := by
  have hr := recorded_run calls t
  refine ⟨hr.nodup, hr.keys, fun e he => ?_⟩
  have hlast := hr.values e he
  exact ⟨period_ne_zero_of_success (mem_of_lastWrite hlast), hlast⟩

end PublishSubscriber

end CarNetwork.PubSub
