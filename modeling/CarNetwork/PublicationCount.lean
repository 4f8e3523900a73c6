import CarNetwork.PacedCounter
import CarNetwork.PublicationRate

/-!
# How many reports a subscription gets

A check reports a subscription once at most, however many of its deadlines have passed. So
the number of reports follows the number of periods that are over by single steps: it keeps
up when the type is checked at least once a period, and after a longer pause every check
makes up for one missed deadline.
-/
namespace CarNetwork.PubSub

open CarNetwork.ByteText CarNetwork.KeyedList CarNetwork.PacedCounter

namespace PublishSubscriber

/-- The times at which a series of calls checks the subscriptions to a type. -/
def checks (t : VehicleDataType) : PublishSubscriber → List Call → List UInt64
  | _, [] => []
  | ps, c :: calls => (ps.checkTime t c).toList ++ checks t (ps.call c) calls

/-- The number of whole periods from `t0` to a time. -/
def periods (p t0 τ : UInt64) : ℕ := (τ.toNat - t0.toNat) / p.toNat

variable {t : VehicleDataType} {who : SubscriberId} {p t0 now : UInt64}

/-- The deadline of the next report is not after a time if more periods are over. -/
theorem deadline_le_iff (hp : p ≠ 0) {n : ℕ} {τ : UInt64} (hτ : t0 ≤ τ) :
    t0.toNat + (n + 1) * p.toNat ≤ τ.toNat ↔ n < periods p t0 τ := by
  have hpos : 0 < p.toNat := Nat.pos_of_ne_zero fun h => hp (UInt64.toNat_inj.mp h)
  have hτ := UInt64.le_iff_toNat_le.mp hτ
  rw [periods, Nat.lt_iff_add_one_le, Nat.le_div_iff_mul_le hpos]
  omega

/-- One call: the count goes up by one at a check by which one more period is over. -/
theorem count_call {ps : PublishSubscriber} {n : ℕ} (h : OnSchedule t who p t0 now ps n)
    {hist : List (SubscriberId × UInt64)} (hr : ps.Recorded t hist) (hp : p ≠ 0)
    (hfits : now.toNat + p.toNat < 2 ^ 64) (c : Call) (hafter : ∀ τ ∈ ps.checkTime t c, t0 ≤ τ) :
    n + (ps.reports c).count (t, who) = follow n
      ((ps.checkTime t c).toList.map (periods p t0)) := by
  obtain ⟨s, hs, hperiod, hdue⟩ := h.deadline
  have hexact := h.exact hfits
  have hdue : s.nextDueUs.toNat = t0.toNat + (n + 1) * p.toNat := by
    rw [hdue]
    exact Nat.mod_eq_of_lt (by rw [Nat.add_mul, Nat.one_mul]; omega)
  rw [count_reports ps t who hr.nodup]
  cases hcheck : ps.checkTime t c with
  | none => rfl
  | some τ =>
    have hiff : s.nextDueUs ≤ τ ↔ n < periods p t0 τ := by
      rw [UInt64.le_iff_toNat_le, hdue]
      exact deadline_le_iff hp (hafter τ hcheck)
    simp only [hs, Option.any_some, decide_eq_true_eq, Option.toList_some, List.map_cons,
      List.map_nil, follow_cons, follow_nil, hiff]
    split <;> rfl

/-- A series of calls. -/
theorem count_run {ps : PublishSubscriber} {n : ℕ} (h : OnSchedule t who p t0 now ps n)
    {hist : List (SubscriberId × UInt64)} (hr : ps.Recorded t hist) (hp : p ≠ 0)
    (hfits : now.toNat + p.toNat < 2 ^ 64) (calls : List Call)
    (hkept : ∀ p', (who, p') ∉ successes t ps calls)
    (htime : ∀ c ∈ calls, ∀ τ, c.queryTime = some τ → τ ≤ now)
    (hafter : ∀ τ ∈ checks t ps calls, t0 ≤ τ) :
    n + (reported ps calls).count (t, who) = follow n ((checks t ps calls).map (periods p t0)) := by
  induction calls generalizing ps n hist with
  | nil => rfl
  | cons c calls ih =>
    have hcall := count_call h hr hp hfits c fun τ hτ =>
      hafter τ (List.mem_append_left _ (Option.mem_toList.mpr hτ))
    have hnext := h.call hr (fun p' hp' => hkept p' (List.mem_append_left _ hp'))
      (htime c List.mem_cons_self)
    have hrest := ih hnext (hr.call c) (fun p' hp' => hkept p' (List.mem_append_right _ hp'))
      (fun c hc => htime c (List.mem_cons_of_mem _ hc)) (fun τ hτ =>
        hafter τ (List.mem_append_right _ hτ))
    rw [checks, List.map_append, follow_append, ← hcall, ← hrest, reported, List.count_append,
      add_assoc]

theorem periods_self (p t0 : UInt64) : periods p t0 t0 = 0 := by simp [periods]

theorem periods_mono {τ τ' : UInt64} (h : τ ≤ τ') : periods p t0 τ ≤ periods p t0 τ' := by
  have h := UInt64.le_iff_toNat_le.mp h
  exact Nat.div_le_div_right (by omega)

/-- At most one more period is over after at most one period. -/
theorem periods_le_succ (hp : p ≠ 0) {τ τ' : UInt64} (h : τ'.toNat ≤ τ.toNat + p.toNat) :
    periods p t0 τ' ≤ periods p t0 τ + 1 := by
  have hpos : 0 < p.toNat := Nat.pos_of_ne_zero fun h => hp (UInt64.toNat_inj.mp h)
  rw [periods, periods, ← Nat.add_div_right _ hpos]
  exact Nat.div_le_div_right (by omega)

/-- How many reports a subscription has had that is not renewed: at most one for each check, and
at most the periods that were over at some check, and one more for each check after that. If
the type has been checked at least once a period, that is the number of periods over at the
last check: no report has been left out. -/
theorem publication_count (before after : List Call) (t : VehicleDataType) (who : SubscriberId)
    (p t0 now : UInt64) (haccepted : ((empty.run before).subscribe t who p t0).2 = true)
    (hkept : ∀ p', (who, p') ∉ successes t ((empty.run before).subscribe t who p t0).1 after)
    (htime : ∀ c ∈ after, ∀ τ, c.queryTime = some τ → τ ≤ now) (h0 : t0 ≤ now)
    (hfits : now.toNat + p.toNat < 2 ^ 64)
    (hsorted : (t0 :: checks t ((empty.run before).subscribe t who p t0).1 after).Pairwise (· ≤
      ·)) :
    let τs := checks t ((empty.run before).subscribe t who p t0).1 after
    let n := (reported ((empty.run before).subscribe t who p t0).1 after).count (t, who)
    (∀ m, m ≤ n ↔ m ≤ τs.length ∧ ∀ i τ, τs[i]? = some τ →
      m ≤ periods p t0 τ + (τs.length - 1 - i)) ∧
      (((t0 :: τs).IsChain fun τ τ' => τ'.toNat ≤ τ.toNat + p.toNat) →
        n = periods p t0 (τs.getLastD t0)) := by
  intro τs n
  have hp := ((subscribe_true_iff _ _ _ _ _).mp haccepted).2
  have hr := (recorded_run before t).call (.subscribe t who p t0)
  have hafter := (List.pairwise_cons.mp hsorted).1
  have hcount : n = follow 0 (τs.map (periods p t0)) := by
    have h := count_run (onSchedule_subscribe haccepted h0) hr hp hfits after hkept htime hafter
    rwa [zero_add] at h
  have hall : (0 :: τs.map (periods p t0)).Pairwise (· ≤ ·) := by
    rw [← periods_self p t0, ← List.map_cons, List.pairwise_map]
    exact hsorted.imp fun h => periods_mono h
  refine ⟨fun m => ?_, fun hoften => ?_⟩
  · rw [hcount, le_follow_iff (List.pairwise_cons.mp hall).2 (fun _ _ => Nat.zero_le _),
      List.length_map, zero_add]
    refine and_congr_right fun _ => ⟨fun h i τ hi => h i _ (by simp [hi]), fun h i level hi => ?_⟩
    rw [List.getElem?_map] at hi
    obtain ⟨τ, hτ, rfl⟩ := Option.map_eq_some_iff.mp hi
    exact h i τ hτ
  · have hsteps : (0 :: τs.map (periods p t0)).IsChain fun a b => b ≤ a + 1 := by
      rw [← periods_self p t0, ← List.map_cons, List.isChain_map]
      exact hoften.imp fun τ τ' h => periods_le_succ hp h
    rw [hcount, follow_eq_getLastD hall hsteps, ← periods_self p t0, List.getLastD_map]

/-- Period 5 from time 100, checked every five microseconds: two reports up to time 114. -/
theorem checked_each_period :
    checks .ENGINE_RPM (oneSubscription 5 100) (queriesAt [104, 109, 114]) = [104, 109, 114] ∧
      (reported (oneSubscription 5 100) (queriesAt [104, 109, 114])).count
        (.ENGINE_RPM, ascii "7") = 2 := by
  have hchecks : checks .ENGINE_RPM (oneSubscription 5 100) (queriesAt [104, 109, 114]) =
      [104, 109, 114] := by
    decide +kernel
  have hsorted : ((100 : UInt64) :: checks .ENGINE_RPM (oneSubscription 5 100)
      (queriesAt [104, 109, 114])).Pairwise
      (· ≤ ·) := by
    rw [hchecks]
    decide
  have hcount := (publication_count [.addCapability .ENGINE_RPM] (queriesAt [104, 109, 114])
    .ENGINE_RPM (ascii "7") 5 100
    114 (by decide +kernel) (fun p' => by simp [queriesAt, successes, acceptedFor])
      (by simp [queriesAt, Call.queryTime])
    (by decide) (by decide) hsorted).2
  refine ⟨hchecks, ?_⟩
  change (reported ((empty.run [.addCapability .ENGINE_RPM]).subscribe .ENGINE_RPM (ascii "7") 5
    100).1 _).count _ = 2
  have hchain : ((100 : UInt64) :: checks .ENGINE_RPM (oneSubscription 5 100)
      (queriesAt [104, 109, 114])).IsChain fun τ τ' => τ'.toNat ≤ τ.toNat + (5 : UInt64).toNat := by
    rw [hchecks]
    decide
  rw [hcount hchain]
  change periods 5 100 ((checks _ (oneSubscription 5 100) _).getLastD 100) = 2
  rw [hchecks]
  rfl

end PublishSubscriber

end CarNetwork.PubSub
