import CarNetwork.SubscriptionStore

/-!
# How often a subscription is reported

A subscription made at time `t0` with period `p` has, after `n` reports, the deadline
`t0 + (n + 1) * p`, reduced to an unsigned word. As long as the deadlines do not wrap around
a report cannot come before its deadline; a deadline that has wrapped around lies in the
past.
-/
namespace CarNetwork.PubSub

open CarNetwork.ByteText CarNetwork.KeyedList

/-- The time at which a call asks for due subscriptions. -/
def Call.queryTime : Call → Option UInt64
  | .getDueSubscribers _ _ _ nowUs => some nowUs
  | _ => none

namespace PublishSubscriber

theorem queryTime_of_checkTime {ps : PublishSubscriber} {t : VehicleDataType}
    {c : Call} {now : UInt64} (h : ps.checkTime t c = some now) : c.queryTime = some now := by
  cases c with
  | getDueSubscribers order type allTypes nowUs =>
    simp only [checkTime, Option.ite_none_right_eq_some] at h
    exact h.2
  | _ => cases h

theorem count_checked {ts : List VehicleDataType} (hts : ts.Nodup)
    (f : VehicleDataType → List SubscriberId) (t : VehicleDataType) (who : SubscriberId) :
    (ts.flatMap fun t' => (f t').map (t', ·)).count
      (t, who) = if t ∈ ts then (f t).count who else 0 := by
  induction ts with
  | nil => simp
  | cons t' ts ih =>
    obtain ⟨hnot, hnodup⟩ := List.nodup_cons.mp hts
    rw [List.flatMap_cons, List.count_append, ih hnodup]
    by_cases ht : t = t'
    · subst ht
      have hinj : Function.Injective fun w : SubscriberId => (t, w) :=
        fun a b h => (Prod.mk.inj h).2
      rw [List.count_map_of_injective _ _ hinj]
      simp [hnot]
    · have hzero : ((f t').map (t', ·)).count (t, who) = 0 := by
        rw [List.count_eq_zero, List.mem_map]
        rintro ⟨w, -, hw⟩
        exact ht (Prod.mk.inj hw).1.symm
      simp [hzero, ht]

/-- How often a call reports a subscription: once, if it checks the type at or after the
deadline. -/
theorem count_reports (ps : PublishSubscriber) (t : VehicleDataType) (who : SubscriberId)
    (hnodup : ((ps.entries t).map Subscription.who).Nodup) (c : Call) :
    (ps.reports c).count (t, who) =
      match ps.checkTime t c with
      | some now =>
        if (entry Subscription.who who (ps.entries t)).any fun s => s.nextDueUs ≤ now then 1 else 0
      | none => 0 := by
  cases c with
  | getDueSubscribers order type allTypes nowUs =>
    have hts := ps.nodup_typesToCheck order type allTypes
    simp only [reports, dueReports, checkTypes_reports nowUs hts, count_checked hts, checkTime,
      dueAt]
    by_cases hmem : t ∈ ps.typesToCheck order type allTypes
    · by_cases hsup : ps.supports t = true
      · simp only [hmem, hsup, if_true, and_self]
        exact count_map_filter hnodup _ who
      · simp [hmem, hsup]
    · simp [hmem]
  | _ => rfl

/-! ## The schedule of one subscription -/

section Schedule

variable (t : VehicleDataType) (who : SubscriberId) (p t0 now : UInt64)

/-- The subscription after `n` reports, none of them later than `now`. -/
structure OnSchedule (ps : PublishSubscriber) (n : ℕ) : Prop where
  deadline : ∃ s, entry Subscription.who who (ps.entries t) = some s ∧ s.periodUs = p ∧
    s.nextDueUs.toNat = (t0.toNat + (n + 1) * p.toNat) % 2 ^ 64
  notEarly : n = 0 ∨ (t0.toNat + n * p.toNat) % 2 ^ 64 ≤ now.toNat
  exact : now.toNat + p.toNat < 2 ^ 64 → t0.toNat + n * p.toNat ≤ now.toNat

variable {t who p t0 now}

theorem onSchedule_subscribe {ps : PublishSubscriber}
    (haccepted : (ps.subscribe t who p t0).2 = true) (h0 : t0 ≤ now) :
    OnSchedule t who p t0 now (ps.subscribe t who p t0).1 0 := by
  constructor
  · refine ⟨⟨who, p, t0 + p⟩, ?_, rfl, by simp⟩
    rw [entries_subscribe, if_pos ⟨rfl, (ps.subscribe_true_iff _ _ _ _).mp haccepted⟩,
      Subscription.entry_enlist_self]
  · exact Or.inl rfl
  · intro _
    simpa [UInt64.le_iff_toNat_le] using h0

/-- A call that does not renew the subscription keeps it on schedule. -/
theorem OnSchedule.call {ps : PublishSubscriber} {n : ℕ} (h : OnSchedule t who p t0 now ps n)
    {hist : List (SubscriberId × UInt64)} (hr : ps.Recorded t hist) {c : Call}
    (hkept : ∀ p', (who, p') ∉ ps.acceptedFor t c) (htime : ∀ τ, c.queryTime = some τ → τ ≤ now) :
    OnSchedule t who p t0 now (ps.call c) (n + (ps.reports c).count (t, who)) := by
  obtain ⟨⟨s, hs, hperiod, hdue⟩, hearly, hexact⟩ := h
  rw [count_reports ps t who hr.nodup]
  rcases ps.entries_call t c with ⟨who', p', nowUs, haccepted, -, hcheck, hentries⟩ | ⟨-, hentries⟩
  · -- another subscriber of the type
    have hne : who ≠ who' := by
      rintro rfl
      exact hkept p' (by simp [haccepted])
    rw [hcheck]
    refine ⟨⟨s, ?_, hperiod, hdue⟩, hearly, hexact⟩
    rw [hentries, Subscription.entry_enlist_of_ne hne, hs]
  · cases hcheck : ps.checkTime t c with
    | none =>
      rw [hcheck] at hentries
      exact ⟨⟨s, by rw [hentries, hs], hperiod, hdue⟩, hearly, hexact⟩
    | some τ =>
      rw [hcheck] at hentries
      have hτ : τ.toNat ≤ now.toNat :=
        UInt64.le_iff_toNat_le.mp (htime τ (queryTime_of_checkTime hcheck))
      have hentry : entry Subscription.who who ((ps.call c).entries t) = some (s.advance τ) := by
        rw [hentries, entry_map (fun a => a.advance_who τ), hs, Option.map_some]
      by_cases hreported : s.nextDueUs ≤ τ
      · -- a report: the deadline was not after the time of the check
        have hle : (t0.toNat + (n + 1) * p.toNat) % 2 ^ 64 ≤ τ.toNat := by
          rw [← hdue]
          exact UInt64.le_iff_toNat_le.mp hreported
        simp only [hs, Option.any_some, hreported, decide_true, if_true]
        refine ⟨⟨s.advance τ, hentry, by simp [hperiod], ?_⟩, Or.inr (hle.trans hτ), ?_⟩
        · simp only [Subscription.advance, if_pos hreported, UInt64.toNat_add, hdue, hperiod]
          rw [Nat.mod_add_mod]
          congr 1
          ring
        · intro hfits
          have hsmall := hexact hfits
          rw [Nat.mod_eq_of_lt (by linarith)] at hle
          exact hle.trans hτ
      · simp only [hs, Option.any_some, hreported, decide_false]
        refine ⟨⟨s.advance τ, hentry, by simp [hperiod], ?_⟩, hearly, hexact⟩
        simp only [Subscription.advance, if_neg hreported]
        exact hdue

theorem OnSchedule.run {ps : PublishSubscriber} {n : ℕ} (h : OnSchedule t who p t0 now ps n)
    {hist : List (SubscriberId × UInt64)} (hr : ps.Recorded t hist) (calls : List Call)
    (hkept : ∀ p', (who, p') ∉ successes t ps calls)
    (htime : ∀ c ∈ calls, ∀ τ, c.queryTime = some τ → τ ≤ now) :
    OnSchedule t who p t0 now (ps.run calls) (n + (reported ps calls).count (t, who)) := by
  induction calls generalizing ps n hist with
  | nil => simpa [PublishSubscriber.run, reported] using h
  | cons c calls ih =>
    have hstep := h.call hr (fun p' hp' => hkept p' (List.mem_append_left _ hp'))
      (htime c List.mem_cons_self)
    have hrest := ih hstep (hr.call c) (fun p' hp' => hkept p' (List.mem_append_right _ hp'))
      (fun c hc => htime c (List.mem_cons_of_mem _ hc))
    rwa [add_assoc, ← List.count_append] at hrest

end Schedule

/-- `n` reports up to time `now` take `n` periods. -/
def WithinRate (p t0 now : UInt64) (n : ℕ) : Prop := (n : ℤ) * p.toNat ≤ now.toNat - t0.toNat

instance (p t0 now : UInt64) (n : ℕ) : Decidable (WithinRate p t0 now n) :=
  inferInstanceAs (Decidable (_ ≤ _))

/-- A subscription that is not renewed is reported at most once in a period, unless the time
of a report wraps around: the bound holds for `n` reports if and only if `t0 + n * p` is a
word, and so whenever `now + p` is one. -/
theorem publication_rate_iff (before after : List Call) (t : VehicleDataType) (who : SubscriberId)
    (p t0 now : UInt64) (haccepted : ((empty.run before).subscribe t who p t0).2 = true)
    (hkept : ∀ p', (who, p') ∉ successes t ((empty.run before).subscribe t who p t0).1 after)
    (htime : ∀ c ∈ after, ∀ τ, c.queryTime = some τ → τ ≤ now) (h0 : t0 ≤ now) :
    let n := (reported ((empty.run before).subscribe t who p t0).1 after).count (t, who)
    (WithinRate p t0 now n ↔ t0.toNat + n * p.toNat < 2 ^ 64) ∧
      (now.toNat + p.toNat < 2 ^ 64 → WithinRate p t0 now n) := by
  intro n
  have hr := (recorded_run before t).call (.subscribe t who p t0)
  have hschedule := (onSchedule_subscribe haccepted h0).run hr after hkept htime
  rw [zero_add] at hschedule
  obtain ⟨-, hearly, hexact⟩ := hschedule
  have hnow := UInt64.toNat_lt now
  have h0' := UInt64.le_iff_toNat_le.mp h0
  have hrate : WithinRate p t0 now n ↔ t0.toNat + n * p.toNat ≤ now.toNat := by
    rw [WithinRate]
    zify
    constructor <;> intro h <;> linarith
  rw [hrate]
  refine ⟨⟨fun h => by omega, fun h => ?_⟩, hexact⟩
  rcases hearly with hzero | hle
  · simpa [n, hzero] using h0'
  · rwa [Nat.mod_eq_of_lt h] at hle

/-- A store that supports the engine speed and has one subscription to it. -/
def oneSubscription (p t0 : UInt64) : PublishSubscriber :=
  ((empty.run [.addCapability .ENGINE_RPM]).subscribe .ENGINE_RPM (ascii "7") p t0).1

/-- Queries for the engine speed at the given times. -/
noncomputable def queriesAt (times : List UInt64) : List Call :=
  times.map fun now => .getDueSubscribers anyOrder .ENGINE_RPM false now

/-- Period 5 from time 100: two reports up to time 111. -/
theorem five_microseconds_within_rate :
    (reported (oneSubscription 5 100) (queriesAt [104, 105, 111])).count
      (.ENGINE_RPM, ascii "7") = 2 ∧
      WithinRate 5 100 111 ((reported (oneSubscription 5 100) (queriesAt [104, 105, 111])).count
        (.ENGINE_RPM, ascii "7")) := by
  refine ⟨by decide +kernel, ?_⟩
  have hrate := publication_rate_iff [.addCapability .ENGINE_RPM]
    (queriesAt [104, 105, 111]) .ENGINE_RPM
    (ascii "7") 5 100 111 (by decide +kernel) (fun p' =>
      by simp [queriesAt, successes, acceptedFor])
    (by simp [queriesAt, Call.queryTime]) (by decide)
  exact hrate.2 (by decide)

/-- The longest period there is, from time 1000: the deadline wraps around to 999, and the
first query reports the subscription. -/
theorem longest_period_reported_at_once :
    (reported (oneSubscription 18446744073709551615 1000) (queriesAt [1000])).count
      (.ENGINE_RPM, ascii "7") = 1 ∧
      ¬ WithinRate 18446744073709551615 1000 1000 1 := by
  decide +kernel

end PublishSubscriber

end CarNetwork.PubSub
