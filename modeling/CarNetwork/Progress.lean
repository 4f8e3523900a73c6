import CarNetwork.Runs
import Mathlib.Algebra.BigOperators.Group.Finset.Basic
import Mathlib.Data.Fintype.Basic

/-!
# Progress of a partial step function

Two ways to see that a system gets somewhere. A system left to its own actions
settles when each of them uses up some of a measure: however they are ordered, they
come to an end. And from a state with an invariant a goal can be reached when some
allowed step brings it nearer.
-/
namespace CarNetwork.Runs

variable {σ α : Type*} {step : σ → α → Option σ} {ok : σ → α → Prop} {s t u : σ}

theorem Reaches.trans (hst : Reaches step ok s t) (htu : Reaches step ok t u) :
    Reaches step ok s u := by
  induction htu with
  | refl => exact hst
  | tail _ hok hu ih => exact ih.tail hok hu

theorem Reaches.head {a : α} (hok : ok s a) (hu : step s a = some t) (h : Reaches step ok t u) :
    Reaches step ok s u :=
  (Reaches.tail .refl hok hu).trans h

/-- If every state with the invariant that is no goal has an allowed step to a state with
the invariant and a smaller measure, a goal can be reached from each of them. -/
theorem exists_reaches_of_measure (I G : σ → Prop) (μ : σ → ℕ)
    (h : ∀ t, I t → G t ∨ ∃ a u, ok t a ∧ step t a = some u ∧ I u ∧ μ u < μ t) (hs : I s) :
    ∃ t, Reaches step ok s t ∧ I t ∧ G t := by
  induction hμ : μ s using Nat.strongRecOn generalizing s with
  | _ m ih =>
    rcases h s hs with hG | ⟨a, u, hok, hu, hI, hlt⟩
    · exact ⟨s, .refl, hs, hG⟩
    · obtain ⟨t, hr, ht⟩ := ih _ (hμ ▸ hlt) hI rfl
      exact ⟨t, hr.head hok hu, ht⟩

/-- The system restricted to actions of one kind. -/
def only (p : α → Bool) (step : σ → α → Option σ) : σ → α → Option σ :=
  fun s a => if p a then step s a else none

variable {p : α → Bool}

theorem only_eq_some {a : α} : only p step s a = some t ↔ p a = true ∧ step s a = some t := by
  simp [only]

/-- No action of the kind is enabled. -/
def Settled (p : α → Bool) (step : σ → α → Option σ) (s : σ) : Prop :=
  ∀ a, p a = true → step s a = none

/-- Actions that each use up some of a measure end: after at most that many of them, in
whatever order, none is left, and such a state can be reached. -/
theorem settles (I : σ → Prop) (μ : σ → ℕ)
    (hstep : ∀ t a u, I t → p a = true → step t a = some u → I u ∧ μ u < μ t) (hs : I s) :
    (∀ as t, run (only p step) s as = some t → as.length ≤ μ s ∧ I t) ∧
      ∃ t, Reachable (only p step) s t ∧ Settled p step t := by
  have honly : ∀ t a u, I t → only p step t a = some u → I u ∧ μ u < μ t := by
    intro t a u hI hu
    obtain ⟨hp, hu⟩ := only_eq_some.mp hu
    exact hstep t a u hI hp hu
  constructor
  · intro as t hrun
    have hlen := length_add_le_of_run I μ honly hs as hrun
    have hI : I t := (reachable_of_run as hrun).invariant I hs fun t a u hI _ hu =>
      (honly t a u hI hu).1
    exact ⟨by omega, hI⟩
  · have hnext : ∀ t, I t → Settled p step t ∨
        ∃ a u, True ∧ only p step t a = some u ∧ I u ∧ μ u < μ t := by
      intro t hI
      by_cases hset : Settled p step t
      · exact .inl hset
      · simp only [Settled, not_forall] at hset
        obtain ⟨a, hp, ha⟩ := hset
        obtain ⟨u, hu⟩ := Option.ne_none_iff_exists'.mp ha
        exact .inr ⟨a, u, trivial, only_eq_some.mpr ⟨hp, hu⟩, hstep t a u hI hp hu⟩
    obtain ⟨t, hr, -, hset⟩ := exists_reaches_of_measure I (Settled p step) μ hnext hs
    exact ⟨t, hr, hset⟩

open scoped BigOperators in
/-- A measure summed over all places, after one place has been overwritten. -/
theorem sum_update_add {ι β : Type*} [Fintype ι] [DecidableEq ι] (w : β → ℕ) (f : ι → β)
    (i : ι) (b : β) :
    ∑ j, w (Function.update f i b j) + w (f i) = ∑ j, w (f j) + w b := by
  have hrest : ∑ j ∈ Finset.univ.erase i, w (Function.update f i b j) =
      ∑ j ∈ Finset.univ.erase i, w (f j) :=
    Finset.sum_congr rfl fun j hj => by rw [Function.update_of_ne (Finset.ne_of_mem_erase hj)]
  have hnew := Finset.add_sum_erase Finset.univ (fun j => w (Function.update f i b j))
    (Finset.mem_univ i)
  have hold := Finset.add_sum_erase Finset.univ (fun j => w (f j)) (Finset.mem_univ i)
  simp only [Function.update_self] at hnew
  omega

end CarNetwork.Runs
