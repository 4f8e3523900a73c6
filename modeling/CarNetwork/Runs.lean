import Mathlib.Data.Option.Basic
import Mathlib.Tactic.Common

/-!
# Runs of a partial step function

A system is a state type, an action type and a partial step function. A run is a
chain of enabled actions; `Reaches` also asks every action to be allowed, in the
state it is taken from, by a condition of the caller's choice. Safety results
below are all instances of `Reaches.invariant`.
-/
namespace CarNetwork.Runs

variable {σ α : Type*}

/-- `Reaches step ok s t`: a run leads from `s` to `t`, each of its actions
satisfying `ok` in the state where it is taken. -/
inductive Reaches (step : σ → α → Option σ) (ok : σ → α → Prop) (s : σ) : σ → Prop
  | refl : Reaches step ok s s
  | tail {t u : σ} {a : α} : Reaches step ok s t → ok t a → step t a = some u →
      Reaches step ok s u

/-- Runs without any condition on their steps. -/
abbrev Reachable (step : σ → α → Option σ) (s t : σ) : Prop :=
  Reaches step (fun _ _ => True) s t

variable {step : σ → α → Option σ} {ok : σ → α → Prop} {s t : σ}

/-- What holds at the start and is kept by every allowed step holds throughout. -/
theorem Reaches.invariant (I : σ → Prop) (hs : I s)
    (hstep : ∀ t a u, I t → ok t a → step t a = some u → I u)
    (h : Reaches step ok s t) : I t := by
  induction h with
  | refl => exact hs
  | tail _ hok hu ih => exact hstep _ _ _ ih hok hu

/-- A second invariant may use a first one already known at every state reached. -/
theorem Reaches.invariant_of (J I : σ → Prop) (hJ : ∀ t, Reaches step ok s t → J t) (hs : I s)
    (hstep : ∀ t a u, J t → I t → ok t a → step t a = some u → I u)
    (h : Reaches step ok s t) : I t := by
  induction h with
  | refl => exact hs
  | tail hr hok hu ih => exact hstep _ _ _ (hJ _ hr) ih hok hu

theorem Reaches.reachable (h : Reaches step ok s t) : Reachable step s t := by
  induction h with
  | refl => exact .refl
  | tail _ _ hu ih => exact .tail ih trivial hu

/-- Execute a list of actions; the result is undefined once one of them is. -/
def run (step : σ → α → Option σ) : σ → List α → Option σ
  | s, [] => some s
  | s, a :: as => (step s a).bind fun t => run step t as

/-- The same execution, which in addition refuses actions that fail a test. -/
def runIf (test : σ → α → Bool) (step : σ → α → Option σ) : σ → List α → Option σ :=
  run fun s a => if test s a then step s a else none

theorem reaches_run {u : σ} (as : List α) (hr : Reaches step ok s t)
    (hok : ∀ t u, ∀ a ∈ as, step t a = some u → ok t a) (h : run step t as = some u) :
    Reaches step ok s u := by
  induction as generalizing t with
  | nil => exact Option.some.inj h ▸ hr
  | cons a as ih =>
    simp only [run, Option.bind_eq_some_iff] at h
    obtain ⟨v, hv, hrest⟩ := h
    exact ih (hr.tail (hok _ _ _ List.mem_cons_self hv) hv)
      (fun t u b hb => hok t u b (List.mem_cons_of_mem _ hb)) hrest

theorem reachable_of_run (as : List α) (h : run step s as = some t) : Reachable step s t :=
  reaches_run as .refl (fun _ _ _ _ _ => trivial) h

/-- An execution that uses up some of a measure at every step is no longer than the measure. -/
theorem length_add_le_of_run (I : σ → Prop) (μ : σ → ℕ)
    (hstep : ∀ t a u, I t → step t a = some u → I u ∧ μ u < μ t) (hs : I s) (as : List α)
    (h : run step s as = some t) : as.length + μ t ≤ μ s := by
  induction as generalizing s with
  | nil =>
    obtain rfl := Option.some.inj h
    simp
  | cons a as ih =>
    simp only [run, Option.bind_eq_some_iff] at h
    obtain ⟨u, hu, hrest⟩ := h
    obtain ⟨hI, hlt⟩ := hstep s a u hs hu
    have := ih hI hrest
    simp only [List.length_cons]
    omega

/-- A tested execution is a run whose every step passed the test. -/
theorem reaches_of_runIf {test : σ → α → Bool} (as : List α)
    (htest : ∀ t, ∀ a ∈ as, test t a = true → ok t a) (h : runIf test step s as = some t) :
    Reaches step ok s t := by
  have hrun : Reaches (fun s a => if test s a then step s a else none) ok s t := by
    refine reaches_run as .refl (fun t u a ha hu => htest t a ha ?_) h
    by_contra hf
    simp [hf] at hu
  clear h
  induction hrun with
  | refl => exact .refl
  | tail _ hok hu ih =>
    refine ih.tail hok ?_
    split at hu
    · exact hu
    · cases hu

/-- An observation made at the end of an execution is made at a reachable state. -/
theorem exists_reachable_of_run {β : Type*} {obs : σ → β} {b : β} (as : List α)
    (h : (run step s as).map obs = some b) : ∃ t, Reachable step s t ∧ obs t = b := by
  obtain ⟨t, ht, hobs⟩ := Option.map_eq_some_iff.mp h
  exact ⟨t, reachable_of_run as ht, hobs⟩

theorem exists_reaches_of_runIf {β : Type*} {obs : σ → β} {b : β} {test : σ → α → Bool}
    (ok : σ → α → Prop) (as : List α) (htest : ∀ t, ∀ a ∈ as, test t a = true → ok t a)
    (h : (runIf test step s as).map obs = some b) : ∃ t, Reaches step ok s t ∧ obs t = b := by
  obtain ⟨t, ht, hobs⟩ := Option.map_eq_some_iff.mp h
  exact ⟨t, reaches_of_runIf as htest ht, hobs⟩

end CarNetwork.Runs
