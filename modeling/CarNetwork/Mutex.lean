import Mathlib.Data.Option.Basic
import Mathlib.Tactic.Common

/-!
# Who owns a mutex

Where a thread stands says whether it is in a critical section; the mutex records its
owner. The two agree from one operation to the next.
-/
namespace CarNetwork.Mutex

variable {θ : Type*} {inside inside' : θ → Prop} {mtx : Option θ} {t u : θ}

/-- The owner of the mutex is exactly the thread in the critical section. -/
def Exclusive (inside : θ → Prop) (mtx : Option θ) : Prop := ∀ t, inside t ↔ mtx = some t

theorem Exclusive.eq (h : Exclusive inside mtx) (ht : inside t) (hu : inside u) : t = u :=
  Option.some.inj (((h t).mp ht).symm.trans ((h u).mp hu))

theorem Exclusive.not_inside (h : Exclusive inside none) (t : θ) : ¬ inside t := fun ht => by
  simpa using (h t).mp ht

/-- An operation that neither enters nor leaves. -/
theorem Exclusive.congr (h : Exclusive inside mtx) (hsame : ∀ u, inside' u ↔ inside u) :
    Exclusive inside' mtx := fun u => (hsame u).trans (h u)

theorem Exclusive.lock (h : Exclusive inside none) (hother : ∀ u, u ≠ t → (inside' u ↔ inside u))
    (ht : inside' t) : Exclusive inside' (some t) := by
  intro u
  by_cases hu : u = t
  · subst hu
    exact iff_of_true ht rfl
  · exact iff_of_false (fun hin => h.not_inside u ((hother u hu).mp hin))
      fun heq => hu (Option.some.inj heq).symm

theorem Exclusive.unlock (h : Exclusive inside mtx) (hin : inside t)
    (hother : ∀ u, u ≠ t → (inside' u ↔ inside u)) (ht : ¬ inside' t) : Exclusive inside' none := by
  intro u
  refine iff_of_false (fun hu => ?_) (by simp)
  by_cases hut : u = t
  · exact ht (hut ▸ hu)
  · exact hut (h.eq ((hother u hut).mp hu) hin)

end CarNetwork.Mutex
