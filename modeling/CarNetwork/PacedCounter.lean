import Mathlib.Data.List.Chain
import Mathlib.Tactic.Common

/-!
# A counter that follows a level by single steps

At each look the counter goes up by one if it is below the level it sees. A level that has
run ahead is therefore made up for one look at a time. The count after a series of looks is
the least of what the looks allow: as many as there were, or what was seen at one of them
and one more for each later look.
-/
namespace CarNetwork.PacedCounter

/-- The counter after a series of looks. -/
def follow (n : ℕ) (levels : List ℕ) : ℕ :=
  levels.foldl (fun n level => if n < level then n + 1 else n) n

@[simp] theorem follow_nil (n : ℕ) : follow n [] = n := rfl

@[simp] theorem follow_cons (n level : ℕ) (levels : List ℕ) :
    follow n (level :: levels) = follow (if n < level then n + 1 else n) levels := rfl

theorem follow_append (n : ℕ) (as bs : List ℕ) : follow n (as ++ bs) = follow (follow n as) bs :=
  List.foldl_append

theorem step_eq_min {n level : ℕ} (h : n ≤ level) :
    (if n < level then n + 1 else n) = min (n + 1) level := by
  split <;> omega

/-- What the counter reaches when the levels never go down. -/
theorem le_follow_iff {n : ℕ} {levels : List ℕ} (hsorted : levels.Pairwise (· ≤ ·))
    (hn : ∀ level ∈ levels, n ≤ level) (m : ℕ) : m ≤ follow n levels ↔
      m ≤ n + levels.length ∧ ∀ i level, levels[i]? = some level →
        m ≤ level + (levels.length - 1 - i) := by
  induction levels generalizing n with
  | nil => simp
  | cons level levels ih =>
    obtain ⟨hle, hsorted⟩ := List.pairwise_cons.mp hsorted
    rw [follow_cons, step_eq_min (hn level List.mem_cons_self),
      ih hsorted (fun l hl => (Nat.min_le_right _ _).trans (hle l hl))]
    constructor
    · rintro ⟨hfirst, hrest⟩
      refine ⟨by simp only [List.length_cons]; omega, fun i l hi => ?_⟩
      cases i with
      | zero =>
        obtain rfl : level = l := by simpa using hi
        simp only [List.length_cons]
        omega
      | succ i =>
        have := hrest i l (by simpa using hi)
        simp only [List.length_cons]
        omega
    · rintro ⟨hall, hrest⟩
      have hfirst := hrest 0 level rfl
      simp only [List.length_cons] at hall hfirst hrest
      refine ⟨by omega, fun i l hi => ?_⟩
      have := hrest (i + 1) l (by simpa using hi)
      omega

/-- If the level goes up by one at most between two looks, the counter keeps up with it. -/
theorem follow_eq_getLastD {n : ℕ} {levels : List ℕ} (hsorted : (n :: levels).Pairwise (· ≤ ·))
    (h : (n :: levels).IsChain fun a b => b ≤ a + 1) : follow n levels = levels.getLastD n := by
  induction levels generalizing n with
  | nil => rfl
  | cons level levels ih =>
    obtain ⟨hle, hsorted⟩ := List.pairwise_cons.mp hsorted
    obtain ⟨hone, hrest⟩ := List.isChain_cons_cons.mp h
    have hle := hle level List.mem_cons_self
    have hstep : (if n < level then n + 1 else n) = level := by split <;> omega
    rw [follow_cons, hstep, ih hsorted hrest, List.getLastD_cons]

end CarNetwork.PacedCounter
