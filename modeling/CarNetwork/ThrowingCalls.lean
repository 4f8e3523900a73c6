import Mathlib.Tactic

/-!
# Calls up to an exception

A loop makes calls in a given order and ends with the first that throws. Which calls have
been made, with which results, and whether the loop has thrown, are determined by the list
of the calls; a loop over a list of two parts is the loop over the first, and the loop over
the second if the first has not thrown.
-/
namespace CarNetwork.ThrowingCalls

variable {α ε β : Type*} {f : α → Except ε β}

/-- Calls in the given order, each with its result, up to the first that throws. -/
def untilThrown (f : α → Except ε β) : List α → List (α × β) × Option ε
  | [] => ([], none)
  | x :: xs =>
    match f x with
    | .error e => ([], some e)
    | .ok b => ((x, b) :: (untilThrown f xs).1, (untilThrown f xs).2)

theorem untilThrown_cons_of_ok {x : α} {b : β} (h : f x = .ok b) (xs : List α) :
    untilThrown f (x :: xs) = ((x, b) :: (untilThrown f xs).1, (untilThrown f xs).2) := by
  rw [untilThrown, h]

theorem untilThrown_cons_of_error {x : α} {e : ε} (h : f x = .error e) (xs : List α) :
    untilThrown f (x :: xs) = ([], some e) := by
  rw [untilThrown, h]

theorem untilThrown_append_of_thrown {xs : List α} {e : ε} (h : (untilThrown f xs).2 = some e)
    (ys : List α) : untilThrown f (xs ++ ys) = untilThrown f xs := by
  induction xs with
  | nil => cases h
  | cons x xs ih =>
    cases hx : f x with
    | error e' => simp [untilThrown_cons_of_error hx]
    | ok b =>
      rw [untilThrown_cons_of_ok hx] at h
      rw [List.cons_append, untilThrown_cons_of_ok hx, untilThrown_cons_of_ok hx, ih h]

theorem untilThrown_append {xs : List α} (h : (untilThrown f xs).2 = none) (ys : List α) :
    untilThrown f (xs ++ ys) =
      ((untilThrown f xs).1 ++ (untilThrown f ys).1, (untilThrown f ys).2) := by
  induction xs with
  | nil => rfl
  | cons x xs ih =>
    cases hx : f x with
    | error e' =>
      rw [untilThrown_cons_of_error hx] at h
      cases h
    | ok b =>
      rw [untilThrown_cons_of_ok hx] at h
      rw [List.cons_append, untilThrown_cons_of_ok hx, untilThrown_cons_of_ok hx, ih h]
      rfl

theorem mem_untilThrown {xs : List α} {x : α} {b : β} : (x, b) ∈ (untilThrown f xs).1 ↔
    ∃ before after, xs = before ++ x :: after ∧ (∀ y ∈ before, (f y).isOk = true) ∧
      f x = .ok b := by
  induction xs with
  | nil => simp [untilThrown]
  | cons y xs ih =>
    cases hy : f y with
    | error e =>
      simp only [untilThrown_cons_of_error hy, List.not_mem_nil, false_iff, not_exists, not_and]
      intro before after hsplit hok hx
      cases before with
      | nil =>
        obtain ⟨rfl, -⟩ := List.cons.inj hsplit
        rw [hy] at hx
        cases hx
      | cons z before =>
        obtain ⟨rfl, -⟩ := List.cons.inj hsplit
        have hz := hok y List.mem_cons_self
        rw [hy] at hz
        cases hz
    | ok c =>
      simp only [untilThrown_cons_of_ok hy, List.mem_cons, Prod.mk.injEq, ih]
      constructor
      · rintro (⟨rfl, rfl⟩ | ⟨before, after, rfl, hok, hx⟩)
        · exact ⟨[], xs, rfl, by simp, hy⟩
        · refine ⟨y :: before, after, rfl, List.forall_mem_cons.mpr ⟨?_, hok⟩, hx⟩
          rw [hy]
          rfl
      · rintro ⟨before, after, hsplit, hok, hx⟩
        cases before with
        | nil =>
          obtain ⟨rfl, rfl⟩ := List.cons.inj hsplit
          exact Or.inl ⟨rfl, Except.ok.inj (hx.symm.trans hy)⟩
        | cons z before =>
          obtain ⟨rfl, rfl⟩ := List.cons.inj hsplit
          exact Or.inr ⟨before, after, rfl, (List.forall_mem_cons.mp hok).2, hx⟩

theorem isOk_of_not_thrown {xs : List α} (h : (untilThrown f xs).2 = none) :
    ∀ x ∈ xs, (f x).isOk = true := by
  induction xs with
  | nil => simp
  | cons x xs ih =>
    cases hx : f x with
    | error e => simp [untilThrown_cons_of_error hx] at h
    | ok b =>
      rw [untilThrown_cons_of_ok hx] at h
      exact List.forall_mem_cons.mpr ⟨by rw [hx]; rfl, ih h⟩

end CarNetwork.ThrowingCalls
