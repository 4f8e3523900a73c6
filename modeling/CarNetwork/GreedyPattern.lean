import Mathlib.Data.List.Basic
import Mathlib.Tactic.Common

/-!
# Patterns of literals and greedy runs

A pattern is a sequence of atoms: a literal, a run of one or more symbols of a class, or
such a run that is captured. A matcher with backtracking tries the longest run first and
searches the text from the left; here it is the list of all its matches, in the order in
which it would find them. Where no symbol of a run can begin the next atom, there is
nothing to backtrack to.
-/
namespace CarNetwork.GreedyPattern

variable {α : Type*} [DecidableEq α]

inductive Atom (α : Type*)
  | lit (a : α)
  | many (p : α → Bool)
  | capture (p : α → Bool)

/-- The symbols that an atom can begin with. -/
def Atom.first : Atom α → α → Bool
  | .lit a, b => b = a
  | .many p, b => p b
  | .capture p, b => p b

/-- The ways to take a run of a class off the front of a text, the longest first. -/
def runs (p : α → Bool) : List α → List (List α × List α)
  | [] => []
  | a :: s => if p a then (runs p s).map (fun x => (a :: x.1, x.2)) ++ [([a], s)] else []

/-- The captures of all matches at the front of a text, in the order of the search. -/
def captures : List (Atom α) → List α → List (List (List α))
  | [], _ => [[]]
  | .lit _ :: _, [] => []
  | .lit a :: as, b :: s => if b = a then captures as s else []
  | .many p :: as, s => (runs p s).flatMap fun x => captures as x.2
  | .capture p :: as, s => (runs p s).flatMap fun x => (captures as x.2).map (x.1 :: ·)

/-- The captures of the leftmost match. -/
def search (as : List (Atom α)) : List α → Option (List (List α))
  | [] => (captures as []).head?
  | a :: s => (captures as (a :: s)).head?.or (search as s)

variable {as : List (Atom α)} {p : α → Bool} {s t rest : List α}

/-! ## Literals -/

theorem captures_lit (a : α) (as : List (Atom α)) (s : List α) :
    captures (.lit a :: as) (a :: s) = captures as s := by
  simp [captures]

theorem captures_lits (word : List α) (as : List (Atom α)) (s : List α) :
    captures (word.map .lit ++ as) (word ++ s) = captures as s := by
  induction word with
  | nil => rfl
  | cons a word ih => simpa [captures_lit] using ih

/-- The first symbol decides. -/
theorem captures_eq_nil_of_first {x : Atom α} {a : α} (h : x.first a = false)
    (as : List (Atom α)) (s : List α) :
    captures (x :: as) (a :: s) = [] := by
  cases x with
  | lit b =>
    have : a ≠ b := by simpa [Atom.first] using h
    simp [captures, this]
  | many p => simp [captures, runs, show p a = false from h]
  | capture p => simp [captures, runs, show p a = false from h]

theorem captures_lits_ne {word word' : List α} (hlen : word.length = word'.length)
    (hne : word ≠ word') (as : List (Atom α)) (s : List α) :
    captures (word.map .lit ++ as) (word' ++ s) = [] := by
  induction word generalizing word' with
  | nil =>
    cases word' with
    | nil => exact absurd rfl hne
    | cons b word' => cases hlen
  | cons a word ih =>
    cases word' with
    | nil => cases hlen
    | cons b word' =>
      by_cases hab : b = a
      · subst hab
        simpa [captures] using ih (Nat.succ.inj hlen) fun h => hne (by rw [h])
      · simp [captures, hab]

/-! ## Runs -/

omit [DecidableEq α] in
/-- A run that ends where its class ends: the whole of it comes first, and what is left of
any shorter one begins inside the class. -/
theorem runs_append (ht : ∀ a ∈ t, p a = true) (hne : t ≠ [])
    (hrest : ∀ a, rest.head? = some a → p a = false) :
    ∃ shorter, runs p (t ++ rest) = (t, rest) :: shorter ∧
      ∀ x ∈ shorter, ∃ a s, x.2 = a :: s ∧ p a = true := by
  induction t with
  | nil => exact absurd rfl hne
  | cons a t ih =>
    have ha := ht a List.mem_cons_self
    cases t with
    | nil =>
      have hnone : runs p rest = [] := by
        cases rest with
        | nil => rfl
        | cons b rest => simp [runs, hrest b rfl]
      exact ⟨[], by simp [runs, ha, hnone], by simp⟩
    | cons b t =>
      obtain ⟨shorter, heq, hall⟩ := ih (fun c hc => ht c (List.mem_cons_of_mem a hc)) (by simp)
      refine ⟨shorter.map (fun x => (a :: x.1, x.2)) ++ [([a], b :: t ++ rest)], ?_, ?_⟩
      · rw [List.cons_append, runs, if_pos ha, heq]
        rfl
      · intro x hx
        rcases List.mem_append.mp hx with hx | hx
        · obtain ⟨y, hy, rfl⟩ := List.mem_map.mp hx
          exact hall y hy
        · obtain rfl := List.mem_singleton.mp hx
          exact ⟨b, t ++ rest, rfl, ht b (by simp)⟩

/-- If the next atom cannot begin inside the class, only the whole run matches. -/
theorem captures_many {x : Atom α} (hx : ∀ a, p a = true → x.first a = false)
    (ht : ∀ a ∈ t, p a = true) (hne : t ≠ []) (hrest : ∀ a, rest.head? = some a → p a = false) :
    captures (.many p :: x :: as) (t ++ rest) = captures (x :: as) rest := by
  obtain ⟨shorter, heq, hall⟩ := runs_append ht hne hrest
  have hnone : (shorter.flatMap fun y => captures (x :: as) y.2) = [] := by
    rw [List.flatMap_eq_nil_iff]
    intro y hy
    obtain ⟨a, s, hs, ha⟩ := hall y hy
    rw [hs]
    exact captures_eq_nil_of_first (hx a ha) as s
  simp only [captures, heq, List.flatMap_cons, hnone, List.append_nil]

theorem captures_capture {x : Atom α} (hx : ∀ a, p a = true → x.first a = false)
    (ht : ∀ a ∈ t, p a = true) (hne : t ≠ []) (hrest : ∀ a, rest.head? = some a → p a = false) :
    captures (.capture p :: x :: as) (t ++ rest) = (captures (x :: as) rest).map (t :: ·) := by
  obtain ⟨shorter, heq, hall⟩ := runs_append ht hne hrest
  have hnone : (shorter.flatMap fun y => (captures (x :: as) y.2).map (y.1 :: ·)) = [] := by
    rw [List.flatMap_eq_nil_iff]
    intro y hy
    obtain ⟨a, s, hs, ha⟩ := hall y hy
    rw [hs, captures_eq_nil_of_first (hx a ha) as s]
    rfl
  simp only [captures, heq, List.flatMap_cons, hnone, List.append_nil]

/-! ## Searching -/

/-- A text without the first symbol of the pattern. -/
theorem search_eq_none {a : α} (ha : a ∉ s) : search (.lit a :: as) s = none := by
  induction s with
  | nil => rfl
  | cons b s ih =>
    have hab : b ≠ a := fun h => ha (by simp [h])
    simp [search, captures, hab, ih fun h => ha (List.mem_cons_of_mem b h)]

/-- A text that has it only at the front. -/
theorem search_eq_head {a : α} (ha : a ∉ s) :
    search (.lit a :: as) (a :: s) = (captures (.lit a :: as) (a :: s)).head? := by
  rw [search, search_eq_none ha, Option.or_none]

end CarNetwork.GreedyPattern
