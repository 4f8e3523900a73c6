import Mathlib.Data.List.DropRight
import Mathlib.Tactic

/-!
# Sliding windows with an owner

A window keeps the last items that were pushed, up to a capacity. The first push decides
whose items it takes; what others push later is dropped. The closed form of `fill` says
what the window holds after any history, by the history alone.
-/
namespace CarNetwork.SlidingWindow

variable {ι μ : Type*}

/-- Items thrown away once are not missed later. -/
theorem rtake_rtake_snoc (cap : ℕ) (l : List μ) (x : μ) :
    (l.rtake cap ++ [x]).rtake cap = (l ++ [x]).rtake cap := by
  unfold List.rtake
  have hle : l.length - cap ≤ l.length := Nat.sub_le _ _
  rw [← List.drop_append_of_le_length hle, List.drop_drop, List.length_drop, List.length_append,
    List.length_singleton]
  congr 1
  omega

theorem map_rtake {ν : Type*} (f : μ → ν) (cap : ℕ) (l : List μ) :
    (l.rtake cap).map f = (l.map f).rtake cap := by
  simp [List.rtake]

theorem length_rtake (cap : ℕ) (l : List μ) : (l.rtake cap).length = min l.length cap := by
  rw [List.rtake, List.length_drop]
  omega

structure Window (ι μ : Type*) where
  owner : Option ι := none
  items : List μ := []

/-! ## What a history leaves -/

/-- The owner that the first entry of a history chooses. -/
def chosen (h : List (ι × μ)) : Option ι := h.head?.map Prod.fst

theorem chosen_snoc {h : List (ι × μ)} {i : ι} (hi : chosen h = some i) (e : ι × μ) :
    chosen (h ++ [e]) = some i := by
  cases h with
  | nil => cases hi
  | cons first rest => exact hi

variable [DecidableEq ι]

/-- The items of the chosen owner. -/
def own (h : List (ι × μ)) : List μ := (h.filter fun e => some e.1 = chosen h).map Prod.snd

theorem own_snoc {h : List (ι × μ)} {i : ι} (hi : chosen h = some i) (e : ι × μ) :
    own (h ++ [e]) = if e.1 = i then own h ++ [e.2] else own h := by
  simp only [own, chosen_snoc hi, hi, List.filter_append, List.map_append, Option.some.injEq]
  split
  · rename_i he
    simp [he]
  · rename_i he
    simp [he]

/-! ## The window -/

def Window.push (cap : ℕ) (w : Window ι μ) (e : ι × μ) : Window ι μ :=
  if w.owner = none ∨ w.owner = some e.1 then ⟨some e.1, (w.items ++ [e.2]).rtake cap⟩ else w

/-- The window after a history of pushes. -/
def fill (cap : ℕ) (h : List (ι × μ)) : Window ι μ := h.foldl (Window.push cap) {}

theorem push_of_accepted (cap : ℕ) {w : Window ι μ} {i : ι}
    (h : w.owner = none ∨ w.owner = some i) (m : μ) :
    w.push cap (i, m) = ⟨some i, (w.items ++ [m]).rtake cap⟩ :=
  if_pos h

theorem push_of_refused (cap : ℕ) {w : Window ι μ} {i : ι}
    (h : ¬(w.owner = none ∨ w.owner = some i)) (m : μ) :
    w.push cap (i, m) = w :=
  if_neg h

/-- Once the owner is chosen, what others push is dropped. -/
theorem push_of_other {cap : ℕ} {w : Window ι μ} {i : ι} (hi : w.owner = some i) {e : ι × μ}
    (he : e.1 ≠ i) : w.push cap e = w := by
  apply push_of_refused
  rintro (hnone | hsome)
  · rw [hi] at hnone
    cases hnone
  · rw [hi] at hsome
    exact he (Option.some.inj hsome).symm

/-- The window holds the last items of the owner that the first push chose. -/
theorem fill_eq (cap : ℕ) (h : List (ι × μ)) : fill cap h = ⟨chosen h, (own h).rtake cap⟩ := by
  induction h using List.reverseRecOn with
  | nil => simp [fill, chosen, own]
  | append_singleton h e ih =>
    have hstep : fill cap (h ++ [e]) = (fill cap h).push cap e := by simp [fill]
    rw [hstep, ih]
    cases hi : chosen h with
    | none =>
      -- only the empty history has chosen nobody
      have hnil : h = [] := by simpa [chosen] using hi
      subst hnil
      simp [Window.push, chosen, own]
    | some i =>
      rw [chosen_snoc hi, own_snoc hi]
      split
      · rename_i he
        obtain ⟨j, m⟩ := e
        obtain rfl : j = i := he
        rw [push_of_accepted cap (Or.inr rfl), rtake_rtake_snoc]
      · rename_i he
        exact push_of_other rfl he

end CarNetwork.SlidingWindow
