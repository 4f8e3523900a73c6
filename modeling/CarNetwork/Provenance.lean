import Mathlib.Data.List.Basic
import Mathlib.Data.List.Nodup

/-!
# Items, their causes and their handlings

Nodes make items and handle items that others made. A trace numbers the items in the
order in which they are made; each remembers its maker and, if it was made in answer to
another item, the number of that item. The log has an entry for every handling. In a
sound trace no node handles an item twice, and whatever it made in answer to the item
was made in that one handling.
-/
namespace CarNetwork.Provenance

structure Item (ν α : Type*) where
  maker : ν
  cause : Option ℕ
  data : α

/-- What is true of the items so far and of the new ones of one maker. -/
theorem forall_items_append {ν α : Type*} {P : Item ν α → Prop} {items : List (Item ν α)} {n : ν}
    {cause : Option ℕ} {as : List α} (h : ∀ x ∈ items, P x) (has : ∀ a ∈ as, P ⟨n, cause, a⟩) :
    ∀ x ∈ items ++ as.map (⟨n, cause, ·⟩), P x := by
  intro x hx
  rcases List.mem_append.mp hx with hx | hx
  · exact h x hx
  · obtain ⟨a, ha, rfl⟩ := List.mem_map.mp hx
    exact has a ha

structure Entry (ν ρ : Type*) where
  item : ℕ
  node : ν
  result : ρ

structure Trace (ν α ρ : Type*) where
  items : List (Item ν α) := []
  log : List (Entry ν ρ) := []

namespace Trace

variable {ν α ρ : Type*}

/-- A node makes items of its own accord. -/
def publish (t : Trace ν α ρ) (n : ν) (as : List α) : Trace ν α ρ :=
  { t with items := t.items ++ as.map (⟨n, none, ·⟩) }

/-- A node handles an item, with a result, and makes items in answer to it. -/
def handle (t : Trace ν α ρ) (i : ℕ) (n : ν) (r : ρ) (as : List α) : Trace ν α ρ where
  items := t.items ++ as.map (⟨n, some i, ·⟩)
  log := t.log ++ [⟨i, n, r⟩]

variable [DecidableEq ν]

/-- What a node made in answer to an item. -/
def answers (t : Trace ν α ρ) (i : ℕ) (n : ν) : List α :=
  (t.items.filter fun x => x.cause = some i ∧ x.maker = n).map (·.data)

/-- The results of a node's handlings of an item. -/
def results (t : Trace ν α ρ) (i : ℕ) (n : ν) : List ρ :=
  (t.log.filter fun e => e.item = i ∧ e.node = n).map (·.result)

/-- Every handling was the first of its item by its node and is related by `R` to what was
made in it, and nothing else was made in answer to an item. -/
def Sound (R : Item ν α → ν → ρ → List α → Prop) (t : Trace ν α ρ) : Prop :=
  ∀ i n, (t.results i n = [] ∧ t.answers i n = []) ∨
    ∃ x r, t.items[i]? = some x ∧ t.results i n = [r] ∧ R x n r (t.answers i n)

variable {R : Item ν α → ν → ρ → List α → Prop} {t : Trace ν α ρ} {i j : ℕ} {m n : ν}
  {r : ρ} {as : List α}
  {x : Item ν α}

theorem sound_nil : Sound R {} := fun _ _ => Or.inl ⟨rfl, rfl⟩

theorem answers_publish : (t.publish m as).answers i n = t.answers i n := by
  have hnone : (as.map fun a => (⟨m, none, a⟩ : Item ν α)).filter
      (fun x => x.cause = some i ∧ x.maker = n) = [] := by
    simp [List.filter_eq_nil_iff]
  rw [answers, publish, List.filter_append, hnone, List.append_nil]
  rfl

theorem answers_handle_self : (t.handle i n r as).answers i n = t.answers i n ++ as := by
  have hall : (as.map fun a => (⟨n, some i, a⟩ : Item ν α)).filter
      (fun x => x.cause = some i ∧ x.maker = n) = as.map fun a => ⟨n, some i, a⟩ := by
    simp [List.filter_eq_self]
  rw [answers, handle, List.filter_append, hall, List.map_append, List.map_map]
  simp [answers, Function.comp_def]

theorem results_handle_self : (t.handle i n r as).results i n = t.results i n ++ [r] := by
  simp [results, handle]

theorem answers_handle_of_ne (h : ¬ (i = j ∧ m = n)) :
    (t.handle i m r as).answers j n = t.answers j n := by
  have hnone : (as.map fun a => (⟨m, some i, a⟩ : Item ν α)).filter
      (fun x => x.cause = some j ∧ x.maker = n) = [] := by
    rw [List.filter_eq_nil_iff]
    intro x hx
    obtain ⟨a, -, rfl⟩ := List.mem_map.mp hx
    simpa using h
  rw [answers, handle, List.filter_append, hnone, List.append_nil]
  rfl

theorem results_handle_of_ne (h : ¬ (i = j ∧ m = n)) :
    (t.handle i m r as).results j n = t.results j n := by
  simp [results, handle, h]

theorem getElem?_append_of_some {l l' : List α} {a : α} (h : l[i]? = some a) :
    (l ++ l')[i]? = some a := by
  rw [List.getElem?_append_left (List.getElem?_eq_some_iff.mp h).1, h]

theorem Sound.publish (h : Sound R t) (n : ν) (as : List α) : Sound R (t.publish n as) := by
  intro i m
  rw [answers_publish]
  refine (h i m).imp id ?_
  rintro ⟨x, r, hx, hr, hR⟩
  exact ⟨x, r, getElem?_append_of_some hx, hr, hR⟩

theorem Sound.handle (h : Sound R t) (hx : t.items[i]? = some x) (hfirst : t.results i n = [])
    (hR : R x n r as) : Sound R (t.handle i n r as) := by
  intro j m
  by_cases hsame : i = j ∧ n = m
  · obtain ⟨rfl, rfl⟩ := hsame
    have hnone : t.answers i n = [] := by
      rcases h i n with h | ⟨_, r', _, hr', _⟩
      · exact h.2
      · rw [hfirst] at hr'
        cases hr'
    rw [results_handle_self, answers_handle_self, hfirst, hnone, List.nil_append, List.nil_append]
    exact Or.inr ⟨x, r, getElem?_append_of_some hx, rfl, hR⟩
  · rw [results_handle_of_ne hsame, answers_handle_of_ne hsame]
    refine (h j m).imp id ?_
    rintro ⟨y, r', hy, hr', hR'⟩
    exact ⟨y, r', getElem?_append_of_some hy, hr', hR'⟩

/-- An item that was made in answer to another one tells that its maker handled that one. -/
theorem Sound.of_cause (h : Sound R t) {y : Item ν α} (hy : y ∈ t.items)
    (hcause : y.cause = some i) :
    y.data ∈ t.answers i y.maker ∧
      ∃ x r, t.items[i]? = some x ∧ t.results i y.maker = [r] ∧ R x y.maker r
        (t.answers i y.maker) := by
  have hmem : y.data ∈ t.answers i y.maker :=
    List.mem_map_of_mem (List.mem_filter.mpr ⟨hy, by simp [hcause]⟩)
  refine ⟨hmem, (h i y.maker).resolve_left fun hnone => ?_⟩
  rw [hnone.2] at hmem
  cases hmem

/-- Items whose data can be told apart among the answers are told apart by it in the trace. -/
theorem index_unique {β : Type*} {f : α → β} (hnodup : ((t.answers i n).map f).Nodup) {k l : ℕ}
    {x y : Item ν α} (hx : t.items[k]? = some x) (hy : t.items[l]? = some y)
    (hxi : x.cause = some i ∧ x.maker = n) (hyi : y.cause = some i ∧ y.maker = n)
    (hf : f x.data = f y.data) : k = l := by
  have hpair : t.items.Pairwise fun x y => (x.cause = some i ∧ x.maker = n) →
      (y.cause = some i ∧ y.maker = n) → f x.data ≠ f y.data := by
    rw [answers, List.map_map, List.Nodup, List.pairwise_map, List.pairwise_filter] at hnodup
    simpa using hnodup
  obtain ⟨hk, rfl⟩ := List.getElem?_eq_some_iff.mp hx
  obtain ⟨hl, rfl⟩ := List.getElem?_eq_some_iff.mp hy
  rw [List.pairwise_iff_getElem] at hpair
  rcases Nat.lt_trichotomy k l with hlt | heq | hlt
  · exact absurd hf (hpair k l hk hl hlt hxi hyi)
  · exact heq
  · exact absurd hf.symm (hpair l k hl hk hlt hyi hxi)

end Trace

end CarNetwork.Provenance
