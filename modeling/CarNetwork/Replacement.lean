import CarNetwork.Runs
import Mathlib.Algebra.Group.Action.Defs
import Mathlib.Algebra.Order.BigOperators.Group.List
import Mathlib.Algebra.Order.Ring.Nat

/-!
# Items that are replaced by other items

A system holds a list of items, and each of its steps takes one of them away and adds new
ones at the end. If items have ranks, new items rank below the one taken, and there are
never more than a fixed number of them, such a system stops. If some items are live, and
the taking of a live one adds a live one, it never runs out of them.
-/
namespace CarNetwork.Replacement

open CarNetwork.Runs

variable {σ α ι : Type*}

/-- One item is replaced by others. -/
def Replaces (l : List ι) (x : ι) (new l' : List ι) : Prop :=
  ∃ i, l[i]? = some x ∧ l' = l.eraseIdx i ++ new

/-! ## Ranks -/

section Rank

variable (K : ℕ) (rank : ι → ℕ)

/-- An item is worth more than `K` items of the rank below. -/
def worth (l : List ι) : ℕ := (l.map fun x => (K + 1) ^ rank x).sum

variable {K rank}

theorem worth_append (as bs : List ι) :
    worth K rank (as ++ bs) = worth K rank as + worth K rank bs := by
  simp [worth]

theorem worth_eraseIdx {l : List ι} {i : ℕ} {x : ι} (h : l[i]? = some x) :
    worth K rank (l.eraseIdx i) + (K + 1) ^ rank x = worth K rank l := by
  obtain ⟨hi, rfl⟩ := List.getElem?_eq_some_iff.mp h
  have hperm := ((List.getElem_cons_eraseIdx_perm hi).map fun x => (K + 1) ^ rank x).sum_eq
  rw [List.map_cons, List.sum_cons] at hperm
  unfold worth
  omega

/-- New items are together worth less than the one they replace. -/
theorem worth_lt {x : ι} {new : List ι} (hlen : new.length ≤ K)
    (hrank : ∀ y ∈ new, rank y < rank x) :
    worth K rank new < (K + 1) ^ rank x := by
  cases hx : rank x with
  | zero =>
    have hnil : new = [] := List.eq_nil_iff_forall_not_mem.mpr fun y hy => by
      have := hrank y hy
      omega
    simp [worth, hnil]
  | succ r =>
    have hle : ∀ n ∈ new.map fun y => (K + 1) ^ rank y, n ≤ (K + 1) ^ r := by
      intro n hn
      obtain ⟨y, hy, rfl⟩ := List.mem_map.mp hn
      have := hrank y hy
      exact Nat.pow_le_pow_right (Nat.succ_pos K) (by omega)
    calc worth K rank new
        ≤ (new.map fun y => (K + 1) ^ rank y).length • (K + 1) ^ r := List.sum_le_card_nsmul _ _ hle
      _ = new.length * (K + 1) ^ r := by rw [List.length_map, smul_eq_mul]
      _ ≤ K * (K + 1) ^ r := Nat.mul_le_mul_right _ hlen
      _ < (K + 1) * (K + 1) ^ r :=
        Nat.mul_lt_mul_of_pos_right (Nat.lt_succ_self K) (Nat.pow_pos (Nat.succ_pos K))
      _ = (K + 1) ^ (r + 1) := (pow_succ' _ _).symm

theorem Replaces.worth_lt {l new l' : List ι} {x : ι} (h : Replaces l x new l')
    (hlen : new.length ≤ K) (hrank : ∀ y ∈ new, rank y < rank x) :
    worth K rank l' < worth K rank l := by
  obtain ⟨i, hi, rfl⟩ := h
  have hnew := Replacement.worth_lt hlen hrank
  rw [worth_append, ← worth_eraseIdx hi]
  omega

/-- A system that replaces items by lower ones stops. -/
theorem length_le_of_ranks {step : σ → α → Option σ} (items : σ → List ι) (I : σ → Prop)
    (h : ∀ s a s', I s → step s a = some s' → I s' ∧ ∃ x new, Replaces (items s) x new (items s') ∧
      new.length ≤ K ∧ ∀ y ∈ new, rank y < rank x)
    {s t : σ} (hs : I s) (as : List α) (hrun : run step s as = some t) :
    as.length ≤ worth K rank (items s) := by
  have hlen := length_add_le_of_run I (fun s => worth K rank (items s)) ?_ hs as hrun
  · omega
  · intro s a s' hI hstep
    obtain ⟨hI', x, new, hrep, hnew, hrank⟩ := h s a s' hI hstep
    exact ⟨hI', hrep.worth_lt hnew hrank⟩

end Rank

/-! ## Live items -/

/-- If a live item is replaced by some live item, a step keeps one. -/
theorem Replaces.live {l new l' : List ι} {x : ι} (live : ι → Prop) (h : Replaces l x new l')
    (hx : live x → ∃ y ∈ new, live y) (hl : ∃ y ∈ l, live y) : ∃ y ∈ l', live y := by
  obtain ⟨y, hy, hlive⟩ := hl
  obtain ⟨i, hi, rfl⟩ := h
  by_cases hyx : y ∈ l.eraseIdx i
  · exact ⟨y, List.mem_append_left _ hyx, hlive⟩
  · obtain ⟨hlt, rfl⟩ := List.getElem?_eq_some_iff.mp hi
    have hmem : y ∈ l[i] :: l.eraseIdx i := (List.getElem_cons_eraseIdx_perm hlt).mem_iff.mpr hy
    obtain rfl := (List.mem_cons.mp hmem).resolve_right hyx
    obtain ⟨z, hz, hlive⟩ := hx hlive
    exact ⟨z, List.mem_append_right _ hz, hlive⟩

end CarNetwork.Replacement
