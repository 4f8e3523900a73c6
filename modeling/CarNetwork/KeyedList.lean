import Mathlib.Data.List.Basic
import Mathlib.Tactic

/-!
# Lists of records with a key

An access to such a list changes the first record with the key in place, or appends a new
one. `Records` relates a list to the history of its accesses: there is one record for each
key that was written, in the order of the first writes, with the value of the last write.
-/
namespace CarNetwork.KeyedList

variable {α κ ν : Type*} [BEq κ] [LawfulBEq κ]

/-! ## Histories -/

/-- The value of the last write to a key. -/
def lastWrite (k : κ) (h : List (κ × ν)) : Option ν := h.reverse.lookup k

theorem lastWrite_snoc (k : κ) (h : List (κ × ν)) (e : κ × ν) :
    lastWrite k (h ++ [e]) = if k == e.1 then some e.2 else lastWrite k h := by
  obtain ⟨k', v⟩ := e
  simp only [lastWrite, List.reverse_append, List.reverse_singleton, List.singleton_append,
    List.lookup_cons]
  by_cases hk : k = k'
  · simp [hk]
  · simp [beq_eq_false_iff_ne.mpr hk]

theorem mem_of_lastWrite {k : κ} {v : ν} {h : List (κ × ν)} (hk : lastWrite k h = some v) :
    (k, v) ∈ h := by
  induction h using List.reverseRecOn with
  | nil => cases hk
  | append_singleton h e ih =>
    rw [lastWrite_snoc] at hk
    split at hk
    · rename_i hke
      obtain rfl := Option.some.inj hk
      simp [beq_iff_eq.mp hke]
    · exact List.mem_append_left _ (ih hk)

theorem eraseDups_snoc (ks : List κ) (k : κ) :
    (ks ++ [k]).eraseDups = if k ∈ ks then ks.eraseDups else ks.eraseDups ++ [k] := by
  rw [List.eraseDups_append]
  split
  · rename_i hk
    simp [List.removeAll, hk]
  · rename_i hk
    simp [List.removeAll, hk, List.eraseDups_cons]

theorem nodup_eraseDups (ks : List κ) : ks.eraseDups.Nodup := by
  induction ks using List.reverseRecOn with
  | nil => simp
  | append_singleton ks k ih =>
    rw [eraseDups_snoc]
    split
    · exact ih
    · rename_i hk
      rw [List.nodup_append]
      refine ⟨ih, List.nodup_singleton k, ?_⟩
      rintro a ha b hb rfl
      rw [List.mem_singleton.mp hb, List.mem_eraseDups] at ha
      exact hk ha

/-! ## Accesses -/

section Upsert

variable {key : α → κ} {k : κ} {renew : α → α} {new : α} {l : List α}

/-- Change the first record with the key, or append a new one. -/
def upsert (key : α → κ) (k : κ) (renew : α → α) (new : α) : List α → List α
  | [] => [new]
  | a :: l => if key a == k then renew a :: l else a :: upsert key k renew new l

/-- The record with a key. -/
def entry (key : α → κ) (k : κ) (l : List α) : Option α := l.find? fun a => key a == k

theorem mem_of_entry {a : α} (h : entry key k l = some a) : a ∈ l ∧ key a = k :=
  ⟨List.mem_of_find?_eq_some h, by simpa using List.find?_some h⟩

/-- With distinct keys there is one record to find. -/
theorem entry_eq_some_iff (hl : (l.map key).Nodup) {a : α} :
    entry key k l = some a ↔ a ∈ l ∧ key a = k := by
  constructor
  · exact mem_of_entry
  · rintro ⟨ha, rfl⟩
    cases h : entry key (key a) l with
    | none => simpa using List.find?_eq_none.mp h a ha
    | some b =>
      obtain ⟨hb, hkey⟩ := mem_of_entry h
      rw [List.inj_on_of_nodup_map hl hb ha hkey]

theorem entry_upsert_self (hrenew : ∀ a, key (renew a) = key a) (hnew : key new = k) :
    entry key k (upsert key k renew new l) = some (((entry key k l).map renew).getD new) := by
  induction l with
  | nil => simp [upsert, entry, hnew]
  | cons a l ih =>
    rw [upsert]
    split
    · rename_i ha
      rw [beq_iff_eq] at ha
      simp [entry, hrenew, ha]
    · rename_i ha
      rw [beq_iff_eq] at ha
      rw [entry, List.find?_cons_of_neg (by simp [ha]), entry,
        List.find?_cons_of_neg (by simp [ha])]
      exact ih

theorem entry_upsert_of_ne (hrenew : ∀ a, key (renew a) = key a) (hnew : key new = k) {k' : κ}
    (hk : k' ≠ k) :
    entry key k' (upsert key k renew new l) = entry key k' l := by
  induction l with
  | nil => simp [upsert, entry, hnew, Ne.symm hk]
  | cons a l ih =>
    rw [upsert]
    split
    · rename_i ha
      rw [beq_iff_eq] at ha
      have hne : key a ≠ k' := fun h => hk (h.symm.trans ha)
      simp [entry, hrenew, hne]
    · by_cases hak : key a = k'
      · simp [entry, hak]
      · rw [entry, List.find?_cons_of_neg (by simp [hak]), entry,
          List.find?_cons_of_neg (by simp [hak])]
        exact ih

theorem map_key_upsert (hrenew : ∀ a, key (renew a) = key a) (hnew : key new = k) :
    (upsert key k renew new l).map key = if k ∈ l.map key then l.map key else l.map key ++ [k] := by
  induction l with
  | nil => simp [upsert, hnew]
  | cons a l ih =>
    rw [upsert]
    split
    · rename_i ha
      rw [beq_iff_eq] at ha
      simp [hrenew, ha]
    · rename_i ha
      rw [beq_iff_eq] at ha
      simp only [List.map_cons, ih, List.mem_cons, Ne.symm ha, false_or]
      split
      · rfl
      · rfl

theorem nodup_upsert (hrenew : ∀ a, key (renew a) = key a) (hnew : key new = k)
    (hl : (l.map key).Nodup) :
    ((upsert key k renew new l).map key).Nodup := by
  rw [map_key_upsert hrenew hnew]
  split
  · exact hl
  · rename_i hk
    rw [List.nodup_append]
    exact ⟨hl, List.nodup_singleton k,
      fun a ha b hb hab => hk (List.mem_singleton.mp hb ▸ hab ▸ ha)⟩

end Upsert

omit [LawfulBEq κ] in
/-- A change in place that leaves the keys alone changes the record found. -/
theorem entry_map {key : α → κ} {f : α → α} (hf : ∀ a, key (f a) = key a) (k : κ) (l : List α) :
    entry key k (l.map f) = (entry key k l).map f := by
  simp only [entry, List.find?_map, Function.comp_def, hf]

/-- Among records with distinct keys a key is counted once, if its record passes the test. -/
theorem count_map_filter {key : α → κ} {l : List α} (hl : (l.map key).Nodup)
    (test : α → Bool) (k : κ) :
    ((l.filter test).map key).count k = if (entry key k l).any test then 1 else 0 := by
  have hsub : ((l.filter test).map key).Sublist (l.map key) := (List.filter_sublist).map key
  have hmem : k ∈ (l.filter test).map key ↔ (entry key k l).any test = true := by
    simp only [List.mem_map, List.mem_filter, Option.any_eq_true]
    constructor
    · rintro ⟨a, ⟨ha, htest⟩, hk⟩
      exact ⟨a, (entry_eq_some_iff hl).mpr ⟨ha, hk⟩, htest⟩
    · rintro ⟨a, ha, htest⟩
      obtain ⟨hal, hk⟩ := mem_of_entry ha
      exact ⟨a, ⟨hal, htest⟩, hk⟩
  rw [(hl.sublist hsub).count]
  simp only [hmem]

/-! ## Lists and histories -/

/-- The list holds the last value of every key written, in the order of the first writes. -/
structure Records (key : α → κ) (val : α → ν) (l : List α) (h : List (κ × ν)) : Prop where
  keys : l.map key = (h.map Prod.fst).eraseDups
  values : ∀ a ∈ l, lastWrite (key a) h = some (val a)

namespace Records

variable {key : α → κ} {val : α → ν} {l : List α} {h : List (κ × ν)}

omit [LawfulBEq κ] in
theorem nil : Records key val [] [] := ⟨rfl, by simp⟩

theorem nodup (hr : Records key val l h) : (l.map key).Nodup := hr.keys ▸ nodup_eraseDups _

/-- A write to the list is a write in the history. -/
theorem upsert {k : κ} {v : ν} {renew : α → α} {new : α} (hr : Records key val l h)
    (hrenew : ∀ a, key (renew a) = key a ∧ val (renew a) = v) (hnew : key new = k ∧ val new = v) :
    Records key val (upsert key k renew new l) (h ++ [(k, v)]) := by
  have hkey : ∀ a, key (renew a) = key a := fun a => (hrenew a).1
  have hmem : k ∈ l.map key ↔ k ∈ h.map Prod.fst := by rw [hr.keys, List.mem_eraseDups]
  constructor
  · rw [map_key_upsert hkey hnew.1, List.map_append, List.map_singleton, eraseDups_snoc, ← hr.keys]
    simp only [hmem]
  · intro a ha
    have hentry := (entry_eq_some_iff (nodup_upsert hkey hnew.1 hr.nodup)).mpr ⟨ha, rfl⟩
    rw [lastWrite_snoc]
    by_cases hk : key a = k
    · rw [hk, entry_upsert_self hkey hnew.1] at hentry
      rw [if_pos (beq_iff_eq.mpr hk), ← Option.some.inj hentry]
      cases hold : entry key k l with
      | none => simp [hnew.2]
      | some b => simp [(hrenew b).2]
    · rw [entry_upsert_of_ne hkey hnew.1 hk] at hentry
      rw [if_neg (by simpa using hk)]
      exact hr.values a (mem_of_entry hentry).1

omit [LawfulBEq κ] in
theorem map {f : α → α} (hr : Records key val l h)
    (hf : ∀ a, key (f a) = key a ∧ val (f a) = val a) :
    Records key val (l.map f) h := by
  constructor
  · rw [List.map_map, ← hr.keys]
    exact List.map_congr_left fun a _ => (hf a).1
  · intro b hb
    obtain ⟨a, ha, rfl⟩ := List.mem_map.mp hb
    rw [(hf a).1, (hf a).2]
    exact hr.values a ha

end Records

end CarNetwork.KeyedList
