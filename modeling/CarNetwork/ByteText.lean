import Mathlib.Data.List.DropRight
import Mathlib.Data.List.Infix
import Mathlib.Data.List.TakeWhile
import Mathlib.Tactic.Common

/-!
# Byte strings

Texts on the wire are byte lists. The searches follow `std::string::find`: the
result is the lowest position, not below a start position, where the pattern
occurs. The lemmas say where a search lands in a text given by its pieces.
-/
namespace CarNetwork.ByteText

abbrev Bytes := List UInt8

/-- The bytes of an ASCII literal. -/
def ascii (s : String) : Bytes := s.toList.map fun c => UInt8.ofNat c.toNat

def space : UInt8 := 32

/-- First occurrence of a pattern. -/
def search (pat : Bytes) : Bytes → Option ℕ
  | [] => if pat.isEmpty then some 0 else none
  | b :: bs => if pat.isPrefixOf (b :: bs) then some 0 else (search pat bs).map (· + 1)

/-- `s.find(pat, pos)`, with `none` for `npos`. -/
def find (s pat : Bytes) (pos : ℕ) : Option ℕ := (search pat (s.drop pos)).map (pos + ·)

/-- `s.substr(pos, len)` for a position inside the text. -/
def substr (s : Bytes) (pos len : ℕ) : Bytes := (s.drop pos).take len

theorem search_prefix (pat rest : Bytes) : search pat (pat ++ rest) = some 0 := by
  cases h : pat ++ rest with
  | nil => simp_all [search]
  | cons b bs =>
    have hp : pat.isPrefixOf (b :: bs) = true := by
      rw [← h, List.isPrefixOf_iff_prefix]
      exact List.prefix_append pat rest
    simp [search, hp]

theorem search_byte (b : UInt8) (before rest : Bytes) (hb : b ∉ before) :
    search [b] (before ++ b :: rest) = some before.length := by
  induction before with
  | nil => simp [search, List.isPrefixOf]
  | cons c before ih =>
    have hc : (b == c) = false := by simp_all
    simp_all [search, List.isPrefixOf]

theorem search_byte_none (b : UInt8) (s : Bytes) (hb : b ∉ s) : search [b] s = none := by
  induction s with
  | nil => rfl
  | cons c s ih =>
    have hc : (b == c) = false := by simp_all
    simp_all [search, List.isPrefixOf]

/-- No occurrence of the pattern begins inside the text, whatever follows the text. -/
def Apart (pat text : Bytes) : Prop := ∀ u ∈ text.tails, u ≠ [] → ¬ pat <+: u ∧ ¬ u <+: pat

instance (pat text : Bytes) : Decidable (Apart pat text) :=
  inferInstanceAs (Decidable (∀ u ∈ text.tails, u ≠ [] → ¬ pat <+: u ∧ ¬ u <+: pat))

theorem Apart.not_prefix {pat text rest : Bytes} (h : Apart pat text) (hne : text ≠ []) :
    ¬ pat <+: text ++ rest := by
  intro hp
  obtain ⟨hleft, hright⟩ := h text (by simp) hne
  rcases List.prefix_or_prefix_of_prefix hp (List.prefix_append text rest) with h | h
  · exact hleft h
  · exact hright h

theorem Apart.tail {pat text : Bytes} {b : UInt8} (h : Apart pat (b :: text)) : Apart pat text :=
  fun u hu => h u (by simp_all)

theorem Apart.append {pat a b : Bytes} (ha : Apart pat a) (hb : Apart pat b) :
    Apart pat (a ++ b) := by
  induction a with
  | nil => exact hb
  | cons c a ih =>
    intro u hu hne
    rcases List.mem_cons.mp (show u ∈ (c :: (a ++ b)) :: (a ++ b).tails by simpa using hu) with
      rfl | hu
    · refine ⟨ha.not_prefix (by simp), fun hp => ?_⟩
      exact (ha (c :: a) (by simp) (by simp)).2 ((List.prefix_append (c :: a) b).trans hp)
    · exact ih ha.tail u hu hne

/-- A text without the first byte of the pattern. -/
theorem apart_of_head {pat text : Bytes} {b : UInt8} (hpat : pat.head? = some b) (hb : b ∉ text) :
    Apart pat text := by
  obtain ⟨pat, rfl⟩ : ∃ p, pat = b :: p := by
    cases pat with
    | nil => cases hpat
    | cons c p => exact ⟨p, by cases hpat; rfl⟩
  intro u hu hne
  obtain ⟨c, u, rfl⟩ := List.exists_cons_of_ne_nil hne
  have hc : c ∈ text := ((List.mem_tails _ _).mp hu).subset List.mem_cons_self
  have hbc : b ≠ c := fun h => hb (h ▸ hc)
  simp [List.cons_prefix_cons, hbc, Ne.symm hbc]

/-- A text without some byte of the pattern, up to a byte that the pattern does not have. -/
theorem apart_snoc {pat text : Bytes} {b c : UInt8} (hb : b ∈ pat) (htext : b ∉ text)
    (hc : c ∉ pat) :
    Apart pat (text ++ [c]) := by
  intro u hu hne
  have hsuffix := (List.mem_tails _ _).mp hu
  constructor
  · intro hp
    rcases List.mem_append.mp (hsuffix.subset (hp.subset hb)) with h | h
    · exact htext h
    · exact hc (List.mem_singleton.mp h ▸ hb)
  · intro hp
    have hlast : u.getLast hne = c := by
      rw [hsuffix.getLast hne]
      simp
    exact hc (hp.subset (hlast ▸ List.getLast_mem hne))

/-- Such a text is skipped by a search. -/
theorem search_skip {pat before : Bytes} (h : Apart pat before) (rest : Bytes) :
    search pat (before ++ rest) = (search pat rest).map (· + before.length) := by
  induction before with
  | nil => simp
  | cons b before ih =>
    have hno : pat.isPrefixOf (b :: (before ++ rest)) = false := by
      rw [Bool.eq_false_iff, ne_eq, List.isPrefixOf_iff_prefix]
      exact h.not_prefix (by simp)
    rw [List.cons_append, search, if_neg (by simp [hno]), ih h.tail, Option.map_map]
    congr 1

/-- A search that starts where the pattern stands finds it there. -/
theorem find_of_drop {s pat rest : Bytes} {pos : ℕ} (h : s.drop pos = pat ++ rest) :
    find s pat pos = some pos := by
  simp [find, h, search_prefix]

/-- A search for a separator stops at the first one after the start. -/
theorem find_byte_of_drop {s before rest : Bytes} {pos : ℕ} {b : UInt8}
    (h : s.drop pos = before ++ b :: rest) (hb : b ∉ before) :
    find s [b] pos = some (pos + before.length) := by
  simp [find, h, search_byte b before rest hb]

theorem substr_of_drop {s piece rest : Bytes} {pos : ℕ} (h : s.drop pos = piece ++ rest) :
    substr s pos piece.length = piece := by
  simp [substr, h]

/-- Moving the cursor over a piece leaves the rest. -/
theorem drop_piece {s piece rest : Bytes} {pos : ℕ} (h : s.drop pos = piece ++ rest) :
    s.drop (pos + piece.length) = rest := by
  rw [← List.drop_drop, h, List.drop_left]

/-- The C string that starts at a buffer: everything before the first NUL. -/
def cString (s : Bytes) : Bytes := s.takeWhile (· ≠ 0)

theorem cString_of_no_nul (s : Bytes) (h : 0 ∉ s) : cString s = s := by
  rw [cString, List.takeWhile_eq_self_iff]
  intro b hb
  simpa using fun h0 : b = 0 => h (h0 ▸ hb)

/-- `std::isspace` in the C locale. -/
def isSpace (b : UInt8) : Bool := b == 32 || (9 ≤ b && b ≤ 13)

/-- Leading and trailing white space removed, inner white space kept. -/
def trim (s : Bytes) : Bytes := (s.dropWhile isSpace).rdropWhile isSpace

theorem length_trim_le (s : Bytes) : (trim s).length ≤ s.length :=
  (List.rdropWhile_prefix isSpace _).length_le.trans (List.dropWhile_suffix isSpace).length_le

/-- A text that neither starts nor ends with white space is its own trimmed form. -/
theorem trim_eq_self (s : Bytes) (hhead : ∀ b, s.head? = some b → isSpace b = false)
    (hlast : ∀ b, s.getLast? = some b → isSpace b = false) : trim s = s := by
  have hdrop : s.dropWhile isSpace = s := by
    cases s with
    | nil => rfl
    | cons b s => simp [hhead b rfl]
  rw [trim, hdrop, List.rdropWhile_eq_self_iff]
  intro hne
  simpa using hlast _ (List.getLast?_eq_some_getLast hne)

theorem trim_trim (s : Bytes) : trim (trim s) = trim s := by
  apply trim_eq_self
  · intro b hb
    obtain ⟨rest, hrest⟩ := List.rdropWhile_prefix isSpace (s.dropWhile isSpace)
    have hhead := List.head?_dropWhile_not isSpace s
    rw [← hrest, List.head?_append_of_ne_nil _ (by rintro h; simp [trim, h] at hb)] at hhead
    have hfirst : (List.rdropWhile isSpace (List.dropWhile isSpace s)).head? = some b := hb
    simpa [hfirst] using hhead
  · intro b hb
    obtain ⟨hne, rfl⟩ := List.mem_getLast?_eq_getLast hb
    exact Bool.eq_false_iff.mpr (List.rdropWhile_last_not isSpace _ hne)

end CarNetwork.ByteText
