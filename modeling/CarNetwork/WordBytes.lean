import CarNetwork.ByteText
import Mathlib.Tactic

/-!
# Words in memory

Numbers as the bytes that hold them, lowest first, and the reading of such a word
off the front of a byte string. Every lemma about a reader gives what it returns on
the bytes of a value followed by anything, which is how a decoder meets them.
-/
namespace CarNetwork.WordBytes

open CarNetwork.ByteText

/-- The `k` lowest bytes of a number, lowest first. -/
def wordBytes : ℕ → ℕ → Bytes
  | 0, _ => []
  | k + 1, n => UInt8.ofNat n :: wordBytes k (n / 256)

/-- The number that some bytes hold. -/
def wordValue : Bytes → ℕ
  | [] => 0
  | b :: s => b.toNat + 256 * wordValue s

@[simp] theorem length_wordBytes (k n : ℕ) : (wordBytes k n).length = k := by
  induction k generalizing n with
  | zero => rfl
  | succ k ih => simp [wordBytes, ih]

theorem wordValue_wordBytes (k n : ℕ) : wordValue (wordBytes k n) = n % 256 ^ k := by
  induction k generalizing n with
  | zero => simp [wordBytes, wordValue, Nat.mod_one]
  | succ k ih =>
    have hbyte : (UInt8.ofNat n).toNat = n % 256 := by simp
    rw [wordBytes, wordValue, ih, hbyte, pow_succ', Nat.mod_mul]

/-- Read a word of `k` bytes; `none` when there are fewer. -/
def readWord (k : ℕ) (s : Bytes) : Option (ℕ × Bytes) :=
  if k ≤ s.length then some (wordValue (s.take k), s.drop k) else none

theorem readWord_wordBytes {k n : ℕ} (h : n < 256 ^ k) (s : Bytes) :
    readWord k (wordBytes k n ++ s) = some (n, s) := by
  have hlen := length_wordBytes k n
  rw [readWord, if_pos (by simp), List.take_left' hlen, List.drop_left' hlen, wordValue_wordBytes,
    Nat.mod_eq_of_lt h]

theorem rest_of_readWord {k n : ℕ} {s rest : Bytes} (h : readWord k s = some (n, rest)) :
    rest = s.drop k := by
  simp only [readWord, Option.ite_none_right_eq_some, Option.some.injEq, Prod.mk.injEq] at h
  exact h.2.2.symm

theorem wordValue_lt (s : Bytes) : wordValue s < 256 ^ s.length := by
  induction s with
  | nil => simp [wordValue]
  | cons b s ih =>
    have hb := UInt8.toNat_lt b
    rw [wordValue, List.length_cons, pow_succ]
    omega

theorem wordBytes_wordValue (s : Bytes) : wordBytes s.length (wordValue s) = s := by
  induction s with
  | nil => rfl
  | cons b s ih =>
    have hb := UInt8.toNat_lt b
    have hbyte : UInt8.ofNat (b.toNat + 256 * wordValue s) = b := by
      apply UInt8.toNat_inj.mp
      rw [UInt8.toNat_ofNat']
      omega
    have hrest : (b.toNat + 256 * wordValue s) / 256 = wordValue s := by omega
    rw [List.length_cons, wordValue, wordBytes, hbyte, hrest, ih]

/-- A word is read off exactly the texts that begin with its bytes. -/
theorem readWord_eq_some_iff {k n : ℕ} {s rest : Bytes} :
    readWord k s = some (n, rest) ↔ s = wordBytes k n ++ rest ∧ n < 256 ^ k := by
  constructor
  · intro h
    simp only [readWord, Option.ite_none_right_eq_some, Option.some.injEq, Prod.mk.injEq] at h
    obtain ⟨hk, rfl, rfl⟩ := h
    have hlen : (s.take k).length = k := List.length_take_of_le hk
    have hbytes := wordBytes_wordValue (s.take k)
    have hlt := wordValue_lt (s.take k)
    rw [hlen] at hbytes hlt
    rw [hbytes]
    exact ⟨(List.take_append_drop k s).symm, hlt⟩
  · rintro ⟨rfl, hn⟩
    exact readWord_wordBytes hn rest

/-- The same for a word that is stored highest byte first. -/
def readSwapped (k : ℕ) (s : Bytes) : Option (ℕ × Bytes) :=
  if k ≤ s.length then some (wordValue (s.take k).reverse, s.drop k) else none

theorem readSwapped_reverse {k n : ℕ} (h : n < 256 ^ k) (s : Bytes) :
    readSwapped k ((wordBytes k n).reverse ++ s) = some (n, s) := by
  have hlen : (wordBytes k n).reverse.length = k := by simp
  rw [readSwapped, if_pos (by simp), List.take_left' hlen, List.drop_left' hlen,
    List.reverse_reverse, wordValue_wordBytes, Nat.mod_eq_of_lt h]

end CarNetwork.WordBytes
