import CarNetwork.ByteText
import Mathlib.Data.Nat.Digits.Lemmas
import Mathlib.Tactic

/-!
# Decimal numbers in texts

Printing is what `std::to_string`, `operator<<` and the `%lu`, `%ld` conversions
write. Scanning is the subject sequence of `strtol`: white space, an optional
sign, digits. The conversions that read numbers back differ only in the range
they accept and in what they do outside it. Every printed number is scanned back
exactly, whatever text without a leading digit follows it.
-/
namespace CarNetwork.DecimalText

open CarNetwork.ByteText

def digitByte (d : ℕ) : UInt8 := UInt8.ofNat (48 + d)

def isDigit (b : UInt8) : Bool := 48 ≤ b && b ≤ 57

/-- A natural number in base ten, most significant digit first. -/
def decimal (n : ℕ) : Bytes :=
  if n = 0 then [48] else ((Nat.digits 10 n).map digitByte).reverse

/-- An integer in base ten, with a minus sign when negative. -/
def intText (z : ℤ) : Bytes :=
  if z < 0 then 45 :: decimal z.natAbs else decimal z.natAbs

def digitsValue (s : Bytes) : ℕ := s.foldl (fun acc b => 10 * acc + (b.toNat - 48)) 0

theorem digitByte_toNat (d : ℕ) (h : d < 10) : (digitByte d).toNat = 48 + d := by
  simp only [digitByte, UInt8.toNat_ofNat']
  omega

theorem isDigit_iff (b : UInt8) : isDigit b = true ↔ 48 ≤ b.toNat ∧ b.toNat ≤ 57 := by
  simp [isDigit, UInt8.le_iff_toNat_le]

theorem isDigit_digitByte (d : ℕ) (h : d < 10) : isDigit (digitByte d) = true := by
  rw [isDigit_iff, digitByte_toNat d h]
  omega

theorem decimal_of_lt (n : ℕ) (h : n < 10) : decimal n = [digitByte n] := by
  by_cases h0 : n = 0
  · subst n; rfl
  · simp [decimal, h0, Nat.digits_of_lt 10 n h0 h]

/-- Dropping the last digit divides by ten. -/
theorem decimal_of_le (n : ℕ) (h : 10 ≤ n) :
    decimal n = decimal (n / 10) ++ [digitByte (n % 10)] := by
  have hdiv : n / 10 ≠ 0 := by omega
  rw [decimal, if_neg (by omega), decimal, if_neg hdiv, Nat.digits_def' (by omega) (by omega)]
  simp

theorem decimal_ne_nil (n : ℕ) : decimal n ≠ [] := by
  by_cases h : n < 10
  · simp [decimal_of_lt n h]
  · simp [decimal_of_le n (by omega)]

theorem isDigit_of_mem_decimal (n : ℕ) (b : UInt8) (hb : b ∈ decimal n) : isDigit b = true := by
  induction n using Nat.strong_induction_on with
  | _ n ih =>
    by_cases h : n < 10
    · rw [decimal_of_lt n h, List.mem_singleton] at hb
      exact hb ▸ isDigit_digitByte n h
    · rw [decimal_of_le n (by omega), List.mem_append, List.mem_singleton] at hb
      rcases hb with hb | hb
      · exact ih (n / 10) (by omega) hb
      · exact hb ▸ isDigit_digitByte (n % 10) (by omega)

theorem digitsValue_append (s : Bytes) (b : UInt8) :
    digitsValue (s ++ [b]) = 10 * digitsValue s + (b.toNat - 48) := by
  simp [digitsValue]

@[simp] theorem digitsValue_decimal (n : ℕ) : digitsValue (decimal n) = n := by
  induction n using Nat.strong_induction_on with
  | _ n ih =>
    by_cases h : n < 10
    · rw [decimal_of_lt n h]
      simp [digitsValue, digitByte_toNat n h]
    · rw [decimal_of_le n (by omega), digitsValue_append, ih (n / 10) (by omega),
        digitByte_toNat (n % 10) (by omega)]
      omega

/-! ## Scanning -/

/-- What `strtol` recognises at the start of a text. -/
structure Scanned where
  negative : Bool
  magnitude : ℕ
  rest : Bytes
  deriving DecidableEq, Repr

namespace Scanned

def value (r : Scanned) : ℤ := if r.negative then -(r.magnitude : ℤ) else r.magnitude

end Scanned

def scanDigits (negative : Bool) (s : Bytes) : Option Scanned :=
  if (s.takeWhile isDigit).isEmpty then none
  else some ⟨negative, digitsValue (s.takeWhile isDigit), s.dropWhile isDigit⟩

/-- Skip white space, read a sign, read digits; `none` when there is no digit. -/
def scanInteger (s : Bytes) : Option Scanned :=
  match s.dropWhile isSpace with
  | [] => none
  | b :: t =>
    if b = 45 then scanDigits true t
    else if b = 43 then scanDigits false t
    else scanDigits false (b :: t)

/-- A text that does not go on with a digit. -/
def NoDigit (s : Bytes) : Prop := ∀ b, s.head? = some b → isDigit b = false

theorem noDigit_nil : NoDigit [] := by simp [NoDigit]

theorem noDigit_space (s : Bytes) : NoDigit (32 :: s) := by
  intro b hb
  cases hb
  rfl

/-- Digits are read up to the first byte that is none. -/
theorem scanDigits_append (negative : Bool) {digits rest : Bytes} (hne : digits ≠ [])
    (hdigits : ∀ b ∈ digits, isDigit b = true) (h : NoDigit rest) :
    scanDigits negative (digits ++ rest) = some ⟨negative, digitsValue digits, rest⟩ := by
  have htake : (digits ++ rest).takeWhile isDigit = digits := by
    rw [List.takeWhile_append_of_pos hdigits]
    cases rest with
    | nil => simp
    | cons b rest => simp [h b rfl]
  have hdrop : (digits ++ rest).dropWhile isDigit = rest := by
    rw [List.dropWhile_append_of_pos hdigits]
    cases rest with
    | nil => rfl
    | cons b rest => simp [h b rfl]
  simp [scanDigits, htake, hdrop, hne]

theorem scanDigits_decimal (negative : Bool) (n : ℕ) (rest : Bytes) (h : NoDigit rest) :
    scanDigits negative (decimal n ++ rest) = some ⟨negative, n, rest⟩ := by
  rw [scanDigits_append negative (decimal_ne_nil n) (isDigit_of_mem_decimal n) h,
    digitsValue_decimal]

/-- A decimal starts with a digit, which is neither white space nor a sign. -/
theorem decimal_cons (n : ℕ) : ∃ b t, decimal n = b :: t ∧ isDigit b = true := by
  cases h : decimal n with
  | nil => exact absurd h (decimal_ne_nil n)
  | cons b t => exact ⟨b, t, rfl, isDigit_of_mem_decimal n b (by simp [h])⟩

theorem isSpace_of_isDigit (b : UInt8) (h : isDigit b = true) : isSpace b = false := by
  rw [isDigit_iff] at h
  simp only [isSpace, Bool.or_eq_false_iff, beq_eq_false_iff_ne, Bool.and_eq_false_iff,
    decide_eq_false_iff_not, UInt8.le_iff_toNat_le]
  constructor
  · rintro rfl
    simp at h
  · right
    simp only [UInt8.toNat_ofNat]
    omega

/-- A text of digits is read up to the first byte that is none. -/
theorem scanInteger_digits {digits rest : Bytes} (hne : digits ≠ [])
    (hdigits : ∀ b ∈ digits, isDigit b = true) (h : NoDigit rest) :
    scanInteger (digits ++ rest) = some ⟨false, digitsValue digits, rest⟩ := by
  obtain ⟨b, t, rfl⟩ := List.exists_cons_of_ne_nil hne
  have hb := hdigits b List.mem_cons_self
  have hs := isSpace_of_isDigit b hb
  have hsign : b ≠ 45 ∧ b ≠ 43 := by
    constructor <;> rintro rfl <;> simp [isDigit] at hb
  have hscan := scanDigits_append false hne hdigits h
  simpa [scanInteger, hs, hsign.1, hsign.2] using hscan

theorem scanInteger_decimal (n : ℕ) (rest : Bytes) (h : NoDigit rest) :
    scanInteger (decimal n ++ rest) = some ⟨false, n, rest⟩ := by
  rw [scanInteger_digits (decimal_ne_nil n) (isDigit_of_mem_decimal n) h, digitsValue_decimal]

theorem scanInteger_of_not_digit {b : UInt8} (hspace : isSpace b = false) (hsign : b ≠ 45 ∧ b ≠ 43)
    (hdigit : isDigit b = false) (t : Bytes) : scanInteger (b :: t) = none := by
  simp [scanInteger, hspace, hsign.1, hsign.2, scanDigits, hdigit]

/-- A printed integer is scanned back with its sign, its magnitude and the rest. -/
theorem scanInteger_intText (z : ℤ) (rest : Bytes) (h : NoDigit rest) :
    scanInteger (intText z ++ rest) = some ⟨decide (z < 0), z.natAbs, rest⟩ := by
  by_cases hz : z < 0
  · have hscan := scanDigits_decimal true z.natAbs rest h
    simpa [intText, hz, scanInteger, isSpace] using hscan
  · simpa [intText, hz] using scanInteger_decimal z.natAbs rest h

@[simp] theorem value_intText (z : ℤ) (rest : Bytes) :
    (Scanned.mk (decide (z < 0)) z.natAbs rest).value = z := by
  by_cases hz : z < 0
  · simp only [Scanned.value, hz, decide_true, if_true]
    omega
  · simp only [Scanned.value, hz, decide_false]
    simp only [Bool.false_eq_true, if_false]
    omega

/-- White space in front of a number is skipped. -/
theorem scanInteger_space (s : Bytes) : scanInteger (32 :: s) = scanInteger s := by
  simp [scanInteger, isSpace]

end CarNetwork.DecimalText
