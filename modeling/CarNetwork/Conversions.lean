import CarNetwork.DecimalText

/-!
# Number conversions of the C and C++ libraries

`std::stoi` and `std::stoull` throw when there is no number or when it is out of
range. The `scanf` conversions report a missing number by their count of assigned
items and saturate out of range, as `strtoul` and `strtoll` do; a minus sign in
front of an unsigned number negates it modulo the word. `operator>>` fails on both.
-/
namespace CarNetwork.Conversions

open CarNetwork.ByteText CarNetwork.DecimalText

/-- The exceptions the library and the program throw. -/
inductive CxxException
  | invalidArgument
  | outOfRange
  | runtimeError
  deriving DecidableEq, Repr

def InInt (z : ℤ) : Prop := -2147483648 ≤ z ∧ z ≤ 2147483647
def InLongLong (z : ℤ) : Prop := -9223372036854775808 ≤ z ∧ z ≤ 9223372036854775807

instance (z : ℤ) : Decidable (InInt z) := inferInstanceAs (Decidable (_ ∧ _))
instance (z : ℤ) : Decidable (InLongLong z) := inferInstanceAs (Decidable (_ ∧ _))

def stoi (s : Bytes) : Except CxxException ℤ :=
  match scanInteger s with
  | none => .error .invalidArgument
  | some r => if InInt r.value then .ok r.value else .error .outOfRange

/-- The value of `strtoull` when it is in range. -/
def unsignedValue (r : Scanned) : UInt64 :=
  if r.negative then -UInt64.ofNat r.magnitude else UInt64.ofNat r.magnitude

def stoull (s : Bytes) : Except CxxException UInt64 :=
  match scanInteger s with
  | none => .error .invalidArgument
  | some r => if r.magnitude < 2 ^ 64 then .ok (unsignedValue r) else .error .outOfRange

/-- One `%lu` conversion: the number and the text left for the next conversion. -/
def scanUnsignedLong (s : Bytes) : Option (UInt64 × Bytes) :=
  (scanInteger s).map fun r =>
    (if r.magnitude < 2 ^ 64 then unsignedValue r else UInt64.ofNat (2 ^ 64 - 1), r.rest)

/-- One `%lld` conversion. -/
def scanLongLong (s : Bytes) : Option (ℤ × Bytes) :=
  (scanInteger s).map fun r =>
    (max (-9223372036854775808) (min 9223372036854775807 r.value), r.rest)

/-- One `operator>>` into an `int`. -/
def extractInt (s : Bytes) : Option (ℤ × Bytes) :=
  (scanInteger s).bind fun r => if InInt r.value then some (r.value, r.rest) else none

/-- The cast of an `int` to a byte keeps its residue. -/
theorem toNat_uint8_ofInt (z : ℤ) : (UInt8.ofInt z).toNat = (z % 256).toNat := by
  simp only [UInt8.ofInt, UInt8.toNat_ofNat']
  omega

theorem uint8_ofInt_toNat (b : UInt8) : UInt8.ofInt b.toNat = b := by
  apply UInt8.toNat_inj.mp
  have := UInt8.toNat_lt b
  rw [toNat_uint8_ofInt]
  omega

theorem uint16_ofInt_toNat (w : UInt16) : UInt16.ofInt w.toNat = w := by
  apply UInt16.toNat_inj.mp
  have := UInt16.toNat_lt w
  simp only [UInt16.ofInt, UInt16.toNat_ofNat']
  omega

theorem stoi_intText (z : ℤ) (h : InInt z) : stoi (intText z) = .ok z := by
  have hs := scanInteger_intText z [] noDigit_nil
  rw [List.append_nil] at hs
  simp [stoi, hs, h]

theorem stoull_decimal (n : UInt64) : stoull (decimal n.toNat) = .ok n := by
  have hs := scanInteger_decimal n.toNat [] noDigit_nil
  rw [List.append_nil] at hs
  simp [stoull, hs, unsignedValue, UInt64.toNat_lt n]

theorem scanUnsignedLong_decimal (n : UInt64) (rest : Bytes) (h : NoDigit rest) :
    scanUnsignedLong (decimal n.toNat ++ rest) = some (n, rest) := by
  simp [scanUnsignedLong, scanInteger_decimal n.toNat rest h, unsignedValue, UInt64.toNat_lt n]

theorem scanUnsignedLong_space (s : Bytes) : scanUnsignedLong (32 :: s) = scanUnsignedLong s := by
  simp [scanUnsignedLong, scanInteger_space]

theorem scanLongLong_intText (z : ℤ) (hz : InLongLong z) (rest : Bytes) (h : NoDigit rest) :
    scanLongLong (intText z ++ rest) = some (z, rest) := by
  obtain ⟨hlo, hhi⟩ := hz
  simp only [scanLongLong, scanInteger_intText z rest h, Option.map_some, value_intText]
  rw [min_eq_right hhi, max_eq_right hlo]

theorem scanLongLong_space (s : Bytes) : scanLongLong (32 :: s) = scanLongLong s := by
  simp [scanLongLong, scanInteger_space]

end CarNetwork.Conversions
