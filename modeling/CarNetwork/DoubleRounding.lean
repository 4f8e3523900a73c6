import Mathlib.Tactic

/-!
# Integers as doubles

A double has 53 significant bits. A number that needs more is rounded to the nearest
double, and to the even significand when two are equally near. Only the significant bits
count, so the unit of the integers may be any power of two: `roundDouble` rounds a number
of halves as it rounds a number of ones.
-/
namespace CarNetwork.DoubleRounding

/-- The nearest number with at most 53 significant bits. -/
def roundNat (n : ℕ) : ℕ :=
  -- the bits beyond the 53 leading ones
  let s := n.log2 - 52
  let q := n / 2 ^ s
  let r := n % 2 ^ s
  if 2 * r < 2 ^ s ∨ 2 * r = 2 ^ s ∧ q % 2 = 0 then q * 2 ^ s else (q + 1) * 2 ^ s

def roundDouble (z : ℤ) : ℤ := z.sign * roundNat z.natAbs

/-- Halfway between two doubles, the even one of either side. -/
example : roundDouble (2 ^ 53 + 1) = 2 ^ 53 ∧ roundDouble (2 ^ 53 + 3) = 2 ^ 53 + 4 ∧
    roundDouble (-(2 ^ 63 - 1)) = -2 ^ 63 := by decide

end CarNetwork.DoubleRounding
