import Mathlib.Tactic

/-!
# Setting the clock in one step

`adjust_system_time_by_us` adds an offset in microseconds to the time of day. The division
of C truncates towards zero, so the microseconds can leave their range on both sides and
are brought back by a carry or a borrow. All words are signed and have 64 bits, as `time_t` and
`suseconds_t` do; their operations wrap around, and the proofs show where they do not.
-/
namespace CarNetwork.ClockSync

/-- The `struct timeval` of the operating system. -/
structure Timeval where
  tvSec : Int64
  tvUsec : Int64
  deriving DecidableEq, Repr

/-- The time to set, from the time now. -/
def stepTime (tv : Timeval) (offsetUs : Int64) : Timeval :=
  let sec := tv.tvSec + offsetUs / 1000000
  let usec := tv.tvUsec + offsetUs % 1000000
  if 1000000 ≤ usec then ⟨sec + usec / 1000000, usec % 1000000⟩
  else if usec < 0 then
    let borrow := (-usec + 999999) / 1000000
    ⟨sec - borrow, usec + borrow * 1000000⟩
  else ⟨sec, usec⟩

/-- `gettimeofday` yields a time or fails, and `settimeofday` succeeds or not on what it is
given. The result comes with the time that was handed to `settimeofday`, if any. -/
def adjustSystemTimeByUs (gettimeofday : Option Timeval) (settimeofday : Timeval → Bool)
    (offsetUs : Int64) : Bool × Option Timeval :=
  match gettimeofday with
  | none => (false, none)
  | some tv => (settimeofday (stepTime tv offsetUs), some (stepTime tv offsetUs))

namespace Timeval

/-- The time in microseconds. -/
def micros (tv : Timeval) : ℤ := tv.tvSec.toInt * 1000000 + tv.tvUsec.toInt

/-- The microseconds are less than a second. -/
def Normal (tv : Timeval) : Prop := 0 ≤ tv.tvUsec ∧ tv.tvUsec < 1000000

instance (tv : Timeval) : Decidable tv.Normal := inferInstanceAs (Decidable (_ ∧ _))

theorem normal_iff (tv : Timeval) :
    tv.Normal ↔ 0 ≤ tv.tvUsec.toInt ∧ tv.tvUsec.toInt < 1000000 := by
  rw [Normal, Int64.le_iff_toInt_le, Int64.lt_iff_toInt_lt]
  rfl

end Timeval

/-! ## Words without overflow -/

theorem toInt_million : (1000000 : Int64).toInt = 1000000 := rfl

theorem toInt_add_of_fits {a b : Int64} (hlo : -2 ^ 63 ≤ a.toInt + b.toInt)
    (hhi : a.toInt + b.toInt < 2 ^ 63) : (a + b).toInt = a.toInt + b.toInt := by
  rw [Int64.toInt_add, Int.bmod_eq_of_le] <;> omega

theorem toInt_sub_of_fits {a b : Int64} (hlo : -2 ^ 63 ≤ a.toInt - b.toInt)
    (hhi : a.toInt - b.toInt < 2 ^ 63) : (a - b).toInt = a.toInt - b.toInt := by
  rw [Int64.toInt_sub, Int.bmod_eq_of_le] <;> omega

/-- The remainder has the sign of the offset, and the quotient is far from the limits. -/
theorem offset_split (offsetUs : Int64) :
    ∃ q r : ℤ, (offsetUs / 1000000).toInt = q ∧ (offsetUs % 1000000).toInt = r ∧
      offsetUs.toInt = q * 1000000 + r ∧ -1000000 < r ∧ r < 1000000 ∧
      (0 ≤ q ∧ 0 ≤ r ∨ q ≤ 0 ∧ r ≤ 0) := by
  have hlo := offsetUs.le_toInt
  have hhi := offsetUs.toInt_lt
  have hsplit := Int.mul_tdiv_add_tmod offsetUs.toInt 1000000
  have hrlo := Int.lt_tmod_of_pos offsetUs.toInt (show (0 : ℤ) < 1000000 by norm_num)
  have hrhi := Int.tmod_lt_of_pos offsetUs.toInt (show (0 : ℤ) < 1000000 by norm_num)
  refine ⟨_, _, rfl, rfl, ?_⟩
  rw [Int64.toInt_div, Int64.toInt_mod, toInt_million, Int.bmod_eq_of_le (by omega) (by omega)]
  refine ⟨by omega, hrlo, hrhi, ?_⟩
  rcases le_total 0 offsetUs.toInt with h | h
  · have hr := Int.tmod_nonneg 1000000 h
    omega
  · have hr := Int.tmod_nonneg 1000000 (Int.neg_nonneg_of_nonpos h)
    rw [Int.neg_tmod] at hr
    omega

/-- A carry is one second. -/
theorem carry_eq {usec : Int64} (hlo : 1000000 ≤ usec.toInt) (hhi : usec.toInt < 2000000) :
    (usec / 1000000).toInt = 1 ∧ (usec % 1000000).toInt = usec.toInt - 1000000 := by
  have hnonneg : 0 ≤ usec.toInt := by omega
  have hq : usec.toInt / 1000000 = 1 := by omega
  rw [Int64.toInt_div, Int64.toInt_mod, toInt_million, Int.tdiv_eq_ediv_of_nonneg hnonneg,
    Int.tmod_eq_emod_of_nonneg hnonneg, hq]
  exact ⟨rfl, by omega⟩

/-- So is a borrow, which rounds up. -/
theorem borrow_eq {usec : Int64} (hlo : -1000000 < usec.toInt) (hhi : usec.toInt < 0) :
    (-usec + 999999) / 1000000 = 1 := by
  have hrest : (999999 : Int64).toInt = 999999 := rfl
  have hneg : (-usec).toInt = -usec.toInt := by
    rw [Int64.toInt_neg, Int.bmod_eq_of_le] <;> omega
  have hsum : (-usec + 999999).toInt = -usec.toInt + 999999 := by
    rw [toInt_add_of_fits] <;> omega
  have hnonneg : 0 ≤ -usec.toInt + 999999 := by omega
  have hq : (-usec.toInt + 999999) / 1000000 = 1 := by omega
  rw [← Int64.toInt_inj, Int64.toInt_div, hsum, toInt_million, Int.tdiv_eq_ediv_of_nonneg hnonneg,
    hq]
  rfl

/-! ## The step -/

/-- The seconds of the exact sum are a 64-bit number. -/
def Fits (tv : Timeval) (offsetUs : Int64) : Prop :=
  -2 ^ 63 ≤ (tv.micros + offsetUs.toInt) / 1000000 ∧ (tv.micros + offsetUs.toInt) / 1000000 < 2 ^ 63

instance (tv : Timeval) (offsetUs : Int64) : Decidable (Fits tv offsetUs) :=
  inferInstanceAs (Decidable (_ ∧ _))

theorem normal_of_toInt {sec usec : Int64} {s u total : ℤ} (hs : sec.toInt = s)
    (hu : usec.toInt = u) (hlo : 0 ≤ u) (hhi : u < 1000000) (htotal : s * 1000000 + u = total) :
    (⟨sec, usec⟩ : Timeval).Normal ∧ (⟨sec, usec⟩ : Timeval).micros = total := by
  subst hs hu
  exact ⟨(Timeval.normal_iff _).mpr ⟨hlo, hhi⟩, htotal⟩

theorem carry_exact {sec usec : Int64} (hlo : 1000000 ≤ usec.toInt) (hhi : usec.toInt < 2000000)
    (hsec : sec.toInt + 1 < 2 ^ 63) :
    (⟨sec + usec / 1000000, usec % 1000000⟩ : Timeval).Normal ∧
      (⟨sec + usec / 1000000, usec % 1000000⟩ : Timeval).micros = sec.toInt * 1000000 +
        usec.toInt := by
  obtain ⟨hdiv, hmod⟩ := carry_eq hlo hhi
  have hslo := sec.le_toInt
  have hnew : (sec + usec / 1000000).toInt = sec.toInt + 1 := by
    rw [toInt_add_of_fits] <;> rw [hdiv] <;> omega
  exact normal_of_toInt hnew hmod (by omega) (by omega) (by ring)

theorem borrow_exact {sec usec : Int64} (hlo : -1000000 < usec.toInt) (hhi : usec.toInt < 0)
    (hsec : -2 ^ 63 ≤ sec.toInt - 1) :
    (⟨sec - (-usec + 999999) / 1000000, usec + (-usec + 999999) / 1000000 * 1000000⟩ :
      Timeval).Normal ∧
      (⟨sec - (-usec + 999999) / 1000000, usec + (-usec + 999999) / 1000000 * 1000000⟩ :
        Timeval).micros =
        sec.toInt * 1000000 + usec.toInt := by
  have hshi := sec.toInt_lt
  rw [borrow_eq hlo hhi, Int64.one_mul]
  have hnew : (sec - 1).toInt = sec.toInt - 1 := by
    rw [toInt_sub_of_fits] <;> rw [Int64.toInt_one] <;> omega
  have hrest : (usec + 1000000).toInt = usec.toInt + 1000000 := by
    rw [toInt_add_of_fits] <;> rw [toInt_million] <;> omega
  exact normal_of_toInt hnew hrest (by omega) (by omega) (by ring)

theorem stepTime_exact {tv : Timeval} {offsetUs : Int64} (hnormal : tv.Normal)
    (hfits : Fits tv offsetUs) :
    (stepTime tv offsetUs).Normal ∧ (stepTime tv offsetUs).micros = tv.micros + offsetUs.toInt := by
  obtain ⟨q, r, hq, hr, hsplit, hrlo, hrhi, hsign⟩ := offset_split offsetUs
  obtain ⟨hulo, huhi⟩ := tv.normal_iff.mp hnormal
  have hslo := tv.tvSec.le_toInt
  have hshi := tv.tvSec.toInt_lt
  obtain ⟨hflo, hfhi⟩ := hfits
  rw [Timeval.micros] at hflo hfhi
  -- the first sum of the seconds lies between the old seconds and the new ones
  have hsec : (tv.tvSec + offsetUs / 1000000).toInt = tv.tvSec.toInt + q := by
    rw [toInt_add_of_fits] <;> omega
  have husec : (tv.tvUsec + offsetUs % 1000000).toInt = tv.tvUsec.toInt + r := by
    rw [toInt_add_of_fits] <;> omega
  have htotal : tv.micros + offsetUs.toInt =
      (tv.tvSec + offsetUs / 1000000).toInt * 1000000 + (tv.tvUsec + offsetUs % 1000000).toInt := by
    rw [Timeval.micros, hsec, husec, hsplit]
    ring
  rw [htotal, stepTime]
  dsimp only
  generalize tv.tvSec + offsetUs / 1000000 = sec at hsec ⊢
  generalize tv.tvUsec + offsetUs % 1000000 = usec at husec ⊢
  split_ifs with hcarry hborrow
  · rw [Int64.le_iff_toInt_le, toInt_million] at hcarry
    exact carry_exact hcarry (by omega) (by omega)
  · rw [Int64.lt_iff_toInt_lt, Int64.toInt_zero] at hborrow
    exact borrow_exact (by omega) hborrow (by omega)
  · rw [Int64.le_iff_toInt_le, toInt_million] at hcarry
    rw [Int64.lt_iff_toInt_lt, Int64.toInt_zero] at hborrow
    exact normal_of_toInt rfl rfl (by omega) (by omega) rfl

/-- The time handed to `settimeofday` is the time now plus the offset, in microseconds below
a second. -/
theorem adjustSystemTimeByUs_exact (tv : Timeval) (offsetUs : Int64) (settimeofday : Timeval → Bool)
    (hnormal : 0 ≤ tv.tvUsec.toInt ∧ tv.tvUsec.toInt < 1000000) (hfits : Fits tv offsetUs) :
    ∃ tv', adjustSystemTimeByUs (some tv) settimeofday offsetUs = (settimeofday tv', some tv') ∧
      (0 ≤ tv'.tvUsec.toInt ∧ tv'.tvUsec.toInt < 1000000) ∧
      tv'.tvSec.toInt * 1000000 + tv'.tvUsec.toInt =
        tv.tvSec.toInt * 1000000 + tv.tvUsec.toInt + offsetUs.toInt := by
  obtain ⟨hnormal', hmicros⟩ := stepTime_exact (tv.normal_iff.mpr hnormal) hfits
  exact ⟨stepTime tv offsetUs, rfl, (Timeval.normal_iff _).mp hnormal', hmicros⟩

/-- A step back over the start of a second borrows. -/
theorem step_back_borrows :
    ∃ tv', adjustSystemTimeByUs (some ⟨5, 200000⟩) (fun _ => true) (-1300000) = (true, some tv') ∧
      (0 ≤ tv'.tvUsec.toInt ∧ tv'.tvUsec.toInt < 1000000) ∧
      tv'.tvSec.toInt * 1000000 + tv'.tvUsec.toInt =
        (5 : Int64).toInt * 1000000 + (200000 : Int64).toInt + (-1300000 : Int64).toInt :=
  adjustSystemTimeByUs_exact ⟨5, 200000⟩ (-1300000) (fun _ => true) (by decide) (by decide)

end CarNetwork.ClockSync
