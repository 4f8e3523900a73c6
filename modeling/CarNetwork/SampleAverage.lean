import CarNetwork.ClockSyncer
import CarNetwork.Conversions

/-!
# What `average` computes

The sum is kept in an `int` and then divided as an unsigned 64-bit number. The result is
the mean, truncated towards zero, as long as the sum fits an `int` and is not negative; a
single negative sample is also right, because the division by one is undone by the
conversion back. Everything else is off: a sum outside of `int` wraps around, and the
quotient of a negative sum by two or more is a huge positive number. Where the addition to
a sample overflows `long long`, the model wraps around too.
-/
namespace CarNetwork.ClockSync

open CarNetwork.Conversions

/-- Every step of the accumulation wraps around; so does the sum. -/
theorem foldl_toInt (v : List ℤ) (a : ℤ) :
    v.foldl (fun acc x => toInt (acc + x)) (toInt a) = toInt (a + v.sum) := by
  induction v generalizing a with
  | nil => simp
  | cons x v ih =>
    have hstep : toInt (toInt a + x) = toInt (a + x) := Int.bmod_add_bmod
    rw [List.foldl_cons, hstep, ih, List.sum_cons, add_assoc]

theorem toInt_bounds (z : ℤ) : -2 ^ 31 ≤ toInt z ∧ toInt z < 2 ^ 31 := by
  have hlo := Int.le_bmod (x := z) (m := 2 ^ 32) (by norm_num)
  have hhi := Int.bmod_lt (x := z) (m := 2 ^ 32) (by norm_num)
  unfold toInt
  constructor <;> omega

theorem toInt_eq_self {z : ℤ} (hlo : -2 ^ 31 ≤ z) (hhi : z < 2 ^ 31) : toInt z = z := by
  rw [toInt, Int.bmod_eq_of_le] <;> omega

/-- Conversion to `int` drops a multiple of `2 ^ 32`. -/
theorem exists_toInt_eq (z : ℤ) : ∃ k, z = toInt z + 2 ^ 32 * k := by
  refine ⟨z.bdiv (2 ^ 32), ?_⟩
  have h := Int.bmod_add_bdiv z (2 ^ 32)
  rw [toInt]
  exact_mod_cast h.symm

/-- The three ways the division goes. -/
theorem average_eq {v : List ℤ} (hne : v ≠ []) :
    average v =
      if 0 ≤ toInt v.sum then toInt v.sum / v.length
      else if v.length = 1 then toInt v.sum
      else (toInt v.sum + 2 ^ 64) / v.length := by
  have hsum : v.foldl (fun acc x => toInt (acc + x)) 0 = toInt v.sum := by
    have hfold := foldl_toInt v 0
    rwa [zero_add] at hfold
  have hpos : 0 < (v.length : ℤ) := by exact_mod_cast List.length_pos_iff.mpr hne
  obtain ⟨hlo, hhi⟩ := toInt_bounds v.sum
  rw [average, if_neg (by simp [hne]), hsum, toLongLong]
  generalize toInt v.sum = s at hlo hhi ⊢
  split_ifs with hs hone
  · have hmod : s % 2 ^ 64 = s := by omega
    have h0 : 0 ≤ s / v.length := Int.ediv_nonneg hs hpos.le
    have hle : s / v.length ≤ s := Int.ediv_le_self _ hs
    rw [hmod, Int.bmod_eq_of_le (by omega) (by omega)]
  · have hback : (s % 2 ^ 64).bmod (2 ^ 64) = s.bmod (2 ^ 64) := by
      exact_mod_cast Int.emod_bmod s (2 ^ 64)
    rw [hone, Nat.cast_one, Int.ediv_one, hback, Int.bmod_eq_of_le (by omega) (by omega)]
  · have hmod : s % 2 ^ 64 = s + 2 ^ 64 := by omega
    have h0 : 0 ≤ (s + 2 ^ 64) / v.length := Int.ediv_nonneg (by omega) hpos.le
    have hlt : (s + 2 ^ 64) / v.length < 2 ^ 63 := (Int.ediv_lt_iff_lt_mul hpos).mpr (by omega)
    rw [hmod, Int.bmod_eq_of_le (by omega) (by omega)]

/-- The sum fits an `int` and is not negative, unless there is one sample only. -/
def Averageable (v : List ℤ) : Prop :=
  (-2 ^ 31 ≤ v.sum ∧ v.sum < 2 ^ 31) ∧ (0 ≤ v.sum ∨ v.length = 1)

instance (v : List ℤ) : Decidable (Averageable v) := inferInstanceAs (Decidable (_ ∧ _))

theorem average_of_averageable {v : List ℤ} (hne : v ≠ []) (h : Averageable v) :
    average v = v.sum.tdiv v.length := by
  obtain ⟨⟨hlo, hhi⟩, hsign⟩ := h
  rw [average_eq hne, toInt_eq_self hlo hhi]
  split_ifs with h0 hone
  · exact (Int.tdiv_eq_ediv_of_nonneg h0).symm
  · rw [hone, Nat.cast_one, Int.tdiv_one]
  · omega

/-- A quotient of a number that fits 64 bits is no quotient of one that wrapped around. -/
theorem averageable_of_average {v : List ℤ} (hne : v ≠ []) (hfit : InLongLong v.sum)
    (hlen : v.length ≤ MAX_SAMPLES_IN_CLOCK_SYNCER) (h : average v = v.sum.tdiv v.length) :
    Averageable v := by
  have hpos : 0 < (v.length : ℤ) := by exact_mod_cast List.length_pos_iff.mpr hne
  have hmax : (v.length : ℤ) ≤ 1000000 := by exact_mod_cast hlen
  obtain ⟨hlo, hhi⟩ := toInt_bounds v.sum
  obtain ⟨k, hk⟩ := exists_toInt_eq v.sum
  have hround := Int.mul_tdiv_add_tmod v.sum v.length
  have hrem := Int.tmod_lt_of_pos v.sum hpos
  have hrem' := Int.lt_tmod_of_pos v.sum hpos
  rw [average_eq hne] at h
  unfold InLongLong at hfit
  unfold Averageable
  split_ifs at h with h0 hone
  · have hfloor := Int.mul_ediv_add_emod (toInt v.sum) v.length
    have hmod := Int.emod_nonneg (toInt v.sum) hpos.ne'
    have hmod' := Int.emod_lt_of_pos (toInt v.sum) hpos
    rw [h] at hfloor
    omega
  · rw [hone, Nat.cast_one, Int.tdiv_one] at h
    omega
  · have hfloor := Int.mul_ediv_add_emod (toInt v.sum + 2 ^ 64) v.length
    have hmod' := Int.emod_lt_of_pos (toInt v.sum + 2 ^ 64) hpos
    rw [h] at hfloor
    omega

/-- A mean is between any bounds of the samples. -/
theorem tdiv_bounds {v : List ℤ} (hne : v ≠ []) (hsign : 0 ≤ v.sum ∨ v.length = 1) {lo hi : ℤ}
    (hlo : ∀ x ∈ v, lo ≤ x) (hhi : ∀ x ∈ v, x ≤ hi) :
    lo ≤ v.sum.tdiv v.length ∧ v.sum.tdiv v.length ≤ hi := by
  have hpos : 0 < (v.length : ℤ) := by exact_mod_cast List.length_pos_iff.mpr hne
  have hsumlo : lo * v.length ≤ v.sum := by
    simpa [mul_comm] using List.card_nsmul_le_sum v lo hlo
  have hsumhi : v.sum ≤ hi * v.length := by
    simpa [mul_comm] using List.sum_le_card_nsmul v hi hhi
  rcases hsign with h0 | hone
  · rw [Int.tdiv_eq_ediv_of_nonneg h0]
    refine ⟨(Int.le_ediv_iff_mul_le hpos).mpr hsumlo, ?_⟩
    exact Int.le_of_lt_add_one
      ((Int.ediv_lt_iff_lt_mul hpos).mpr (by linarith [add_mul hi 1 (v.length : ℤ)]))
  · rw [hone, Nat.cast_one, mul_one] at hsumlo hsumhi
    rw [hone, Nat.cast_one, Int.tdiv_one]
    exact ⟨hsumlo, hsumhi⟩

/-! ## The kept samples -/

theorem length_keepLast_le (v : List ℤ) : (keepLast v).length ≤ MAX_SAMPLES_IN_CLOCK_SYNCER := by
  rw [keepLast, List.length_drop]
  omega

theorem keepLast_snoc_ne_nil (v : List ℤ) (x : ℤ) : keepLast (v ++ [x]) ≠ [] := by
  intro h
  have hlen := congrArg List.length h
  simp only [keepLast, List.length_drop, List.length_append, List.length_singleton, List.length_nil,
    MAX_SAMPLES_IN_CLOCK_SYNCER] at hlen
  omega

/-- A syncer after these measurements, offset and quality, one after another. -/
def measured (calls : List (ℤ × ℤ)) : ClockSyncer :=
  calls.foldl (fun c m => c.addOffsetMeasurement m.1 m.2) {}

theorem measured_snoc (calls : List (ℤ × ℤ)) (m : ℤ × ℤ) :
    measured (calls ++ [m]) = (measured calls).addOffsetMeasurement m.1 m.2 := by
  simp [measured]

/-- The averages are those of the samples that are kept, of which there is at least one. -/
theorem measured_spec {calls : List (ℤ × ℤ)} (hne : calls ≠ []) :
    (measured calls).offsetSamples ≠ [] ∧ (measured calls).rttSamples ≠ [] ∧
      (measured calls).avgOffset = average (measured calls).offsetSamples ∧
      (measured calls).avgRtt = average (measured calls).rttSamples := by
  obtain ⟨before, m, rfl⟩ := (List.eq_nil_or_concat calls).resolve_left hne
  rw [List.concat_eq_append, measured_snoc]
  dsimp only [ClockSyncer.addOffsetMeasurement]
  exact ⟨keepLast_snoc_ne_nil _ _, keepLast_snoc_ne_nil _ _, rfl, rfl⟩

/-- `average` returns the exact mean, truncated towards zero, where the sum fits an `int`
and is not negative or the only sample, and for vectors as long as the program keeps
them nowhere else; so the averages of a syncer are between the bounds of its samples as long
as these have such a sum. -/
theorem averages_exact (v : List ℤ) (hv : v ≠ []) (calls : List (ℤ × ℤ)) (hcalls : calls ≠ []) :
    (Averageable v → average v = v.sum.tdiv v.length) ∧
    (InLongLong v.sum → v.length ≤ MAX_SAMPLES_IN_CLOCK_SYNCER → average v = v.sum.tdiv v.length →
      Averageable v) ∧
    (Averageable (measured calls).offsetSamples → ∀ lo hi,
      (∀ x ∈ (measured calls).offsetSamples, lo ≤ x ∧ x ≤ hi) →
        lo ≤ (measured calls).avgOffset ∧ (measured calls).avgOffset ≤ hi) ∧
    (Averageable (measured calls).rttSamples → ∀ lo hi,
      (∀ x ∈ (measured calls).rttSamples, lo ≤ x ∧ x ≤ hi) →
        lo ≤ (measured calls).avgRtt ∧ (measured calls).avgRtt ≤ hi) := by
  have hbetween {v : List ℤ} (hne : v ≠ []) (h : Averageable v) (lo hi : ℤ) (hv : ∀ x ∈ v,
      lo ≤ x ∧ x ≤ hi) :
      lo ≤ average v ∧ average v ≤ hi := by
    rw [average_of_averageable hne h]
    exact tdiv_bounds hne h.2 (fun x hx => (hv x hx).1) fun x hx => (hv x hx).2
  obtain ⟨hoffsets, hrtts, hoffset, hrtt⟩ := measured_spec hcalls
  rw [hoffset, hrtt]
  exact ⟨average_of_averageable hv, averageable_of_average hv, hbetween hoffsets, hbetween hrtts⟩

/-- Two samples above zero are averaged, and after two measurements the averages are
between the measured values. -/
theorem two_samples_averaged :
    average [3, 8] = 5 ∧ Averageable [3, 8] ∧
      (3 ≤ (measured [(3, 20), (8, 24)]).avgOffset ∧ (measured [(3, 20), (8, 24)]).avgOffset ≤ 8) ∧
      (20 ≤ (measured [(3, 20), (8, 24)]).avgRtt ∧ (measured [(3, 20), (8, 24)]).avgRtt ≤ 24) := by
  obtain ⟨hexact, honly, hoffset, hrtt⟩ :=
    averages_exact [3, 8] (by decide) [(3, 20), (8, 24)] (by decide)
  refine ⟨hexact (by decide), honly (by decide) (by decide) (by decide), ?_⟩
  exact ⟨hoffset (by decide) 3 8 (by decide), hrtt (by decide) 20 24 (by decide)⟩

/-- Two samples of minus ten have an average of more than nine quintillions. -/
theorem negative_samples_overflow :
    InLongLong (List.sum [-10, -10]) ∧ average [-10, -10] = 9223372036854775798 ∧
      (List.sum [-10, -10]).tdiv (List.length [-10, -10]) = -10 ∧
      (measured [(-10, 20), (-10, 20)]).avgOffset = 9223372036854775798 ∧
      (measured [(-10, 20), (-10, 20)]).offsetSamples = [-10, -10] := by
  decide

end CarNetwork.ClockSync
