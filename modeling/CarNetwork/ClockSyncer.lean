import Mathlib.Tactic
import CarNetwork.Conversions
import CarNetwork.DoubleRounding

/-!
# The clock syncer

Offset and round-trip samples, their averages, and the correction requested from
the operating system. `long long` values are integers; the conversions that lose
information are written out: the accumulator of `average` is an `int`, and its
quotient by the number of samples is an unsigned one. The doubles of the sample
formulas are all multiples of one half and stand as their number of halves.
-/
namespace CarNetwork.ClockSync

open CarNetwork.Conversions CarNetwork.DoubleRounding

/-- The value of a number after conversion to `int`. -/
def toInt (z : ℤ) : ℤ := z.bmod (2 ^ 32)

/-- The value of a number after conversion to `long long`. -/
def toLongLong (z : ℤ) : ℤ := z.bmod (2 ^ 64)

/-- A double, given by its number of halves, after conversion to `long long`: without its
fraction, and the least `long long` where that is out of range. -/
def halvesToLongLong (h : ℤ) : ℤ := if InLongLong (h.tdiv 2) then h.tdiv 2 else -9223372036854775808

def MAX_SAMPLES_IN_CLOCK_SYNCER : ℕ := 1000000

/-- The measuring algorithm, fixed by the first sample. -/
inductive Algorithm
  | undefined
  | ntp
  | ptp
  deriving DecidableEq, Repr

structure ClockSyncer where
  rttSamples : List ℤ := []
  offsetSamples : List ℤ := []
  alg : Algorithm := .undefined
  avgRtt : ℤ := 0
  avgOffset : ℤ := 0
  deriving DecidableEq, Repr

/-- `std::accumulate` with the `int` initial value `0`, divided by `size()`. -/
def average (v : List ℤ) : ℤ :=
  if v.isEmpty then 0
  else toLongLong ((v.foldl (fun acc x => toInt (acc + x)) 0 % 2 ^ 64) / v.length)

/-- Keep the last samples only. -/
def keepLast (v : List ℤ) : List ℤ := v.drop (v.length - MAX_SAMPLES_IN_CLOCK_SYNCER)

/-- The offset and the round trip that `addNtpSample` computes. -/
def ntpMeasurement (localSend localRecv remoteTime : ℤ) : ℤ × ℤ :=
  let rtt := toLongLong (localRecv - localSend)
  -- `rtt / 2.0` has as many halves as the double of `rtt` has ones
  let estimate := roundDouble (2 * roundDouble remoteTime + roundDouble rtt)
  (halvesToLongLong (roundDouble (estimate - 2 * roundDouble localRecv)), rtt)

/-- The offset and the delay that `addPtpSample` computes from four times. -/
def ptpMeasurement (t1 t2 t3 t4 : ℤ) : ℤ × ℤ :=
  let A := toLongLong (t2 - t1)
  let B := toLongLong (t4 - t3)
  -- the `long long` becomes a double before it is halved
  (halvesToLongLong (roundDouble (toLongLong (A - B))),
    halvesToLongLong (roundDouble (toLongLong (A + B))))

namespace ClockSyncer

def addOffsetMeasurement (c : ClockSyncer) (offset qualityValue : ℤ) : ClockSyncer :=
  let rttSamples := keepLast (c.rttSamples ++ [qualityValue])
  let offsetSamples := keepLast (c.offsetSamples ++ [offset])
  { c with
    rttSamples
    offsetSamples
    avgRtt := average rttSamples
    avgOffset := average offsetSamples }

/-- The sample is refused once the other algorithm has been selected. -/
def addPtpSample (c : ClockSyncer) (offset delay : ℤ) : ClockSyncer :=
  if c.alg = .ntp then c else { c with alg := .ptp }.addOffsetMeasurement offset delay

def addNtpSample (c : ClockSyncer) (localSend localRecv remoteTime : ℤ) : ClockSyncer :=
  if c.alg = .ptp then c
  else
    let m := ntpMeasurement localSend localRecv remoteTime
    { c with alg := .ntp }.addOffsetMeasurement m.1 m.2

/-- The `addPtpSample` with four arguments. -/
def addPtpSampleTimes (c : ClockSyncer) (t1 t2 t3 t4 : ℤ) : ClockSyncer :=
  if c.alg = .ntp then c
  else
    let m := ptpMeasurement t1 t2 t3 t4
    { c with alg := .ptp }.addOffsetMeasurement m.1 m.2

def getAverageOffset (c : ClockSyncer) : ℤ := c.avgOffset

/-- The correction, in microseconds, that `applySync` hands to `adjust_time_gradually`. -/
def applySync (c : ClockSyncer) : ℤ := c.getAverageOffset

end ClockSyncer

/-- `adjust_time_gradually`: the nanoseconds that `adjtimex` is given. The product is formed
in a `long long`, and one that does not fit leaves its low 64 bits. -/
def adjustTimeGradually (offsetUs : ℤ) : ℤ := toLongLong (offsetUs * 1000)

theorem average_singleton (x : ℤ) (hlo : -2 ^ 31 ≤ x) (hhi : x < 2 ^ 31) : average [x] = x := by
  have hacc : toInt (0 + x) = x := by
    rw [zero_add, toInt, Int.bmod_eq_of_le] <;> omega
  simp only [average, List.isEmpty_cons, List.foldl_cons, List.foldl_nil, hacc,
    List.length_singleton, Bool.false_eq_true, if_false, Nat.cast_one, Int.ediv_one, toLongLong]
  have hmod : (x % 2 ^ 64).bmod (2 ^ 64) = x.bmod (2 ^ 64) := by
    exact_mod_cast Int.emod_bmod x (2 ^ 64)
  rw [hmod, Int.bmod_eq_of_le] <;> omega

/-- A first sample is its own average, as long as it fits an `int`. -/
theorem applySync_first (offset delay : ℤ) (hlo : -2 ^ 31 ≤ offset) (hhi : offset < 2 ^ 31) :
    (({} : ClockSyncer).addPtpSample offset delay).applySync = offset := by
  have hkeep : keepLast [offset] = [offset] := by
    simp [keepLast, MAX_SAMPLES_IN_CLOCK_SYNCER]
  simpa [ClockSyncer.addPtpSample, ClockSyncer.addOffsetMeasurement, ClockSyncer.applySync,
    ClockSyncer.getAverageOffset, hkeep] using average_singleton offset hlo hhi

end CarNetwork.ClockSync
