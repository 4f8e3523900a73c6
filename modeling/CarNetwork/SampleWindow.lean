import CarNetwork.ClockSyncer
import CarNetwork.SlidingWindow

/-!
# The syncer as a sliding window

The three ways to add a sample differ in what they measure and in the algorithm they
select. Apart from that the syncer is a window, owned by the algorithm of the first call,
and its two vectors are the two components of the measurements in the window.
-/
namespace CarNetwork.ClockSync

open CarNetwork.SlidingWindow CarNetwork.DoubleRounding CarNetwork.Conversions

/-- The algorithms a call can select. -/
inductive Method
  | ntp
  | ptp
  deriving DecidableEq, Repr

def Method.alg : Method → Algorithm
  | .ntp => .ntp
  | .ptp => .ptp

/-- The calls that add a sample, with their arguments. -/
inductive Call
  | addNtpSample (localSend localRecv remoteTime : ℤ)
  | addPtpSampleTimes (t1 t2 t3 t4 : ℤ)
  | addPtpSample (offset delay : ℤ)
  deriving DecidableEq, Repr

namespace Call

def method : Call → Method
  | addNtpSample .. => .ntp
  | addPtpSampleTimes .. => .ptp
  | addPtpSample .. => .ptp

/-- The offset and the round trip or delay that a call measures. -/
def measurement : Call → ℤ × ℤ
  | addNtpSample localSend localRecv remoteTime => ntpMeasurement localSend localRecv remoteTime
  | addPtpSampleTimes t1 t2 t3 t4 => ptpMeasurement t1 t2 t3 t4
  | addPtpSample offset delay => (offset, delay)

def entry (k : Call) : Method × (ℤ × ℤ) := (k.method, k.measurement)

end Call

def ClockSyncer.call (c : ClockSyncer) : Call → ClockSyncer
  | .addNtpSample localSend localRecv remoteTime => c.addNtpSample localSend localRecv remoteTime
  | .addPtpSampleTimes t1 t2 t3 t4 => c.addPtpSampleTimes t1 t2 t3 t4
  | .addPtpSample offset delay => c.addPtpSample offset delay

/-- A new syncer after these calls. -/
def sampled (calls : List Call) : ClockSyncer := calls.foldl ClockSyncer.call {}

/-- The syncer that a window stands for. -/
def ofWindow (w : Window Method (ℤ × ℤ)) : ClockSyncer where
  rttSamples := w.items.map Prod.snd
  offsetSamples := w.items.map Prod.fst
  alg := w.owner.elim .undefined Method.alg
  avgRtt := average (w.items.map Prod.snd)
  avgOffset := average (w.items.map Prod.fst)

/-! ## The calls push -/

theorem keepLast_eq_rtake (v : List ℤ) : keepLast v = v.rtake MAX_SAMPLES_IN_CLOCK_SYNCER := rfl

/-- Whichever call it is, a sample is added unless the other algorithm is selected. -/
theorem call_eq (c : ClockSyncer) (k : Call) :
    c.call k =
      if c.alg = .undefined ∨ c.alg = k.method.alg then
        { c with alg := k.method.alg }.addOffsetMeasurement k.measurement.1 k.measurement.2
      else c := by
  cases k <;> cases h : c.alg <;>
    simp [ClockSyncer.call, ClockSyncer.addNtpSample, ClockSyncer.addPtpSampleTimes,
      ClockSyncer.addPtpSample, Call.method, Call.measurement, Method.alg, h]

theorem ofWindow_accepts (w : Window Method (ℤ × ℤ)) (i : Method) :
    ((ofWindow w).alg = .undefined ∨ (ofWindow w).alg = i.alg) ↔ w.owner = none ∨
      w.owner = some i := by
  obtain ⟨owner, items⟩ := w
  cases owner with
  | none => simp [ofWindow]
  | some j => cases i <;> cases j <;> simp [ofWindow, Method.alg]

/-- A call to the syncer is a push to the window. -/
theorem call_ofWindow (w : Window Method (ℤ × ℤ)) (k : Call) :
    (ofWindow w).call k = ofWindow (w.push MAX_SAMPLES_IN_CLOCK_SYNCER k.entry) := by
  have haccepts := ofWindow_accepts w k.method
  rw [call_eq, Call.entry]
  by_cases h : w.owner = none ∨ w.owner = some k.method
  · rw [if_pos (haccepts.mpr h), push_of_accepted _ h]
    simp only [ClockSyncer.addOffsetMeasurement, ofWindow, keepLast_eq_rtake, map_rtake,
      List.map_append, List.map_singleton, Option.elim_some]
  · rw [if_neg (haccepts.not.mpr h), push_of_refused _ h]

/-- The syncer refines the window over whole histories. -/
theorem sampled_eq (calls : List Call) :
    sampled calls = ofWindow (fill MAX_SAMPLES_IN_CLOCK_SYNCER (calls.map Call.entry)) := by
  induction calls using List.reverseRecOn with
  | nil => rfl
  | append_singleton calls k ih =>
    have hcall : sampled (calls ++ [k]) = (sampled calls).call k := by simp [sampled]
    rw [hcall, ih, call_ofWindow]
    simp [fill]

/-! ## What the syncer holds -/

/-- The algorithm of the first call. -/
def firstMethod (calls : List Call) : Option Method := calls.head?.map Call.method

/-- The calls of the algorithm of the first call. -/
def ownCalls (calls : List Call) : List Call :=
  calls.filter fun k => some k.method = firstMethod calls

theorem chosen_entries (calls : List Call) : chosen (calls.map Call.entry) = firstMethod calls := by
  cases calls <;> rfl

theorem own_entries (calls : List Call) :
    own (calls.map Call.entry) = (ownCalls calls).map Call.measurement := by
  simp only [own, chosen_entries, ownCalls, List.filter_map, List.map_map]
  rfl

theorem sampled_eq_ofWindow (calls : List Call) :
    sampled calls = ofWindow ⟨firstMethod calls,
      ((ownCalls calls).rtake MAX_SAMPLES_IN_CLOCK_SYNCER).map Call.measurement⟩ := by
  rw [sampled_eq, fill_eq, chosen_entries, own_entries, map_rtake]

/-- After any calls the syncer has the algorithm of the first one, its vectors are the
offsets and the round trips of the last calls of that algorithm, as many as there were or
as it keeps, and a call of the other algorithm changes nothing. -/
theorem syncer_is_window (calls : List Call) :
    (sampled calls).alg = (firstMethod calls).elim .undefined Method.alg ∧
    (sampled calls).offsetSamples =
      ((ownCalls calls).rtake MAX_SAMPLES_IN_CLOCK_SYNCER).map (fun k => k.measurement.1) ∧
    (sampled calls).rttSamples =
      ((ownCalls calls).rtake MAX_SAMPLES_IN_CLOCK_SYNCER).map (fun k => k.measurement.2) ∧
    (sampled calls).offsetSamples.length = (sampled calls).rttSamples.length ∧
    (sampled calls).offsetSamples.length = min (ownCalls calls).length MAX_SAMPLES_IN_CLOCK_SYNCER ∧
    ∀ k i, firstMethod calls = some i → k.method ≠ i → (sampled calls).call k = sampled calls := by
  rw [sampled_eq_ofWindow]
  refine ⟨rfl, ?_, ?_, ?_, ?_, ?_⟩
  · simp only [ofWindow, List.map_map]
    rfl
  · simp only [ofWindow, List.map_map]
    rfl
  · simp only [ofWindow, List.length_map]
  · simp only [ofWindow, List.length_map, length_rtake]
  · intro k i hi hk
    rw [call_ofWindow]
    exact congrArg ofWindow (push_of_other hi hk)

/-- An NTP sample in between is refused. -/
example : sampled [.addPtpSampleTimes 100 140 150 170, .addNtpSample 0 10 7,
      .addPtpSample (-3) 12] =
    sampled [.addPtpSample 10 30, .addPtpSample (-3) 12] := by
  decide +kernel

end CarNetwork.ClockSync
