import CarNetwork.ClockCorrection
import CarNetwork.SampleAverage
import CarNetwork.SampleWindow

/-!
# What earlier samples do to a synchronised clock

The correction is the average of all samples kept so far, also of those that were
measured before earlier corrections. A worker whose clock is right is therefore
moved again by its history, unless the sum of the history, as the `int` that
`average` accumulates in, is neither negative nor as large as the number of
samples.
-/
namespace CarNetwork.ClockSync

theorem average_eq_zero_iff {v : List ℤ} (hne : v ≠ [])
    (hmax : v.length ≤ MAX_SAMPLES_IN_CLOCK_SYNCER) :
    average v = 0 ↔ 0 ≤ toInt v.sum ∧ toInt v.sum < v.length := by
  have hpos : 0 < (v.length : ℤ) := by exact_mod_cast List.length_pos_iff.mpr hne
  have hmax' : (v.length : ℤ) ≤ 1000000 := by exact_mod_cast hmax
  have hlo := (toInt_bounds v.sum).1
  rw [average_eq hne]
  split_ifs with h0 hone
  · constructor
    · intro hzero
      have hlt := Int.lt_ediv_add_one_mul_self (toInt v.sum) hpos
      rw [hzero, zero_add, one_mul] at hlt
      exact ⟨h0, hlt⟩
    · rintro ⟨-, hlt⟩
      exact Int.ediv_eq_zero_of_lt h0 hlt
  · omega
  · -- a negative sum becomes a huge unsigned one
    have hhuge : 1 ≤ (toInt v.sum + 2 ^ 64) / v.length :=
      (Int.le_ediv_iff_mul_le hpos).mpr (by omega)
    omega

/-- Samples thrown away once are not missed later. -/
theorem keepLast_keepLast_snoc (v : List ℤ) (x : ℤ) :
    keepLast (keepLast v ++ [x]) = keepLast (v ++ [x]) :=
  SlidingWindow.rtake_rtake_snoc MAX_SAMPLES_IN_CLOCK_SYNCER v x

/-- A syncer that has been given these samples, offset and round trip, one after
another. -/
def record (history : List (ℤ × ℤ)) : ClockSyncer :=
  history.foldl (fun c sample => c.addPtpSample sample.1 sample.2) {}

theorem record_snoc (history : List (ℤ × ℤ)) (sample : ℤ × ℤ) :
    record (history ++ [sample]) = (record history).addPtpSample sample.1 sample.2 := by
  simp [record]

theorem record_spec (history : List (ℤ × ℤ)) :
    (record history).alg ≠ .ntp ∧ (record history).offsetSamples = keepLast
      (history.map Prod.fst) := by
  induction history using List.reverseRecOn with
  | nil => exact ⟨by simp [record], by simp [record, keepLast]⟩
  | append_singleton history sample ih =>
    obtain ⟨halg, hsamples⟩ := ih
    rw [record_snoc, ClockSyncer.addPtpSample, if_neg halg, ClockSyncer.addOffsetMeasurement]
    refine ⟨by simp, ?_⟩
    simp only [hsamples, keepLast_keepLast_snoc, List.map_append, List.map_cons, List.map_nil]

/-- The correction after one more sample. -/
theorem applySync_record (history : List (ℤ × ℤ)) (offset delay : ℤ) :
    ((record history).addPtpSample offset delay).applySync =
      average (keepLast (history.map Prod.fst ++ [offset])) := by
  obtain ⟨halg, hsamples⟩ := record_spec history
  simp only [ClockSyncer.addPtpSample, if_neg halg, ClockSyncer.addOffsetMeasurement,
    ClockSyncer.applySync, ClockSyncer.getAverageOffset, hsamples, keepLast_keepLast_snoc]

/-- The offsets that are still kept when one more sample has come. -/
def recent (history : List (ℤ × ℤ)) : List ℤ :=
  (history.map Prod.fst).drop (history.length + 1 - MAX_SAMPLES_IN_CLOCK_SYNCER)

theorem keepLast_snoc_eq (history : List (ℤ × ℤ)) (x : ℤ) :
    keepLast (history.map Prod.fst ++ [x]) = recent history ++ [x] := by
  have hle : history.length + 1 - MAX_SAMPLES_IN_CLOCK_SYNCER ≤ (history.map Prod.fst).length := by
    rw [List.length_map, MAX_SAMPLES_IN_CLOCK_SYNCER]
    omega
  rw [keepLast, recent, List.length_append, List.length_map, List.length_singleton,
    List.drop_append_of_le_length hle]

/-- A sample without offset leads to no correction exactly when the sum of the kept
offsets is between zero and their number. -/
theorem applySync_zero_iff (history : List (ℤ × ℤ)) (delay : ℤ) :
    ((record history).addPtpSample 0 delay).applySync = 0 ↔
      0 ≤ toInt (recent history).sum ∧ toInt (recent history).sum ≤ (recent history).length := by
  have hne := keepLast_snoc_ne_nil (history.map Prod.fst) 0
  have hmax := length_keepLast_le (history.map Prod.fst ++ [0])
  rw [applySync_record, average_eq_zero_iff hne hmax, keepLast_snoc_eq]
  simp only [List.sum_append, List.sum_singleton, add_zero, List.length_append,
    List.length_singleton]
  push_cast
  omega

end CarNetwork.ClockSync

namespace CarNetwork.Protocol

open CarNetwork.ByteText CarNetwork.Ethernet CarNetwork.ClockSync

section History

variable {b : UInt8} {master worker : Instance} {request : AsyncCapsule}
  {ctl : Endpoint} {t : UInt64}
  {stray : ℤ → ℤ} {now1 now2 now4 now5 : ℕ → UInt64} {delay : ℤ} {history : List (ℤ × ℤ)}

/-- A round between equal clocks, with equal delays both ways and after any history,
asks for no correction exactly when the kept offsets of the history add up, as an
`int`, to something between zero and their number. -/
theorem synchronised_round_iff (hmaster : master.currentGroupId = b.toNat)
    (hworker : worker.currentGroupId = b.toNat) (hm : master.isMaster = true)
    (hw : worker.isMaster = false) (hhistory : worker.clockSyncer = record history)
    (hreq : request.payload = Emission.syncReq.wire SECRET_KEY worker ctl t)
    (h2 : ((now2 0).toNat : ℤ) = (now1 0).toNat + delay)
    (h4 : ((now4 0).toNat : ℤ) = (now1 0).toNat + 2 * delay) :
    ∃ correction, exchange stray master worker request now1 now2 now4 now5 = some correction ∧
      (correction = 0 ↔
        0 ≤ toInt (recent history).sum ∧ toInt (recent history).sum ≤ (recent history).length) := by
  have h2' : ((now2 0).toNat : ℤ) = (now1 0).toNat + delay + 0 := by omega
  refine ⟨_, exchange_sample hmaster hworker hm hw hreq (by norm_num) (by norm_num) h2' h4, ?_⟩
  rw [hhistory]
  exact applySync_zero_iff history _

end History

/-- The worker of the other examples, with samples that it has recorded before. -/
def aWorkerAfter (history : List (ℤ × ℤ)) : Instance :=
  { aWorker with clockSyncer := record history }

/-- Offsets of both signs that cancel each other leave the clock alone. -/
theorem balanced_history_stays :
    ∃ correction, exchange (fun _ => 0) aMaster (aWorkerAfter [(40, 20), (-40, 22)]) aRequest
      (fun _ => 5000) (fun _ => 5010) (fun _ => 5020) (fun _ => 5030) = some correction ∧
      correction = 0 := by
  have hreads : ((5010 : UInt64).toNat : ℤ) = (5000 : UInt64).toNat + 10 ∧
      ((5020 : UInt64).toNat : ℤ) = (5000 : UInt64).toNat + 2 * 10 := ⟨rfl, rfl⟩
  have hreq : aRequest.payload =
      Emission.syncReq.wire SECRET_KEY (aWorkerAfter [(40, 20), (-40, 22)]) {} 0 := rfl
  have hrecent : recent [(40, 20), (-40, 22)] = [40, -40] := by
    simp [recent, MAX_SAMPLES_IN_CLOCK_SYNCER]
  obtain ⟨us, hus, hiff⟩ : ∃ correction, exchange (fun _ => 0) aMaster
      (aWorkerAfter [(40, 20), (-40, 22)]) aRequest (fun _ => 5000) (fun _ => 5010) (fun _ => 5020)
      (fun _ => 5030) = some correction ∧ (correction = 0 ↔
        0 ≤ toInt (recent [(40, 20), (-40, 22)]).sum ∧
          toInt (recent [(40, 20), (-40, 22)]).sum ≤ (recent [(40, 20), (-40, 22)]).length) :=
    synchronised_round_iff (b := 0) rfl rfl rfl rfl rfl hreq hreads.1 hreads.2
  exact ⟨us, hus, hiff.mpr (by rw [hrecent]; decide)⟩

/-- One offset of a millisecond, long corrected, moves the synchronised clock by half a
millisecond. -/
theorem old_offset_moves_clock :
    exchange (fun _ => 0) aMaster (aWorkerAfter [(1000, 20)]) aRequest
        (fun _ => 5000) (fun _ => 5010) (fun _ => 5020) (fun _ => 5030) = some 500 ∧
      ((5010 : ℤ) = 5000 + 10 ∧ (5020 : ℤ) = 5000 + 2 * 10) ∧ (500 : ℤ) ≠ 0 := by
  refine ⟨by decide +kernel, by norm_num, by norm_num⟩

end CarNetwork.Protocol
