import CarNetwork.ClockMessages

/-!
# What one clock exchange does to the worker's clock

A whole exchange through the receivers of both machines, from the request of the
worker to the correction that `applySync` asks for. The master computes the
worker's offset, worker minus master, and the worker applies it with the same
sign: the difference of the clocks is doubled where it should be taken away.
-/
namespace CarNetwork.Protocol

open CarNetwork.ByteText CarNetwork.Conversions CarNetwork.Ethernet CarNetwork.ClockSync

/-- The frame that an effect hands to the network. -/
def frameOf : Effect → Option AsyncCapsule
  | .transmit _ src dst payload => some ⟨src, dst, .ethernet, payload⟩
  | _ => none

/-- The correction, in microseconds, that an effect asks of the operating system. -/
def correctionOf : Effect → Option ℤ
  | .adjustTime us => some us
  | _ => none

/-- Reception by one side, and the first frame it answers with. -/
def answer (stray : ℤ → ℤ) (now : ℕ → UInt64) (p : Instance) (c : AsyncCapsule) :
    Option AsyncCapsule :=
  match update { now, stray } p c with
  | .ok (_, effects) => effects.findSome? frameOf
  | .error _ => none

/-- Reception by the worker, and the correction it leads to. -/
def correction (stray : ℤ → ℤ) (now : ℕ → UInt64) (p : Instance) (c : AsyncCapsule) : Option ℤ :=
  match update { now, stray } p c with
  | .ok (_, effects) => effects.findSome? correctionOf
  | .error _ => none

/-- A complete exchange, given the clock readings of each side: the request reaches the
master, its response the worker, the delay request the master, and the delay
response the worker. -/
def exchange (stray : ℤ → ℤ) (master worker : Instance) (request : AsyncCapsule)
    (now1 now2 now4 now5 : ℕ → UInt64) : Option ℤ := do
  let response ← answer stray now1 master request
  let delayReq ← answer stray now2 worker response
  let delayResp ← answer stray now4 master delayReq
  correction stray now5 worker delayResp

section Steps

variable {p q : Instance} {c : AsyncCapsule} {src : Endpoint} {t : UInt64} {now : ℕ → UInt64}
  {stray : ℤ → ℤ}

/-- An answer to a clock message is its handler's frame. -/
theorem answer_of_sync {e : Emission} (hp : c.payload = e.wire SECRET_KEY q src t) (he : e.Sync)
    (kind : SendKind) {src' dst : Endpoint} {payload : Bytes}
    (heffects : (handleSync { now, stray } p (received e q src t) c e).effects =
      [.transmit kind src' dst payload]) :
    answer stray now p c = some ⟨src', dst, .ethernet, payload⟩ := by
  have hu := update_sync now stray p hp he
  simp only [answer, hu, heffects]
  rfl

theorem answer_syncReq {b : UInt8} (hp : p.currentGroupId = b.toNat)
    (hq : q.currentGroupId = b.toNat) (hm : p.isMaster = true)
    (hc : c.payload = Emission.syncReq.wire SECRET_KEY q src t) :
    answer stray now p c = some ⟨⟨p.address, p.controlLocal.port⟩, c.src, .ethernet,
      (Emission.syncResp (now 0)).wire SECRET_KEY p p.controlLocal (now 1)⟩ := by
  refine answer_of_sync hc trivial (.control .SYNC_RESP) ?_
  rw [handleSync, if_pos (internal_of_group hp hq), onSyncReq, if_pos hm]
  exact sendControl_eq (length_clockBody_le _ (Or.inl ⟨_, rfl⟩))

theorem answer_syncResp {b : UInt8} {t1 : UInt64} (hp : p.currentGroupId = b.toNat)
    (hq : q.currentGroupId = b.toNat) (hw : p.isMaster = false)
    (hc : c.payload = (Emission.syncResp t1).wire SECRET_KEY q src t) :
    answer stray now p c = some ⟨⟨p.address, p.controlLocal.port⟩, c.src, .ethernet,
      (Emission.delayReq t1 (now 0) (now 0)).wire SECRET_KEY p p.controlLocal (now 1)⟩ := by
  refine answer_of_sync hc trivial (.control .DELAY_REQ) ?_
  have hbody : scanUnsignedLong (received (.syncResp t1) q src t).body = some (t1, []) :=
    scan_syncResp t1
  rw [handleSync, if_pos ⟨internal_of_group hp hq, hw⟩]
  simp only [onSyncResp, hbody, Option.map_some, Option.getD_some]
  exact sendControl_eq (length_clockBody_le _ (Or.inr (Or.inl ⟨_, _, _, rfl⟩)))

theorem answer_delayReq {b : UInt8} {t1 t2 t3 : UInt64} (hp : p.currentGroupId = b.toNat)
    (hq : q.currentGroupId = b.toNat) (hm : p.isMaster = true)
    (hc : c.payload = (Emission.delayReq t1 t2 t3).wire SECRET_KEY q src t) :
    answer stray now p c = some ⟨⟨p.address, p.controlLocal.port⟩, c.src, .ethernet,
      (Emission.delayResp (ptpOffset t1 t2 t3 (now 0)) (ptpRtt t1 t2 t3 (now 0))).wire SECRET_KEY p
        p.controlLocal (now 1)⟩ := by
  refine answer_of_sync hc trivial (.control .DELAY_RESP) ?_
  have hbody : scanDelayReq (received (.delayReq t1 t2 t3) q src t).body = some (t1, t2, t3) :=
    scan_delayReq t1 t2 t3
  rw [handleSync, if_pos ⟨internal_of_group hp hq, hm⟩]
  simp only [onDelayReq, hbody]
  generalize ptpOffset t1 t2 t3 (now 0) = o
  generalize ptpRtt t1 t2 t3 (now 0) = r
  exact sendControl_eq (length_clockBody_le _ (Or.inr (Or.inr ⟨_, _, rfl⟩)))

/-- The last message of an exchange makes the worker ask for its average as correction. -/
theorem correction_delayResp {b : UInt8} {o r : ℤ} (hp : p.currentGroupId = b.toNat)
    (hq : q.currentGroupId = b.toNat) (hw : p.isMaster = false) (ho : InLongLong o)
    (hr : InLongLong r) (hc : c.payload = (Emission.delayResp o r).wire SECRET_KEY q src t) :
    correction stray now p c = some (p.clockSyncer.addPtpSample o r).applySync := by
  have hbody : scanDelayResp (received (.delayResp o r) q src t).body = (o, r) :=
    scan_delayResp ho hr
  have hhandled : handleSync { now, stray } p (received (.delayResp o r) q src t) c
      (.delayResp o r) =
      onDelayResp p (received (.delayResp o r) q src t) := by
    rw [handleSync, if_pos ⟨internal_of_group hp hq, hw⟩]
  simp only [correction, update_sync now stray p hc trivial, hhandled, onDelayResp, hbody]
  rfl

end Steps

/-! ## The correction -/

theorem inLongLong_ptpRtt (t1 t2 t3 t4 : UInt64) : InLongLong (ptpRtt t1 t2 t3 t4) := by
  unfold ptpRtt
  rw [asInt64_eq_bmod_sub]
  generalize ((t4 - t1).toNat : ℤ) - (t3 - t2).toNat = z
  have hlo := Int.le_bmod (x := z) (m := 2 ^ 64) (by norm_num)
  have hhi := Int.bmod_lt (x := z) (m := 2 ^ 64) (by norm_num)
  constructor <;> omega

/-- With equal delays both ways the master computes the clock difference exactly, also
where the single differences wrap around. -/
theorem ptpOffset_symmetric {t1 t2 t4 : UInt64} {theta delay : ℤ} (hlo : -2 ^ 31 < theta)
    (hhi : theta < 2 ^ 31) (h2 : (t2.toNat : ℤ) = t1.toNat + delay + theta)
    (h4 : (t4.toNat : ℤ) = t1.toNat + 2 * delay) : ptpOffset t1 t2 t2 t4 = theta := by
  have hsum : (asInt64 (t2 - t1) + asInt64 (t2 - t4)).bmod (2 ^ 64) =
      (2 * theta).bmod (2 ^ 64) := by
    rw [asInt64_eq_bmod_sub, asInt64_eq_bmod_sub, Int.bmod_add_bmod, Int.add_bmod_bmod, h2, h4]
    congr 1
    ring
  have hfits : (2 * theta).bmod (2 ^ 64) = 2 * theta := Int.bmod_eq_of_le (by omega) (by omega)
  unfold ptpOffset toLongLong
  rw [hsum, hfits, Int.mul_tdiv_cancel_left theta (by norm_num)]

section Correction

variable {b : UInt8} {master worker : Instance} {request : AsyncCapsule}
  {ctl : Endpoint} {t : UInt64}
  {stray : ℤ → ℤ} {now1 now2 now4 now5 : ℕ → UInt64} {theta delay : ℤ}

/-- With equal delays both ways, an exchange records the difference of the clocks as
offset, and asks for the average after that. -/
theorem exchange_sample (hmaster : master.currentGroupId = b.toNat)
    (hworker : worker.currentGroupId = b.toNat) (hm : master.isMaster = true)
    (hw : worker.isMaster = false)
    (hreq : request.payload = Emission.syncReq.wire SECRET_KEY worker ctl t)
    (hlo : -2 ^ 31 < theta) (hhi : theta < 2 ^ 31)
    (h2 : ((now2 0).toNat : ℤ) = (now1 0).toNat + delay + theta)
    (h4 : ((now4 0).toNat : ℤ) = (now1 0).toNat + 2 * delay) :
    exchange stray master worker request now1 now2 now4 now5 =
      some (worker.clockSyncer.addPtpSample theta
      (ptpRtt (now1 0) (now2 0) (now2 0) (now4 0))).applySync := by
  have hoffset : ptpOffset (now1 0) (now2 0) (now2 0) (now4 0) = theta :=
    ptpOffset_symmetric hlo hhi h2 h4
  have hrtt : InLongLong (ptpRtt (now1 0) (now2 0) (now2 0) (now4 0)) := inLongLong_ptpRtt _ _ _ _
  have hlong : InLongLong theta := ⟨by omega, by omega⟩
  simp only [exchange, answer_syncReq hmaster hworker hm hreq, Option.bind_eq_bind,
    Option.bind_some]
  rw [answer_syncResp hworker hmaster hw rfl, Option.bind_some,
    answer_delayReq hmaster hworker hm rfl, Option.bind_some, hoffset,
    correction_delayResp hworker hmaster hw hlong hrtt rfl]

/-- The first exchange asks for a correction by the worker's offset. -/
theorem exchange_eq (hmaster : master.currentGroupId = b.toNat)
    (hworker : worker.currentGroupId = b.toNat) (hm : master.isMaster = true)
    (hw : worker.isMaster = false) (hempty : worker.clockSyncer = {})
    (hreq : request.payload = Emission.syncReq.wire SECRET_KEY worker ctl t)
    (hlo : -2 ^ 31 < theta) (hhi : theta < 2 ^ 31)
    (h2 : ((now2 0).toNat : ℤ) = (now1 0).toNat + delay + theta)
    (h4 : ((now4 0).toNat : ℤ) = (now1 0).toNat + 2 * delay) :
    exchange stray master worker request now1 now2 now4 now5 = some theta := by
  rw [exchange_sample hmaster hworker hm hw hreq hlo hhi h2 h4, hempty,
    applySync_first theta _ hlo.le hhi]

/-- The correction brings the worker's clock to the master's exactly when it is there
already: otherwise the clocks are twice as far apart as before. -/
theorem correction_reaches_master_iff (hmaster : master.currentGroupId = b.toNat)
    (hworker : worker.currentGroupId = b.toNat) (hm : master.isMaster = true)
    (hw : worker.isMaster = false) (hempty : worker.clockSyncer = {})
    (hreq : request.payload = Emission.syncReq.wire SECRET_KEY worker ctl t)
    (htheta : |theta| < 2 ^ 31) (h2 : ((now2 0).toNat : ℤ) = (now1 0).toNat + delay + theta)
    (h4 : ((now4 0).toNat : ℤ) = (now1 0).toNat + 2 * delay) :
    ∃ correction, exchange stray master worker request now1 now2 now4 now5 = some correction ∧
      (|theta + correction| ≤ 1 ↔ theta = 0) := by
  obtain ⟨hlo, hhi⟩ := abs_lt.mp htheta
  refine ⟨theta, exchange_eq hmaster hworker hm hw hempty hreq hlo hhi h2 h4, ?_⟩
  rw [abs_le]
  omega

end Correction

/-- A master and a worker of group 0. -/
def aMaster : Instance := { address := ⟨#v[0x52, 0x54, 0x00, 0x12, 0x34, 0]⟩, isMaster := true }

def aWorker : Instance := { address := ⟨#v[0x52, 0x54, 0x00, 0x12, 0x34, 1]⟩ }

def aRequest : AsyncCapsule where
  src := ⟨aWorker.address, 0⟩
  dst := ⟨Address.BROADCAST, 0⟩
  origin := .ethernet
  payload := Emission.syncReq.wire SECRET_KEY aWorker {} 0

/-- Equal clocks are left alone. -/
theorem equal_clocks_stay :
    ∃ correction, exchange (fun _ => 0) aMaster aWorker aRequest (fun _ => 5000) (fun _ => 5010)
      (fun _ => 5020) (fun _ => 5030) = some correction ∧ |0 + correction| ≤ 1 := by
  have hreads : ((5010 : UInt64).toNat : ℤ) = (5000 : UInt64).toNat + 10 + 0 ∧
      ((5020 : UInt64).toNat : ℤ) = (5000 : UInt64).toNat + 2 * 10 := ⟨rfl, rfl⟩
  have hreq : aRequest.payload = Emission.syncReq.wire SECRET_KEY aWorker {} 0 := rfl
  obtain ⟨us, hus, hiff⟩ : ∃ correction,
    exchange (fun _ => 0) aMaster aWorker aRequest (fun _ => 5000)
      (fun _ => 5010) (fun _ => 5020) (fun _ => 5030) = some correction ∧
      (|0 + correction| ≤ 1 ↔ (0 : ℤ) = 0) :=
    correction_reaches_master_iff (b := 0) rfl rfl rfl rfl rfl hreq (by norm_num) hreads.1 hreads.2
  exact ⟨us, hus, hiff.mpr rfl⟩

/-- A worker that is a millisecond ahead is told to go forward by a millisecond. -/
theorem fast_clock_runs_away :
    exchange (fun _ => 0) aMaster aWorker aRequest (fun _ => 5000) (fun _ => 6010) (fun _ => 5020)
      (fun _ => 6030) = some 1000 ∧ ((6010 : ℤ) = 5000 + 10 + 1000 ∧ (5020 : ℤ) = 5000 + 2 * 10) ∧
      ¬ |1000 + (1000 : ℤ)| ≤ 1 := by
  refine ⟨by decide +kernel, by norm_num, by norm_num⟩

end CarNetwork.Protocol
