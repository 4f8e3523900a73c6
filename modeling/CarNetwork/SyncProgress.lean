import CarNetwork.ClockCorrection
import CarNetwork.FleetInvariant

/-!
# Clock requests after a loss

One worker and its master, with the frames of the clock exchange that are on their way
between them. A tick of the worker asks for an exchange only when none is running, and
only the last message of an exchange ends it. As long as every message is handled, a
running exchange has a message in flight; one that is lost, or that finds its receiver
in another group, leaves the flag set for good, since nothing reads the timeout that
later ticks set.
-/
namespace CarNetwork.SyncExchange

open CarNetwork.ByteText CarNetwork.Conversions CarNetwork.Ethernet CarNetwork.Protocol
open CarNetwork.Car CarNetwork.Runs CarNetwork.Fleet

inductive Party
  | worker
  | master
  deriving DecidableEq

def Party.peer : Party → Party
  | worker => master
  | master => worker

@[simp] theorem Party.peer_peer (p : Party) : p.peer.peer = p := by
  cases p <;> rfl

/-- The two machines of an exchange. -/
structure Pair where
  config : Party → Config
  isWorker : (config .worker).isSyncMaster = false
  isMaster : (config .master).isSyncMaster = true

/-- The gateways, and the clock messages on their way to each of them. -/
structure State where
  gateway : Party → Gateway
  inFlight : Party → List AsyncCapsule

inductive Action
  | tick (now : ℕ → UInt64)
  | deliver (p : Party) (i : ℕ) (now : ℕ → UInt64) (stray : ℤ → ℤ)
  | lose (p : Party) (i : ℕ)
  | regroup (p : Party) (gid : ℤ) (time : UInt64)

def isClock : ControlType → Bool
  | .SYNC_REQ | .SYNC_RESP | .DELAY_REQ | .DELAY_RESP => true
  | _ => false

/-- The clock message that an effect sends to the machine with this address. -/
def clockFrame (peer : Address) : Effect → Option AsyncCapsule
  | .transmit (.control t) src dst payload =>
    if isClock t = true ∧ (dst.mac = Address.BROADCAST ∨ dst.mac = peer) then
      some ⟨src, dst, .ethernet, payload⟩
    else none
  | _ => none

def clockFrames (peer : Address) (effects : List Effect) : List AsyncCapsule :=
  effects.filterMap (clockFrame peer)

/-- One party changes its state and sends. -/
def perform (s : State) (p : Party) (g : Gateway) (frames : List AsyncCapsule) : State where
  gateway := Function.update s.gateway p g
  inFlight := Function.update s.inFlight p.peer (s.inFlight p.peer ++ frames)

/-- A message leaves the network. -/
def remove (s : State) (p : Party) (i : ℕ) : State :=
  { s with inFlight := Function.update s.inFlight p ((s.inFlight p).eraseIdx i) }

def step (d : Pair) (s : State) : Action → Option State
  | .tick now =>
    let r := (s.gateway .worker).onTick (d.config .worker) now
    some (perform s .worker r.1 (clockFrames (d.config .master).mac r.2))
  | .deliver p i now stray =>
    (s.inFlight p)[i]?.map fun c =>
      let r := (s.gateway p).deliver { now, stray } (d.config p) c
      perform (remove s p i) p r.1 (clockFrames (d.config p.peer).mac r.2)
  | .lose p i => if i < (s.inFlight p).length then some (remove s p i) else none
  | .regroup p gid time =>
    match setCurrentGroup (s.gateway p).proto gid time with
    | .ok (proto, effects) =>
      some (perform s p { s.gateway p with proto } (clockFrames (d.config p.peer).mac effects))
    | .error _ => none

/-- Both gateways are past the barrier and in their roles, and no exchange has begun. -/
structure Started (d : Pair) (s : State) : Prop where
  phase : ∀ p, (s.gateway p).phase = .running
  address : ∀ p, (s.gateway p).proto.address = (d.config p).mac
  isMaster : ∀ p, (s.gateway p).proto.isMaster = (d.config p).isSyncMaster
  idle : (s.gateway .worker).proto.runningPtp = false
  quiet : ∀ p, s.inFlight p = []

/-- The message carries the group its receiver is in. -/
def heard (p : Instance) (c : AsyncCapsule) : Bool :=
  match parseMessage c.payload with
  | .ok msg => isMessageInternal p msg
  | .error _ => false

/-- No clock message is lost, and each arrives while its receiver is in its group. -/
def reliable (s : State) : Action → Bool
  | .lose _ _ => false
  | .deliver p i _ _ =>
    match (s.inFlight p)[i]? with
    | some c => heard (s.gateway p).proto c
    | none => true
  | _ => true

/-- A tick at these clock readings sends a SYNC_REQ. -/
def Requests (cfg : Config) (g : Gateway) (now : ℕ → UInt64) : Prop :=
  ∃ src dst payload, .transmit (.control .SYNC_REQ) src dst payload ∈ (g.onTick cfg now).2

/-! ## Ticks -/

section Frames

variable {peer : Address}

@[simp] theorem clockFrames_append (as bs : List Effect) :
    clockFrames peer (as ++ bs) = clockFrames peer as ++ clockFrames peer bs :=
  List.filterMap_append

theorem clockFrames_eq_nil {effects : List Effect} (h : ∀ x ∈ effects, clockFrame peer x = none) :
    clockFrames peer effects = [] :=
  List.filterMap_eq_nil_iff.mpr h

theorem clockFrames_sendControl {p : Instance} {src dst : Endpoint} {t : ControlType} {tag : UInt8}
    {body : Bytes} {time : UInt64} (hbody : body.length ≤ 1000) (ht : isClock t = true)
    (hdst : dst.mac = Address.BROADCAST ∨ dst.mac = peer) :
    clockFrames peer (sendControl p src dst t tag body time) =
      [⟨⟨p.address, src.port⟩, dst, .ethernet,
      buildMessage (controlMessage p src t tag body time)⟩] := by
  rw [sendControl_eq hbody]
  simp [clockFrames, clockFrame, ht, hdst]

theorem clockFrames_moveGroup (p : Instance) (gid : ℤ) (time : UInt64) :
    clockFrames peer (moveGroup p gid time) = [] :=
  clockFrames_eq_nil fun x hx => by rw [mem_send hx]; simp [clockFrame, isClock]

theorem clockFrames_setCurrentGroup (peer : Address) {p q : Instance} {gid : ℤ} {time : UInt64}
    {effects : List Effect} (h : setCurrentGroup p gid time = .ok (q, effects)) :
    q = inGroup p gid ∧ clockFrames peer effects = [] := by
  obtain ⟨effects', heq, hcases⟩ := setCurrentGroup_spec p gid time
  rw [heq] at h
  cases h
  refine ⟨rfl, clockFrames_eq_nil fun x hx => ?_⟩
  rcases hcases with ⟨b, g, ep, rfl⟩ | rfl
  · rw [mem_send hx]
    simp [clockFrame, isClock]
  · rw [mem_send hx]
    rfl

end Frames

/-- What a tick of a worker can do. -/
inductive Ticked (g : Gateway) (now : ℕ → UInt64) : Gateway → List AsyncCapsule → Prop
  | silent (timeout request : Bool)
      (h : ¬ 3000000 ≤ now 0 - g.lastSyncRequest ∨ g.proto.runningPtp = true) :
      Ticked g now
        { g with
          proto := { g.proto with probabilisticPtpTimeout := timeout }
          didRequest := request } []
  | requested (timeout request : Bool) (h : 3000000 ≤ now 0 - g.lastSyncRequest)
      (hidle : g.proto.runningPtp = false) :
      Ticked g now
        { g with
          proto := { g.proto with runningPtp := true, probabilisticPtpTimeout := timeout }
          didRequest := request
          lastSyncRequest := now 0 }
        [⟨g.localEp, ⟨Address.BROADCAST, GATEWAY_PORT⟩, .ethernet,
          Emission.syncReq.wire SECRET_KEY g.proto g.localEp (now 2)⟩]

section Tick

variable {cfg : Config} {g : Gateway} {now : ℕ → UInt64} {peer : Address}

theorem ticked (hcfg : cfg.isSyncMaster = false) :
    Ticked g now (g.onTick cfg now).1 (clockFrames peer (g.onTick cfg now).2) := by
  have hmove : clockFrames peer (if (decide (cfg.vmId = 1) && !g.didRequest) = true
      then moveGroup g.proto 3 (now 1) else []) = [] := by
    split
    · exact clockFrames_moveGroup ..
    · rfl
  have hframe : clockFrames peer (sendControl g.proto g.localEp ⟨Address.BROADCAST, GATEWAY_PORT⟩
      .SYNC_REQ 0 [] (now 2)) = [⟨g.localEp, ⟨Address.BROADCAST, GATEWAY_PORT⟩, .ethernet,
        Emission.syncReq.wire SECRET_KEY g.proto g.localEp (now 2)⟩] :=
    clockFrames_sendControl (by simp) rfl (Or.inl rfl)
  unfold Gateway.onTick
  by_cases hlate : 3000000 ≤ now 0 - g.lastSyncRequest
  · simp only [hcfg, hlate, Bool.not_false, decide_true, Bool.and_self, if_true]
    by_cases hptp : g.proto.runningPtp = true
    · rw [if_pos hptp, hmove]
      exact .silent _ _ (Or.inr hptp)
    · have hrequest : Ticked g now _ _ := .requested false
        (g.didRequest || decide (cfg.vmId = 1) && !g.didRequest) hlate (Bool.eq_false_iff.mpr hptp)
      rw [if_neg hptp, clockFrames_append, hmove]
      rw [← hframe] at hrequest
      exact hrequest
  · simp only [hlate, hmove, decide_false, Bool.and_false, Bool.false_eq_true, if_false]
    exact .silent g.proto.probabilisticPtpTimeout _ (Or.inl hlate)

/-- A worker asks for an exchange exactly when three seconds have passed and none is
running. -/
theorem requests_iff (hcfg : cfg.isSyncMaster = false) :
    Requests cfg g now ↔ 3000000 ≤ now 0 - g.lastSyncRequest ∧ g.proto.runningPtp = false := by
  have hmove : ∀ src dst payload,
      .transmit (.control .SYNC_REQ) src dst payload ∉ moveGroup g.proto 3 (now 1) := by
    intro src dst payload hx
    cases mem_send hx
  unfold Requests Gateway.onTick
  by_cases hlate : 3000000 ≤ now 0 - g.lastSyncRequest
  · cases hptp : g.proto.runningPtp with
    | true => simp [hcfg, hlate, hptp, hmove]
    | false => simp [hcfg, hlate, hptp, hmove, sendControl_eq]
  · simp [hlate, hmove]

end Tick

/-! ## Receptions -/

/-- The messages that a party gets in an exchange. -/
def Expected : Party → Emission → Prop
  | .master, .syncReq | .master, .delayReq _ _ _
  | .worker, .syncResp _ | .worker, .delayResp _ _ => True
  | _, _ => False

theorem Expected.sync {p : Party} {e : Emission} (h : Expected p e) : e.Sync := by
  cases p <;> cases e <;> trivial

/-- A frame of the exchange on its way to this party. -/
def FrameOk (d : Pair) (p : Party) (c : AsyncCapsule) : Prop :=
  c.src.mac = (d.config p.peer).mac ∧
    ∃ e q src t, Expected p e ∧ c.payload = Emission.wire SECRET_KEY e q src t

/-- What the reception of a clock message can do. -/
inductive Received (p : Party) (g : Gateway) (c : AsyncCapsule) : Gateway → List AsyncCapsule → Prop
  | ignored (syncDone : Bool) (h : heard g.proto c = false) : Received p g c { g with syncDone } []
  | answered (syncDone : Bool) (e : Emission) (time : UInt64) (he : Expected p.peer e) :
      Received p g c { g with syncDone } [⟨⟨g.proto.address, g.proto.controlLocal.port⟩, c.src,
        .ethernet, e.wire SECRET_KEY g.proto g.proto.controlLocal time⟩]
  | finished (syncDone : Bool) (syncer : ClockSync.ClockSyncer) (hp : p = .worker) :
      Received p g c
        { g with proto := { g.proto with clockSyncer := syncer, runningPtp := false }, syncDone } []

theorem heard_of_wire {p q : Instance} {c : AsyncCapsule} {e : Emission}
    {src : Endpoint} {t : UInt64} (hp : c.payload = e.wire SECRET_KEY q src t) :
    heard p c = isMessageInternal p (received e q src t) := by
  rw [heard, hp, Emission.wire, parse_build]
  rfl

theorem clockFrames_syncEffects {peer : Address} {env : Env} {g : Gateway}
    {e : Emission} {q : Instance} {src : Endpoint} {time : UInt64} {c : AsyncCapsule}
    (he : e.Sync) :
    clockFrames peer (syncEffects env g e q src time c) =
      clockFrames peer (syncHandled env g e q src time c).effects := by
  have htype : (received e q src time).control ≠ .NONE := by
    cases e <;> simp [received, controlMessage, Emission.type]
  have hforward : clockFrames peer (if (syncHandled env g e q src time c).forward = true then
      forwardToObservers (syncHandled env g e q src time c).inst (received e q src time) c
        else []) = [] := by
    refine clockFrames_eq_nil fun x hx => ?_
    split at hx
    · obtain ⟨po, rfl, -⟩ := mem_forward_control htype hx
      rfl
    · cases hx
  rw [syncEffects, clockFrames_append, hforward, List.append_nil]

section Reception

variable {p : Party} {g : Gateway} {c : AsyncCapsule} {e : Emission} {q : Instance} {src : Endpoint}
  {t time : UInt64} {env : Env} {peer : Address}

theorem received_ignored (he : e.Sync) (hheard : heard g.proto c = false)
    (hhandled : syncHandled env g e q src t c = { inst := g.proto }) :
    Received p g c (syncResult env g e q src t c)
      (clockFrames peer (syncEffects env g e q src t c)) := by
  rw [clockFrames_syncEffects he, syncResult, hhandled]
  exact .ignored _ hheard

theorem received_answered (e' : Emission) (he : e.Sync) (he' : Expected p.peer e')
    (hclock : isClock e'.type = true) (hbody : e'.body.length ≤ 1000) (hsrc : c.src.mac = peer)
    (hhandled : syncHandled env g e q src t c =
      { inst := g.proto
        effects := sendControl g.proto g.proto.controlLocal c.src e'.type
          (e'.tag SECRET_KEY) e'.body
          time }) :
    Received p g c (syncResult env g e q src t c)
      (clockFrames peer (syncEffects env g e q src t c)) := by
  rw [clockFrames_syncEffects he, syncResult, hhandled]
  dsimp only
  rw [clockFrames_sendControl hbody hclock (Or.inr hsrc)]
  exact .answered _ e' time he'

section Heard

variable (hkey : env.key = SECRET_KEY) (hsrc : c.src.mac = peer)

include hkey hsrc

theorem received_syncReq (hint : isMessageInternal g.proto (received .syncReq q src t) = true)
    (hm : g.proto.isMaster = true) : Received .master g c (syncResult env g .syncReq q src t c)
      (clockFrames peer (syncEffects env g .syncReq q src t c)) := by
  have hhandled : syncHandled env g .syncReq q src t c = onSyncReq env g.proto c := by
    rw [syncHandled, handleSync, if_pos hint]
  rw [onSyncReq, if_pos hm, hkey] at hhandled
  exact received_answered (.syncResp (env.now 0)) trivial trivial rfl
    (length_clockBody_le _ (Or.inl ⟨_, rfl⟩)) hsrc hhandled

theorem received_syncResp {t1 : UInt64}
    (hint : isMessageInternal g.proto (received (.syncResp t1) q src t) = true)
    (hw : g.proto.isMaster = false) :
    Received .worker g c (syncResult env g (.syncResp t1) q src t c)
      (clockFrames peer (syncEffects env g (.syncResp t1) q src t c)) := by
  have hbody : scanUnsignedLong (received (.syncResp t1) q src t).body = some (t1, []) :=
    scan_syncResp t1
  have hhandled : syncHandled env g (.syncResp t1) q src t c =
      onSyncResp env g.proto (received (.syncResp t1) q src t) c := by
    rw [syncHandled, handleSync, if_pos ⟨hint, hw⟩]
  simp only [onSyncResp, hbody, Option.map_some, Option.getD_some, hkey] at hhandled
  exact received_answered (.delayReq t1 (env.now 0) (env.now 0)) trivial trivial rfl
    (length_clockBody_le _ (Or.inr (Or.inl ⟨_, _, _, rfl⟩))) hsrc hhandled

theorem received_delayReq {t1 t2 t3 : UInt64}
    (hint : isMessageInternal g.proto (received (.delayReq t1 t2 t3) q src t) = true)
    (hm : g.proto.isMaster = true) :
    Received .master g c (syncResult env g (.delayReq t1 t2 t3) q src t c)
      (clockFrames peer (syncEffects env g (.delayReq t1 t2 t3) q src t c)) := by
  have hbody : scanDelayReq (received (.delayReq t1 t2 t3) q src t).body = some (t1, t2, t3) :=
    scan_delayReq t1 t2 t3
  have hhandled : syncHandled env g (.delayReq t1 t2 t3) q src t c =
      onDelayReq env g.proto (received (.delayReq t1 t2 t3) q src t) c := by
    rw [syncHandled, handleSync, if_pos ⟨hint, hm⟩]
  simp only [onDelayReq, hbody, hkey] at hhandled
  exact received_answered
    (.delayResp (ptpOffset t1 t2 t3 (env.now 0)) (ptpRtt t1 t2 t3 (env.now 0)))
    trivial trivial rfl (length_clockBody_le _ (Or.inr (Or.inr ⟨_, _, rfl⟩))) hsrc hhandled

end Heard

theorem received_delayResp {o r : ℤ}
    (hint : isMessageInternal g.proto (received (.delayResp o r) q src t) = true)
    (hw : g.proto.isMaster = false) :
    Received .worker g c (syncResult env g (.delayResp o r) q src t c)
      (clockFrames peer (syncEffects env g (.delayResp o r) q src t c)) := by
  have hsync : (Emission.delayResp o r).Sync := trivial
  have hhandled : syncHandled env g (.delayResp o r) q src t c =
      onDelayResp g.proto (received (.delayResp o r) q src t) := by
    rw [syncHandled, handleSync, if_pos ⟨hint, hw⟩]
  rw [clockFrames_syncEffects hsync, syncResult, hhandled]
  exact .finished _ _ rfl

/-- Each message of the exchange is answered with the next one, and the last one ends it. -/
theorem received_of_expected (hrole : g.proto.isMaster = decide (p = .master)) (he : Expected p e)
    (hp : c.payload = e.wire SECRET_KEY q src t) (hsrc : c.src.mac = peer)
    (hkey : env.key = SECRET_KEY) :
    Received p g c (syncResult env g e q src t c)
      (clockFrames peer (syncEffects env g e q src t c)) := by
  have hint := heard_of_wire (p := g.proto) hp
  cases hheard : heard g.proto c with
  | false =>
    refine received_ignored he.sync hheard ?_
    rw [hheard] at hint
    cases p <;> cases e <;> first | exact False.elim he | simp [syncHandled, handleSync, ← hint]
  | true =>
    rw [hheard] at hint
    cases p with
    | master =>
      cases e with
      | syncReq => exact received_syncReq hkey hsrc hint.symm hrole
      | delayReq t1 t2 t3 => exact received_delayReq hkey hsrc hint.symm hrole
      | _ => cases he
    | worker =>
      cases e with
      | syncResp t1 => exact received_syncResp hkey hsrc hint.symm hrole
      | delayResp o r => exact received_delayResp hint.symm hrole
      | _ => cases he

end Reception

/-! ## Runs -/

/-- What is true throughout every run, with or without losses. -/
structure WellFormed (d : Pair) (s : State) : Prop where
  phase : ∀ p, (s.gateway p).phase = .running
  address : ∀ p, (s.gateway p).proto.address = (d.config p).mac
  isMaster : ∀ p, (s.gateway p).proto.isMaster = (d.config p).isSyncMaster
  frames : ∀ p, ∀ c ∈ s.inFlight p, FrameOk d p c

/-- A running exchange has a message in flight. -/
def Pending (s : State) : Prop :=
  (s.gateway .worker).proto.runningPtp = true → ∃ p, s.inFlight p ≠ []

section Steps

variable {d : Pair} {s s' : State} {p : Party} {g : Gateway}
  {frames : List AsyncCapsule} {a : Action}

theorem Pair.isSyncMaster_eq (d : Pair) (p : Party) :
    (d.config p).isSyncMaster = decide (p = .master) := by
  cases p with
  | worker => exact d.isWorker
  | master => exact d.isMaster

theorem WellFormed.perform (h : WellFormed d s) (hphase : g.phase = .running)
    (haddress : g.proto.address = (s.gateway p).proto.address)
    (hmaster : g.proto.isMaster = (s.gateway p).proto.isMaster)
    (hframes : ∀ c ∈ frames, FrameOk d p.peer c) : WellFormed d (perform s p g frames) where
  phase := (Function.forall_update_iff s.gateway fun _ g => g.phase = .running).mpr
    ⟨hphase, fun r _ => h.phase r⟩
  address := (Function.forall_update_iff s.gateway fun r g => g.proto.address =
    (d.config r).mac).mpr
    ⟨haddress.trans (h.address p), fun r _ => h.address r⟩
  isMaster := (Function.forall_update_iff s.gateway
      fun r g => g.proto.isMaster = (d.config r).isSyncMaster).mpr
    ⟨hmaster.trans (h.isMaster p), fun r _ => h.isMaster r⟩
  frames := (Function.forall_update_iff s.inFlight fun r l => ∀ c ∈ l, FrameOk d r c).mpr
    ⟨fun c hc => (List.mem_append.mp hc).elim (h.frames p.peer c) (hframes c),
      fun r _ => h.frames r⟩

theorem WellFormed.remove (h : WellFormed d s) (p : Party) (i : ℕ) :
    WellFormed d (remove s p i) where
  phase := h.phase
  address := h.address
  isMaster := h.isMaster
  frames := (Function.forall_update_iff s.inFlight fun r l => ∀ c ∈ l, FrameOk d r c).mpr
    ⟨fun c hc => h.frames p c (List.mem_of_mem_eraseIdx hc), fun r _ => h.frames r⟩

theorem WellFormed.received (h : WellFormed d s) {c : AsyncCapsule} (hc : c ∈ s.inFlight p)
    (now : ℕ → UInt64) (stray : ℤ → ℤ) :
    Received p (s.gateway p) c ((s.gateway p).deliver { now, stray } (d.config p) c).1
      (clockFrames (d.config p.peer).mac
        ((s.gateway p).deliver { now, stray } (d.config p) c).2) := by
  obtain ⟨hsrc, e, q, src, t, he, hp⟩ := h.frames p c hc
  have hhears : (s.gateway p).phase.hears = true := by rw [h.phase]; rfl
  have hrole := (h.isMaster p).trans (d.isSyncMaster_eq p)
  rw [Gateway.deliver_of_quiet hhears (update_sync now stray _ hp he.sync)
    fun x hx => quiet_syncEffects he.sync hx]
  exact received_of_expected hrole he hp hsrc rfl

theorem frameOk_of_wire {c : AsyncCapsule} {e : Emission} {q : Instance}
    {src : Endpoint} {t : UInt64} (hsrc : c.src.mac = (d.config p).mac) (he : Expected p.peer e)
    (hp : c.payload = e.wire SECRET_KEY q src t) : FrameOk d p.peer c :=
  ⟨by rw [Party.peer_peer, hsrc], e, q, src, t, he, hp⟩

/-- The steps of a well-formed state. -/
inductive Stepped (s : State) : Action → State → Prop
  | tick {now : ℕ → UInt64} (g : Gateway) (frames : List AsyncCapsule)
      (h : Ticked (s.gateway .worker) now g frames) :
        Stepped s (.tick now) (perform s .worker g frames)
  | deliver {p : Party} {i : ℕ} {now : ℕ → UInt64} {stray : ℤ → ℤ} (c : AsyncCapsule) (g : Gateway)
      (frames : List AsyncCapsule) (hc : (s.inFlight p)[i]? = some c)
      (h : Received p (s.gateway p) c g frames) :
      Stepped s (.deliver p i now stray) (perform (remove s p i) p g frames)
  | lose {p : Party} {i : ℕ} (h : i < (s.inFlight p).length) : Stepped s (.lose p i) (remove s p i)
  | regroup {p : Party} {gid : ℤ} {time : UInt64} : Stepped s (.regroup p gid time)
      (perform s p { s.gateway p with proto := inGroup (s.gateway p).proto gid } [])

theorem stepped (h : WellFormed d s) (hs : step d s a = some s') : Stepped s a s' := by
  cases a with
  | tick now => exact Option.some.inj hs ▸ .tick _ _ (ticked d.isWorker)
  | deliver p i now stray =>
    simp only [step, Option.map_eq_some_iff] at hs
    obtain ⟨c, hc, rfl⟩ := hs
    exact .deliver c _ _ hc (h.received (List.mem_of_getElem? hc) now stray)
  | lose p i =>
    simp only [step, Option.ite_none_right_eq_some] at hs
    obtain ⟨hi, hs⟩ := hs
    exact Option.some.inj hs ▸ .lose hi
  | regroup p gid time =>
    simp only [step] at hs
    split at hs
    · rename_i proto effects heq
      obtain ⟨rfl, hnone⟩ := clockFrames_setCurrentGroup (d.config p.peer).mac heq
      rw [hnone] at hs
      exact Option.some.inj hs ▸ .regroup
    · cases hs

theorem wellFormed_step (h : WellFormed d s) (hs : Stepped s a s') : WellFormed d s' := by
  cases hs with
  | tick g frames ht =>
    cases ht with
    | silent => exact h.perform (h.phase .worker) rfl rfl (by simp)
    | requested =>
      refine h.perform (h.phase .worker) rfl rfl fun c hc => ?_
      obtain rfl := List.mem_singleton.mp hc
      exact frameOk_of_wire (h.address .worker) (e := .syncReq) trivial rfl
  | @deliver p i _ _ c g frames hc hr =>
    have hrest := h.remove p i
    cases hr with
    | ignored => exact hrest.perform (h.phase p) rfl rfl (by simp)
    | answered _ e t he =>
      refine hrest.perform (h.phase p) rfl rfl fun c' hc' => ?_
      obtain rfl := List.mem_singleton.mp hc'
      exact frameOk_of_wire (h.address p) he rfl
    | finished => exact hrest.perform (h.phase p) rfl rfl (by simp)
  | lose => exact h.remove _ _
  | @regroup p => exact h.perform (h.phase p) rfl rfl (by simp)

/-- A party that sends nothing and leaves its flag changes nothing that matters here. -/
theorem perform_silent (hflag : g.proto.runningPtp = (s.gateway p).proto.runningPtp) :
    ((perform s p g []).gateway .worker).proto.runningPtp = (s.gateway .worker).proto.runningPtp ∧
      (perform s p g []).inFlight = s.inFlight := by
  constructor
  · cases p with
    | worker => simpa [perform] using hflag
    | master => simp [perform]
  · simp [perform]

theorem Pending.perform_silent (h : Pending s)
    (hflag : g.proto.runningPtp = (s.gateway p).proto.runningPtp) : Pending (perform s p g []) := by
  obtain ⟨hptp, hflight⟩ := SyncExchange.perform_silent hflag
  rwa [Pending, hptp, hflight]

/-- While messages are handled, a running exchange does not lose its message. -/
theorem pending_step (h : Pending s) (hok : reliable s a = true) (hs : Stepped s a s') :
    Pending s' := by
  cases hs with
  | tick g frames ht =>
    cases ht with
    | silent => exact h.perform_silent rfl
    | requested => exact fun _ => ⟨.master, by simp [perform, Party.peer]⟩
  | @deliver p i _ _ c g frames hc hr =>
    cases hr with
    | ignored _ hheard => simp [reliable, hc, hheard] at hok
    | answered _ e t he => exact fun _ => ⟨p.peer, by simp [perform]⟩
    | finished _ _ hp =>
      subst hp
      intro hrun
      simp [perform] at hrun
  | lose => cases hok
  | regroup => exact h.perform_silent rfl

/-- An exchange that runs without a message in flight. -/
def Stuck (s : State) : Prop :=
  (s.gateway .worker).proto.runningPtp = true ∧ ∀ p, s.inFlight p = []

theorem Stuck.perform_silent (h : Stuck s)
    (hflag : g.proto.runningPtp = (s.gateway p).proto.runningPtp) : Stuck (perform s p g []) := by
  obtain ⟨hptp, hflight⟩ := SyncExchange.perform_silent hflag
  rwa [Stuck, hptp, hflight]

theorem stuck_step (h : Stuck s) (hs : Stepped s a s') : Stuck s' := by
  cases hs with
  | tick g frames ht =>
    cases ht with
    | silent => exact h.perform_silent rfl
    | requested _ _ _ hidle => cases hidle.symm.trans h.1
  | deliver c g frames hc => simp [h.2] at hc
  | lose hi => simp [h.2] at hi
  | regroup => exact h.perform_silent rfl

theorem wellFormed_of_started (h : Started d s) : WellFormed d s :=
  ⟨h.phase, h.address, h.isMaster, fun p => by simp [h.quiet p]⟩

theorem wellFormed_of_reachable {s₀ : State} (h₀ : WellFormed d s₀) (h : Reachable (step d) s₀ s) :
    WellFormed d s :=
  h.invariant (WellFormed d) h₀ fun _ _ _ hwf _ hs => wellFormed_step hwf (stepped hwf hs)

/-- Clock synchronisation goes on: in every run in which no clock message is lost and each
is received in its group, a tick that finds no message in flight and comes three seconds
after the last request sends another. -/
theorem sync_goes_on {s₀ : State} (h₀ : Started d s₀)
    (h : Reaches (step d) (fun s a => reliable s a = true) s₀ s) (hquiet : ∀ p, s.inFlight p = [])
    {now : ℕ → UInt64} (hlate : 3000000 ≤ now 0 - (s.gateway .worker).lastSyncRequest) :
    Requests (d.config .worker) (s.gateway .worker) now := by
  have hinv : WellFormed d s ∧ Pending s := by
    refine h.invariant (fun s => WellFormed d s ∧ Pending s)
      ⟨wellFormed_of_started h₀, fun hrun => ?_⟩ ?_
    · cases hrun.symm.trans h₀.idle
    · intro t a u ⟨hwf, hpending⟩ hok hs
      have hstepped := stepped hwf hs
      exact ⟨wellFormed_step hwf hstepped, pending_step hpending hok hstepped⟩
  have hidle : (s.gateway .worker).proto.runningPtp = false := by
    rw [Bool.eq_false_iff]
    intro hrun
    obtain ⟨p, hp⟩ := hinv.2 hrun
    exact hp (hquiet p)
  exact (requests_iff d.isWorker).mpr ⟨hlate, hidle⟩

/-- A stuck exchange stays stuck, whatever the time. -/
theorem stuck_never_requests {t : State} (hwf : WellFormed d s) (hstuck : Stuck s)
    (h : Reachable (step d) s t) (now : ℕ → UInt64) :
    ¬ Requests (d.config .worker) (t.gateway .worker) now := by
  have hinv : WellFormed d t ∧ Stuck t := by
    refine h.invariant (fun s => WellFormed d s ∧ Stuck s) ⟨hwf, hstuck⟩ ?_
    intro t a u ⟨hwf, hstuck⟩ _ hs
    have hstepped := stepped hwf hs
    exact ⟨wellFormed_step hwf hstepped, stuck_step hstuck hstepped⟩
  rw [requests_iff d.isWorker]
  intro hreq
  cases hreq.2.symm.trans hinv.2.1

end Steps

/-! ## A car and its coordinator -/

/-- Vehicle 11 and the coordinator of its group. -/
def samplePair : Pair where
  config
    | .worker => ⟨vmAddress 11, 11, 1, false, 2⟩
    | .master => ⟨vmAddress 10, 10, 1, true, 2⟩
  isWorker := rfl
  isMaster := rfl

def sampleStart : State where
  gateway
    | .worker => { proto := { address := vmAddress 11, currentGroupId := 1 }, phase := .running }
    | .master =>
      { proto := { address := vmAddress 10, currentGroupId := 1, isMaster := true }
        phase := .running }
  inFlight _ := []

theorem sampleStart_started : Started samplePair sampleStart where
  phase p := by cases p <;> rfl
  address p := by cases p <;> rfl
  isMaster p := by cases p <;> rfl
  idle := rfl
  quiet _ := rfl

/-- No message in flight and the last request at this time. -/
def quietSince (time : UInt64) (s : State) : Bool :=
  (s.inFlight .worker).isEmpty && (s.inFlight .master).isEmpty &&
    decide ((s.gateway .worker).lastSyncRequest = time)

theorem quiet_of_quietSince {time : UInt64} {s : State} (h : quietSince time s = true) :
    (∀ p, s.inFlight p = []) ∧ (s.gateway .worker).lastSyncRequest = time := by
  simp only [quietSince, Bool.and_eq_true, List.isEmpty_iff, decide_eq_true_eq] at h
  refine ⟨fun p => ?_, h.2⟩
  cases p with
  | worker => exact h.1.1
  | master => exact h.1.2

/-- After a complete exchange the car asks again. -/
theorem complete_exchange_repeats :
    ∃ s, Reaches (step samplePair) (fun s a => reliable s a = true) sampleStart s ∧
      Requests (samplePair.config .worker) (s.gateway .worker) fun _ => 6000000 := by
  have hrun : ((runIf reliable (step samplePair) sampleStart
      [.tick fun _ => 3000000, .deliver .master 0 (fun _ => 3000010) (fun _ => 0),
        .deliver .worker 0 (fun _ => 3000020) (fun _ => 0),
        .deliver .master 0 (fun _ => 3000030) (fun _ => 0),
        .deliver .worker 0 (fun _ => 3000040) (fun _ => 0)]).map (quietSince 3000000)) =
          some true := by
    decide +kernel
  obtain ⟨s, hs, hobs⟩ := exists_reaches_of_runIf (fun s a => reliable s a = true) _
    (fun _ _ _ h => h) hrun
  obtain ⟨hquiet, hlast⟩ := quiet_of_quietSince hobs
  exact ⟨s, hs, sync_goes_on sampleStart_started hs hquiet (by rw [hlast]; decide)⟩

/-- The request is lost: nothing is in flight, three seconds have passed, and neither then
nor ever after does a tick send another. -/
theorem lost_request_stops_sync :
    ∃ s, Reachable (step samplePair) sampleStart s ∧ (∀ p, s.inFlight p = []) ∧
      (3000000 : UInt64) ≤ 6000000 - (s.gateway .worker).lastSyncRequest ∧
      ∀ t, Reachable (step samplePair) s t → ∀ now,
        ¬ Requests (samplePair.config .worker) (t.gateway .worker) now := by
  have hrun : ((run (step samplePair) sampleStart [.tick fun _ => 3000000, .lose .master 0]).map
      fun s => (quietSince 3000000 s, (s.gateway .worker).proto.runningPtp)) =
        some (true, true) := by
    decide +kernel
  obtain ⟨s, hs, hobs⟩ := exists_reachable_of_run _ hrun
  obtain ⟨hobs, hrunning⟩ := Prod.mk.inj hobs
  obtain ⟨hquiet, hlast⟩ := quiet_of_quietSince hobs
  have hwf := wellFormed_of_reachable (wellFormed_of_started sampleStart_started) hs
  refine ⟨s, hs, hquiet, by rw [hlast]; decide, fun t ht now => ?_⟩
  exact stuck_never_requests hwf ⟨hrunning, hquiet⟩ ht now

end CarNetwork.SyncExchange
