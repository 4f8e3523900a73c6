import CarNetwork.Delivery
import CarNetwork.Fleet

/-!
# What every frame and every gateway looks like

In every reachable state of a fleet a gateway's fixed data are those of its phase,
and every copy in flight is one of four things: a data message, a group
announcement, a control message that its receiver will drop, or a barrier or clock
message from one gateway to another. Group messages never pass the tag check, so
nothing else ever happens to the tables and to the groups of a fleet.
-/
namespace CarNetwork.Fleet

open CarNetwork.ByteText CarNetwork.Ethernet CarNetwork.Protocol CarNetwork.Car
open CarNetwork.Conversions CarNetwork.Runs

theorem mem_eraseIdx_of_ne {α : Type} {l : List α} {i : ℕ} {x y : α} (hi : l[i]? = some x)
    (hy : y ∈ l) (hne : y ≠ x) : y ∈ l.eraseIdx i := by
  obtain ⟨j, hj⟩ := List.getElem?_of_mem hy
  refine List.mem_eraseIdx_iff_getElem?.mpr ⟨j, ?_, hj⟩
  rintro rfl
  rw [hi] at hj
  exact hne (Option.some.inj hj).symm

variable {V : Type} [DecidableEq V]

/-! ## Carrying out effects -/

section Perform

variable {d : Deployment V} {s : State V} {node : Node V} {group : ℤ} {cause : Option (Flight V)}
  {effects : List Effect}

@[simp] theorem gateways_perform : (perform d s node group cause effects).gateways = s.gateways :=
  rfl

@[simp] theorem components_perform :
    (perform d s node group cause effects).components = s.components := rfl

@[simp] theorem log_perform :
    (perform d s node group cause effects).log = s.log ++ effects.map (⟨node, group, cause, ·⟩) :=
  rfl

@[simp] theorem mem_inFlight_perform {f : Flight V} :
    f ∈ (perform d s node group cause effects).inFlight ↔
      f ∈ s.inFlight ∨ ∃ x ∈ effects, f ∈ copies d node group x := by
  simp [perform]

@[simp] theorem gateways_setGateway (v : V) (g : Gateway) :
    (setGateway s v g).gateways = Function.update s.gateways v g := rfl

@[simp] theorem inFlight_setGateway (v : V) (g : Gateway) :
    (setGateway s v g).inFlight = s.inFlight := rfl

@[simp] theorem log_setGateway (v : V) (g : Gateway) : (setGateway s v g).log = s.log := rfl

@[simp] theorem components_setGateway (v : V) (g : Gateway) :
    (setGateway s v g).components = s.components := rfl

@[simp] theorem gateways_setComponent (v : V) (port : UInt16) (p : Option Component) :
    (setComponent s v port p).gateways = s.gateways := rfl

@[simp] theorem inFlight_setComponent (v : V) (port : UInt16) (p : Option Component) :
    (setComponent s v port p).inFlight = s.inFlight := rfl

@[simp] theorem log_setComponent (v : V) (port : UInt16) (p : Option Component) :
    (setComponent s v port p).log = s.log := rfl

theorem mem_copies {f : Flight V} {kind : SendKind} {src dst : Endpoint} {payload : Bytes}
    (h : f ∈ copies d node group (.transmit kind src dst payload)) :
    ∃ r ∈ receivers d node dst.mac, f = ⟨node, group, kind, r.1, src, dst, r.2, payload⟩ := by
  simp only [copies, List.mem_map] at h
  obtain ⟨r, hr, rfl⟩ := h
  exact ⟨r, hr, rfl⟩

/-- A gateway's frame to another address reaches other gateways only. -/
theorem mem_receivers_gateway {v : V} {dst : Address} {r : Node V × ChannelOrigin}
    (hdst : dst ≠ d.mac v) (h : r ∈ receivers d (.gateway v) dst) :
    ∃ w, w ≠ v ∧ r.1 = .gateway w ∧ (dst = Address.BROADCAST ∨ dst = d.mac w) := by
  rw [receivers, if_neg (show ¬ dst = d.mac (Node.gateway v).vm from hdst)] at h
  simp only [List.mem_map, List.mem_filter] at h
  obtain ⟨w, ⟨-, hw⟩, rfl⟩ := h
  simp only [decide_eq_true_eq] at hw
  exact ⟨w, hw.1, rfl, hw.2⟩

end Perform

theorem Deployment.mac_ne (d : Deployment V) {v w : V} (h : w ≠ v) : d.mac w ≠ d.mac v :=
  fun hm => h (d.mac_injective hm)

/-! ## The invariant -/

/-- The data of a gateway that its phase determines. -/
structure Setup where
  address : Address
  group : ℤ
  controlLocal : Endpoint
  total : ℤ
  callback : Bool
  onSyncDone : Bool
  isMaster : Bool
  observers : List PortObserver

def setupOf (g : Gateway) : Setup where
  address := g.proto.address
  group := g.proto.currentGroupId
  controlLocal := g.proto.controlLocal
  total := g.proto.syncTotalVms
  callback := g.proto.syncDoneCallback
  onSyncDone := g.onSyncDone
  isMaster := g.proto.isMaster
  observers := g.proto.portObservers

def setupAt (d : Deployment V) (v : V) (ph : Phase) : Setup where
  address := d.mac v
  group := if ph.hasJoined then (d.group v).toNat else 0
  controlLocal := if ph.atBarrier then ⟨d.mac v, GATEWAY_PORT⟩ else {}
  total := if ph.atBarrier then d.totalSyncVms else 0
  callback := ph.atBarrier
  onSyncDone := ph.hasCallback
  isMaster := ph.hasRole && d.isCoordinator v
  observers := if ph.hears then [⟨.ethernet, GATEWAY_PORT⟩, ⟨.sharedMemory, GATEWAY_PORT⟩] else []

structure GatewayOk (d : Deployment V) (v : V) (g : Gateway) : Prop where
  alive : g.phase ≠ .crashed
  setup : setupOf g = setupAt d v g.phase
  idle : g.phase = .off → g.proto = { address := d.mac v }
  members : ∀ e ∈ g.proto.groups, ∀ m ∈ e.2.members, m = vmIdFromMac (d.mac v)
  readyChecked : g.readyChecked = true → g.phase.atBarrier = true ∧ d.isCoordinator v = false

namespace GatewayOk

variable {d : Deployment V} {v : V} {g : Gateway}

theorem address (h : GatewayOk d v g) : g.proto.address = d.mac v := congrArg Setup.address h.setup

theorem group (h : GatewayOk d v g) :
    g.proto.currentGroupId = if g.phase.hasJoined then ((d.group v).toNat : ℤ) else 0 :=
  congrArg Setup.group h.setup

theorem controlLocal (h : GatewayOk d v g) :
    g.proto.controlLocal = if g.phase.atBarrier then ⟨d.mac v, GATEWAY_PORT⟩ else {} :=
  congrArg Setup.controlLocal h.setup

theorem total (h : GatewayOk d v g) :
    g.proto.syncTotalVms = if g.phase.atBarrier then d.totalSyncVms else 0 :=
  congrArg Setup.total h.setup

theorem callback (h : GatewayOk d v g) : g.proto.syncDoneCallback = g.phase.atBarrier :=
  congrArg Setup.callback h.setup

theorem onSyncDone (h : GatewayOk d v g) : g.onSyncDone = g.phase.hasCallback :=
  congrArg Setup.onSyncDone h.setup

theorem isMaster (h : GatewayOk d v g) :
    g.proto.isMaster = (g.phase.hasRole && d.isCoordinator v) :=
  congrArg Setup.isMaster h.setup

/-- A gateway's group is a byte, at any time. -/
theorem group_byte (h : GatewayOk d v g) : ∃ b : UInt8, g.proto.currentGroupId = b.toNat := by
  rw [h.group]
  split
  · exact ⟨_, rfl⟩
  · exact ⟨0, rfl⟩

end GatewayOk

/-- What a copy in flight can be. -/
inductive Content (d : Deployment V) (f : Flight V) : Prop
  | data (m : Message) (hkind : f.kind = .data) (hpayload : f.capsule.payload = buildMessage m)
      (hcontrol : m.control = .NONE) (hgroup : m.groupId = UInt8.ofInt f.senderGroup)
  | groupInfo (q : Instance) (gid : ℤ) (hkind : f.kind = .groupInfo)
      (hpayload : f.capsule.payload = groupInfoText q gid)
  | dropped (e : Emission) (q : Instance) (src : Endpoint) (time : UInt64)
      (hkind : f.kind = .control e.type) (hpayload : f.capsule.payload =
        e.wire SECRET_KEY q src time)
      (hbad : ¬ e.Authentic)
  | sync (e : Emission) (q : Instance) (src : Endpoint) (time : UInt64) (w v : V)
      (hkind : f.kind = .control e.type) (hpayload : f.capsule.payload =
        e.wire SECRET_KEY q src time)
      (he : e.Sync) (hsender : f.sender = .gateway w) (hreceiver : f.receiver = .gateway v)
      (hne : w ≠ v) (hmac : f.capsule.src.mac = d.mac w)
      (hgroup : q.currentGroupId = f.senderGroup)
      (hbarrier : e = .ready ∨ e = .go → f.senderGroup = (d.group w).toNat ∧ src.mac = d.mac w)

structure WellFormed (d : Deployment V) (s : State V) : Prop where
  gateways : ∀ v, GatewayOk d v (s.gateways v)
  components : ∀ v port p, s.components v port = some p →
    ∃ b : UInt8, p.proto.currentGroupId = b.toNat
  flights : ∀ f ∈ s.inFlight, Content d f
  senders : ∀ f ∈ s.inFlight, ∃ b : UInt8, f.senderGroup = b.toNat

/-- Everything the effects of a process put in flight has a known content. -/
def EffectsOk (d : Deployment V) (node : Node V) (group : ℤ) (effects : List Effect) : Prop :=
  ∀ x ∈ effects, ∀ f ∈ copies d node group x, Content d f

section Effects

variable {d : Deployment V} {node : Node V} {group : ℤ}

theorem effectsOk_nil : EffectsOk d node group [] := by simp [EffectsOk]

theorem effectsOk_sendMessage {p : Instance} {localEp dst : Endpoint} {m : Message}
    (hc : m.control = .NONE) (hg : m.groupId = UInt8.ofInt group) :
    EffectsOk d node group (sendMessage p localEp dst m) := by
  intro x hx f hf
  rw [mem_send hx] at hf
  obtain ⟨r, -, rfl⟩ := mem_copies hf
  exact .data m rfl rfl hc hg

theorem effectsOk_dropped {e : Emission} {p : Instance} {src dst : Endpoint} {time : UInt64}
    (he : ¬ e.Authentic) :
    EffectsOk d node group (sendControl p src dst e.type (e.tag SECRET_KEY) e.body time) := by
  intro x hx f hf
  rw [mem_send hx] at hf
  obtain ⟨r, -, rfl⟩ := mem_copies hf
  exact .dropped e p src time rfl rfl he

theorem effectsOk_sync {e : Emission} {v : V} {p : Instance} {src dst : Endpoint} {time : UInt64}
    (he : e.Sync) (hdst : dst.mac ≠ d.mac v) (haddr : p.address = d.mac v)
    (hgroup : p.currentGroupId = group)
    (hbarrier : e = .ready ∨ e = .go → group = (d.group v).toNat ∧ src.mac = d.mac v) :
    EffectsOk d (.gateway v) group
      (sendControl p src dst e.type (e.tag SECRET_KEY) e.body time) := by
  intro x hx f hf
  rw [mem_send hx] at hf
  obtain ⟨r, hr, rfl⟩ := mem_copies hf
  obtain ⟨w, hwv, hw, -⟩ := mem_receivers_gateway hdst hr
  exact .sync e p src time v w rfl rfl he rfl hw hwv.symm haddr hgroup hbarrier

theorem effectsOk_setCurrentGroup {p q : Instance} {gid : ℤ} {time : UInt64} {effects : List Effect}
    (h : setCurrentGroup p gid time = .ok (q, effects)) : EffectsOk d node group effects := by
  obtain ⟨effects', heq, hcases⟩ := setCurrentGroup_spec p gid time
  rw [heq] at h
  cases h
  rcases hcases with ⟨b, g, ep, rfl⟩ | rfl
  · exact effectsOk_dropped (e := .joinNotify b g) id
  · intro x hx f hf
    rw [mem_send hx] at hf
    obtain ⟨r, -, rfl⟩ := mem_copies hf
    exact .groupInfo _ _ rfl rfl

/-- Effects that are not transmissions put nothing in flight. -/
theorem effectsOk_of_copies_nil {effects : List Effect}
    (h : ∀ x ∈ effects, copies d node group x = []) : EffectsOk d node group effects := by
  intro x hx f hf
  rw [h x hx] at hf
  cases hf

end Effects

/-! ## Steps of a gateway -/

section Gateways

variable {d : Deployment V} {v : V} {g g' : Gateway} {effects : List Effect}

theorem gatewayOk_initial (d : Deployment V) (v : V) : GatewayOk d v ((initial d).gateways v) where
  alive := by simp [initial]
  setup := rfl
  idle := fun _ => rfl
  members := by simp [initial]
  readyChecked := by simp [initial]

/-- After `set_current_group` the table still lists the own vehicle only. -/
theorem members_inGroup {p : Instance} {gid vm : ℤ}
    (h : ∀ e ∈ p.groups, ∀ m ∈ e.2.members, m = vm) (haddr : vmIdFromMac p.address = vm) :
    ∀ e ∈ (inGroup p gid).groups, ∀ m ∈ e.2.members, m = vm := by
  intro e he m hm
  rcases GroupTable.mem_update he with he | rfl | ⟨info, hinfo, rfl⟩
  · exact h e he m hm
  · simp only [GroupInfo.mem_insertMember, List.not_mem_nil, or_false] at hm
    rw [hm, haddr]
  · simp only [GroupInfo.mem_insertMember] at hm
    rcases hm with rfl | hm
    · exact haddr
    · exact h _ hinfo m hm

/-- The setup of a gateway in a known phase, field by field. -/
theorem GatewayOk.setup_at (h : GatewayOk d v g) {ph : Phase} (hph : g.phase = ph) :
    setupOf g = setupAt d v ph := hph ▸ h.setup

theorem GatewayOk.notChecked (h : GatewayOk d v g) (hb : g.phase.atBarrier = false) :
    g.readyChecked = false := by
  by_contra hr
  rw [(h.readyChecked (by simpa using hr)).1] at hb
  cases hb

theorem GatewayOk.act {a : GatewayAction} (h : GatewayOk d v g)
    (ha : g.act (d.config v) a = some (g', effects)) : GatewayOk d v g' := by
  cases a with
  | listen =>
    simp only [Gateway.act, Option.ite_none_right_eq_some, Option.some.injEq, Prod.mk.injEq] at ha
    obtain ⟨hph, rfl, -⟩ := ha
    have hs := h.setup_at hph
    have hr := h.notChecked (by rw [hph]; rfl)
    refine ⟨by simp, ?_, by simp, by simp [initializeCommunicator], by simp [hr]⟩
    simp only [setupOf, setupAt, Setup.mk.injEq] at hs ⊢
    exact ⟨rfl, rfl, rfl, rfl, rfl, hs.2.2.2.2.2.1, rfl, rfl⟩
  | joinGroup time =>
    obtain ⟨es, heq, -⟩ := setCurrentGroup_spec g.proto (d.config v).groupId time
    simp only [Gateway.act, heq, Option.ite_none_right_eq_some, Option.some.injEq,
      Prod.mk.injEq] at ha
    obtain ⟨hph, rfl, -⟩ := ha
    have hs := h.setup_at hph
    have hr := h.notChecked (by rw [hph]; rfl)
    refine ⟨by simp, ?_, by simp, members_inGroup h.members (by rw [h.address]), by simp [hr]⟩
    simp only [setupOf, setupAt, Setup.mk.injEq] at hs ⊢
    obtain ⟨haddr, -, hrest⟩ := hs
    exact ⟨haddr, rfl, hrest⟩
  | installCallback =>
    simp only [Gateway.act, Option.ite_none_right_eq_some, Option.some.injEq, Prod.mk.injEq] at ha
    obtain ⟨hph, rfl, -⟩ := ha
    have hs := h.setup_at hph
    have hr := h.notChecked (by rw [hph]; rfl)
    refine ⟨by simp, ?_, by simp, h.members, by simp [hr]⟩
    simp only [setupOf, setupAt, Setup.mk.injEq] at hs ⊢
    obtain ⟨h1, h2, h3, h4, h5, -, h7⟩ := hs
    exact ⟨h1, h2, h3, h4, h5, rfl, h7⟩
  | setMaster =>
    simp only [Gateway.act, Option.ite_none_right_eq_some, Option.some.injEq, Prod.mk.injEq] at ha
    obtain ⟨hph, rfl, -⟩ := ha
    have hs := h.setup_at hph
    have hr := h.notChecked (by rw [hph]; rfl)
    simp only [setupOf, setupAt, Setup.mk.injEq] at hs
    obtain ⟨h1, h2, h3, h4, h5, h6, h7, h8⟩ := hs
    by_cases hc : d.isCoordinator v = true
    · simp only [Deployment.config, hc, if_true]
      refine ⟨by simp, ?_, by simp, h.members, by simp [hr]⟩
      simp only [setupOf, setupAt, Setup.mk.injEq]
      exact ⟨h1, h2, h3, h4, h5, h6, by simp [Protocol.setMaster, Phase.hasRole, hc], h8⟩
    · simp only [Deployment.config, hc]
      refine ⟨by simp, ?_, by simp, h.members, by simp [hr]⟩
      simp only [setupOf, setupAt, Setup.mk.injEq]
      exact ⟨h1, h2, h3, h4, h5, h6, by simpa [Phase.hasRole, hc] using h7, h8⟩
  | enableStartSync =>
    simp only [Gateway.act, Option.ite_none_right_eq_some, Option.some.injEq, Prod.mk.injEq] at ha
    obtain ⟨hph, rfl, -⟩ := ha
    have hs := h.setup_at hph
    have hr := h.notChecked (by rw [hph]; rfl)
    refine ⟨by simp, ?_, by simp, h.members, by simp [hr]⟩
    simp only [setupOf, setupAt, Setup.mk.injEq] at hs ⊢
    obtain ⟨h1, h2, -, -, -, h6, h7, h8⟩ := hs
    refine ⟨h1, h2, ?_, rfl, rfl, h6, h7, h8⟩
    simp [Protocol.enableStartSync, Gateway.localEp, Phase.atBarrier, h.address]
  | checkReady =>
    simp only [Gateway.act, Option.ite_none_right_eq_some, Option.some.injEq, Prod.mk.injEq] at ha
    obtain ⟨⟨hb, hm, -, -⟩, rfl, -⟩ := ha
    exact ⟨h.alive, h.setup, h.idle, h.members, fun _ => ⟨hb, hm⟩⟩
  | sendReady time =>
    simp only [Gateway.act, Option.ite_none_right_eq_some, Option.some.injEq, Prod.mk.injEq] at ha
    obtain ⟨-, rfl, -⟩ := ha
    exact ⟨h.alive, h.setup, h.idle, h.members, by simp⟩
  | leaveBarrier =>
    simp only [Gateway.act, Option.ite_none_right_eq_some, Option.some.injEq, Prod.mk.injEq] at ha
    obtain ⟨⟨hph, -⟩, rfl, -⟩ := ha
    have hs : setupOf g = setupAt d v .waiting := h.setup_at hph
    exact ⟨by simp, hs, by simp, h.members, fun hr => ⟨rfl, (h.readyChecked hr).2⟩⟩
  | tick now =>
    simp only [Gateway.act, Option.ite_none_right_eq_some, Option.some.injEq] at ha
    obtain ⟨hph, ha⟩ := ha
    obtain ⟨ptp, timeout, request, last, heq⟩ := Gateway.onTick_fst (d.config v) g now
    rw [ha] at heq
    dsimp only at heq
    subst heq
    exact ⟨h.alive, h.setup, by simp [hph], h.members, h.readyChecked⟩

theorem GatewayOk.joined_group (h : GatewayOk d v g) (hb : g.phase.atBarrier = true) :
    g.proto.currentGroupId = (d.group v).toNat := by
  have hj : g.phase.hasJoined = true := by
    cases hph : g.phase <;> simp_all [Phase.atBarrier, Phase.hasJoined]
  rw [h.group, if_pos hj]

theorem effectsOk_act {a : GatewayAction} (h : GatewayOk d v g)
    (ha : g.act (d.config v) a = some (g', effects)) :
    EffectsOk d (.gateway v) g'.proto.currentGroupId effects := by
  cases a with
  | joinGroup time =>
    obtain ⟨es, heq, -⟩ := setCurrentGroup_spec g.proto (d.config v).groupId time
    simp only [Gateway.act, heq, Option.ite_none_right_eq_some, Option.some.injEq,
      Prod.mk.injEq] at ha
    obtain ⟨-, rfl, rfl⟩ := ha
    exact effectsOk_setCurrentGroup heq
  | sendReady time =>
    simp only [Gateway.act, Option.ite_none_right_eq_some, Option.some.injEq, Prod.mk.injEq] at ha
    obtain ⟨⟨hb, -⟩, rfl, rfl⟩ := ha
    exact effectsOk_sync (e := .ready) trivial (d.individual v).symm h.address rfl
      fun _ => ⟨h.joined_group hb, h.address⟩
  | tick now =>
    simp only [Gateway.act, Option.ite_none_right_eq_some, Option.some.injEq] at ha
    obtain ⟨-, ha⟩ := ha
    obtain ⟨ptp, timeout, request, last, heq⟩ := Gateway.onTick_fst (d.config v) g now
    intro x hx
    rw [show effects = (g.onTick (d.config v) now).2 by rw [ha]] at hx
    rw [ha] at heq
    dsimp only at heq
    subst heq
    rcases Gateway.onTick_snd hx with hx | hx
    · exact effectsOk_dropped (e := .groupMoveRequest 3) (show ¬ ZeroTagged 3 by decide) x hx
    · exact effectsOk_sync (e := .syncReq) trivial (d.individual v).symm h.address
        rfl (by simp) x hx
  | _ =>
    simp only [Gateway.act, Option.ite_none_right_eq_some, Option.some.injEq, Prod.mk.injEq] at ha
    obtain ⟨-, -, rfl⟩ := ha
    exact effectsOk_nil

end Gateways

/-! ## Delivery of a copy -/

/-- The new state and the effects of a gateway that handles a barrier or clock message. -/
def syncHandled (env : Env) (g : Gateway) (e : Emission) (q : Instance) (src : Endpoint)
    (time : UInt64) (c : AsyncCapsule) : Handled :=
  handleSync env g.proto (received e q src time) c e

def syncEffects (env : Env) (g : Gateway) (e : Emission) (q : Instance) (src : Endpoint)
    (time : UInt64) (c : AsyncCapsule) : List Effect :=
  let h := syncHandled env g e q src time c
  h.effects ++ if h.forward then forwardToObservers h.inst (received e q src time) c else []

def syncResult (env : Env) (g : Gateway) (e : Emission) (q : Instance) (src : Endpoint)
    (time : UInt64) (c : AsyncCapsule) : Gateway :=
  { g with
    proto := (syncHandled env g e q src time c).inst
    syncDone := g.syncDone || (syncEffects env g e q src time c).any g.releasedBy }

/-- What the delivery of a copy to a gateway can do, once for all invariants. -/
inductive Delivered (d : Deployment V) (v : V) (env : Env) (f : Flight V) (g : Gateway) :
    Gateway → List Effect → Prop
  | ignored (hwhy : g.phase.hears = false ∨ ∃ e : Emission, f.kind = .control e.type ∧
      ¬ e.Authentic) :
      Delivered d v env f g g []
  | packet (m : Message) (effects : List Effect) (hhears : g.phase.hears = true)
      (hkind : (f.kind = .data ∧ m.groupId = UInt8.ofInt f.senderGroup) ∨
        (f.kind = .groupInfo ∧ m.groupId = 0))
      (heffects : ∀ x ∈ effects,
        (∃ po, x = .onPacket po f.capsule ∧ (m.groupId.toNat : ℤ) = g.proto.currentGroupId) ∨
        ∃ rx : Rx, rx.msg.control = .NONE ∧ x ∈ g.onReceive (d.config v) rx env.now) :
      Delivered d v env f g g effects
  | sync (e : Emission) (q : Instance) (src : Endpoint) (time : UInt64) (w : V)
      (hhears : g.phase.hears = true) (hkind : f.kind = .control e.type)
      (hpayload : f.capsule.payload = e.wire SECRET_KEY q src time) (he : e.Sync)
      (hsender : f.sender = .gateway w)
      (hne : w ≠ v) (hmac : f.capsule.src.mac = d.mac w)
      (hgroup : q.currentGroupId = f.senderGroup)
      (hbarrier : e = .ready ∨ e = .go → f.senderGroup = (d.group w).toNat ∧ src.mac = d.mac w) :
      Delivered d v env f g (syncResult env g e q src time f.capsule)
        (syncEffects env g e q src time f.capsule)

theorem quiet_syncEffects {env : Env} {g : Gateway} {e : Emission} {q : Instance} {src : Endpoint}
    {time : UInt64} {c : AsyncCapsule} (he : e.Sync) {x : Effect}
    (hx : x ∈ syncEffects env g e q src time c) : Gateway.Quiet x := by
  have htype : (received e q src time).control ≠ .NONE := by
    cases e <;> simp [received, controlMessage, Emission.type]
  rcases List.mem_append.mp hx with hx | hx
  · rcases handleSync_effects hx with ⟨_, _, _, _, -, -, -, -, -, -, hx⟩ | hx
    · rw [mem_send hx]
      trivial
    · cases x <;> trivial
  · split at hx
    · obtain ⟨po, rfl, -⟩ := mem_forward_control htype hx
      trivial
    · cases hx

/-- Data in one of its two forms: a data message, or the announcement that is taken
for one. -/
theorem delivered_packet {d : Deployment V} {v : V} {env : Env} {f : Flight V} {g : Gateway}
    {m : Message} {body : Bytes} (hh : g.phase.hears = true)
    (hparse : parseMessage f.capsule.payload = .ok m) (hm : m.control = .NONE)
    (hu : update env g.proto f.capsule =
      .ok (g.proto, forwardToObservers g.proto { m with body := body } f.capsule))
    (hkind : (f.kind = .data ∧ m.groupId = UInt8.ofInt f.senderGroup) ∨
      (f.kind = .groupInfo ∧ m.groupId = 0)) :
    Delivered d v env f g (g.deliver env (d.config v) f.capsule).1
      (g.deliver env (d.config v) f.capsule).2 := by
  have hpackets := fun x (hx : x ∈ forwardToObservers g.proto { m with body := body } f.capsule) =>
    mem_forward_data (by simpa using hm) hx
  obtain ⟨effects, heq, heffects⟩ := Gateway.deliver_data (d.config v) hh hu
    (fun x hx => (hpackets x hx).imp fun po h => h.1) hparse
  rw [heq]
  refine .packet m effects hh hkind fun x hx => ?_
  rcases heffects x hx with hx | ⟨rx, hrx, hx⟩
  · exact Or.inl (hpackets x hx)
  · exact Or.inr ⟨rx, hrx.trans hm, hx⟩

theorem delivered_of_content {d : Deployment V} {v : V} {f : Flight V} (now : ℕ → UInt64)
    (stray : ℤ → ℤ) (g : Gateway) (hf : Content d f) (hr : f.receiver = .gateway v) :
    Delivered d v { now, stray } f g (g.deliver { now, stray } (d.config v) f.capsule).1
      (g.deliver { now, stray } (d.config v) f.capsule).2 := by
  by_cases hh : g.phase.hears = true
  swap
  · rw [Gateway.deliver, if_neg hh]
    exact .ignored (Or.inl (by simpa using hh))
  cases hf with
  | data m hkind hpayload hcontrol hgroup =>
    exact delivered_packet hh (by rw [hpayload, parse_build]) hcontrol
      (update_data hpayload hcontrol) (Or.inl ⟨hkind, hgroup⟩)
  | groupInfo q gid hkind hpayload =>
    have hno : 61 ∉ f.capsule.payload := hpayload ▸ equals_notMem_groupInfoText q gid
    exact delivered_packet (m :=
      { body := f.capsule.payload }) hh (parseMessage_of_no_field hno) rfl
      (update_groupInfo hpayload) (Or.inr ⟨hkind, rfl⟩)
  | dropped e q src time hkind hpayload hbad =>
    rw [Gateway.deliver_of_quiet hh (update_dropped hpayload hbad) (by simp)]
    simpa using Delivered.ignored (Or.inr ⟨e, hkind, hbad⟩)
  | sync e q src time w v' hkind hpayload he hsender hreceiver hne hmac hgroup hbarrier =>
    rw [hr] at hreceiver
    cases hreceiver
    rw [Gateway.deliver_of_quiet hh (update_sync now stray g.proto hpayload he) fun x hx =>
      quiet_syncEffects he hx]
    exact .sync e q src time w hh hkind hpayload he hsender hne hmac hgroup hbarrier

/-! ## Every reachable state -/

section Steps

variable {d : Deployment V} {v : V} {g g' : Gateway} {effects : List Effect}
  {env : Env} {f : Flight V}

/-- Delivery changes nothing that the phase determines. -/
theorem GatewayOk.delivered (h : GatewayOk d v g) (hd : Delivered d v env f g g' effects) :
    GatewayOk d v g' := by
  cases hd with
  | ignored => exact h
  | packet => exact h
  | sync e q src time w hh =>
    obtain ⟨r, s, t, syncer, ptp, hinst⟩ := handleSync_inst env g.proto (received e q src time)
      f.capsule e
    have hoff : g.phase ≠ .off := by
      intro hoff
      simp [hoff, Phase.hears] at hh
    simp only [syncResult, syncHandled, hinst]
    exact ⟨h.alive, h.setup, fun hph => absurd hph hoff, h.members, h.readyChecked⟩

theorem group_delivered (hd : Delivered d v env f g g' effects) :
    g'.proto.currentGroupId = g.proto.currentGroupId := by
  cases hd with
  | ignored => rfl
  | packet => rfl
  | sync e q src time w =>
    obtain ⟨r, s, t, syncer, ptp, hinst⟩ := handleSync_inst env g.proto (received e q src time)
      f.capsule e
    simp only [syncResult, syncHandled, hinst]

theorem effectsOk_onReceive {rx : Rx} {now : ℕ → UInt64} (hrx : rx.msg.control = .NONE) :
    EffectsOk d (.gateway v) g.proto.currentGroupId (g.onReceive (d.config v) rx now) := by
  unfold Gateway.onReceive
  split
  · exact effectsOk_sendMessage (by simpa [relayed] using hrx) rfl
  · intro x hx
    simp only [fanoutMessage, List.mem_flatMap] at hx
    obtain ⟨peer, -, hx⟩ := hx
    exact effectsOk_sendMessage (by simpa [relayed] using hrx) rfl x hx

theorem copies_of_internal {node : Node V} {group : ℤ} {x : Effect} (hx : x.Internal) :
    copies d node group x = [] := by
  cases x <;> first | rfl | cases hx

/-- A gateway only counts READY once it is at the barrier. -/
theorem GatewayOk.atBarrier_of_total (h : GatewayOk d v g) (ht : 0 < g.proto.syncTotalVms) :
    g.phase.atBarrier = true := by
  by_contra hb
  rw [h.total, if_neg hb] at ht
  exact lt_irrefl _ ht

theorem effectsOk_delivered (h : GatewayOk d v g) (hkey : env.key = SECRET_KEY)
    (hd : Delivered d v env f g g' effects) :
    EffectsOk d (.gateway v) g'.proto.currentGroupId effects := by
  rw [group_delivered hd]
  cases hd with
  | ignored => exact effectsOk_nil
  | packet m _ hh hkind heffects =>
    intro x hx
    rcases heffects x hx with ⟨po, rfl, -⟩ | ⟨rx, hrx, hx⟩
    · simp [copies]
    · exact effectsOk_onReceive hrx x hx
  | sync e q src time w hh hkind hpayload he hsender hne hmac =>
    intro x hx
    rcases List.mem_append.mp hx with hx | hx
    · rcases handleSync_effects hx with
        ⟨e', q', dst, time', he', hnr, hgo, haddr, hgr, hdst, hx⟩ | hx
      · have hdst' : dst.mac ≠ d.mac v := by
          rcases hdst with hdst | hdst
          · exact hdst ▸ (d.individual v).symm
          · rw [hdst, hmac]
            exact d.mac_ne hne
        rw [hkey] at hx
        refine effectsOk_sync he' hdst' (haddr.trans h.address) hgr ?_ x hx
        rintro (rfl | rfl)
        · exact absurd rfl hnr
        · have hb := h.atBarrier_of_total (hgo rfl).2
          exact ⟨h.joined_group hb, by rw [h.controlLocal, if_pos hb]⟩
      · simp [copies_of_internal hx]
    · have htype : (received e q src time).control ≠ .NONE := by
        cases e <;> simp [received, controlMessage, Emission.type]
      split at hx
      · obtain ⟨po, rfl, -⟩ := mem_forward_control htype hx
        simp [copies]
      · cases hx

end Steps

/-! ### Steps outside the gateways -/

/-- What a component can do: send data, join its group, and hand data to its owner. -/
inductive ComponentEffect (cause : Option (Flight V)) (group : ℤ) : Effect → Prop
  | send (kind : SendKind) (src dst : Endpoint) (payload : Bytes)
      (hkind : kind = .data ∨ kind = .control .GROUP_MOVE_NOTIFY ∨ kind = .groupInfo) :
      ComponentEffect cause group (.transmit kind src dst payload)
  | packet (po : PortObserver) (f : Flight V) (m : Message) (hcause : cause = some f)
      (hkind : (f.kind = .data ∧ m.groupId = UInt8.ofInt f.senderGroup) ∨
        (f.kind = .groupInfo ∧ m.groupId = 0))
      (hgroup : (m.groupId.toNat : ℤ) = group) :
      ComponentEffect cause group (.onPacket po f.capsule)

/-- The copy that a component handles is the one being delivered to it. -/
def CausedAt (s : State V) (a : Action V) (v : V) (port : UInt16) (group : ℤ)
    (cause : Option (Flight V)) : Prop :=
  ∀ f, cause = some f → ∃ i now stray p, a = .deliver i now stray ∧ s.inFlight[i]? = some f ∧
    f.receiver = .component v port ∧ s.components v port = some p ∧ p.proto.currentGroupId = group

/-- A step that leaves every gateway alone: of a component or of the network. -/
structure Background (d : Deployment V) (a : Action V) (s s' : State V) : Prop where
  gateways : s'.gateways = s.gateways
  components : ∀ v port p, s'.components v port = some p →
    ∃ b : UInt8, p.proto.currentGroupId = b.toNat
  effects : ∃ v port group cause, ∃ es : List Effect,
    s'.log = s.log ++ es.map (⟨.component v port, group, cause, ·⟩) ∧
    (∀ f ∈ s'.inFlight, f ∈ s.inFlight ∨ ∃ x ∈ es, f ∈ copies d (.component v port) group x) ∧
    (∃ b : UInt8, group = b.toNat) ∧ CausedAt s a v port group cause ∧
    EffectsOk d (.component v port) group es ∧ ∀ x ∈ es, ComponentEffect cause group x
  keeps : ∀ f ∈ s.inFlight, ∀ w, f.receiver = .gateway w → f ∈ s'.inFlight ∨ ∃ i, a = .lose i

section BackgroundSteps

variable {d : Deployment V} {s s' : State V} {a : Action V}

theorem components_setComponent {v : V} {port : UInt16} {p : Option Component}
    (hs : ∀ v port p, s.components v port = some p → ∃ b : UInt8, p.proto.currentGroupId = b.toNat)
    (hp : ∀ q, p = some q → ∃ b : UInt8, q.proto.currentGroupId = b.toNat) :
    ∀ v' port' q, (setComponent s v port p).components v' port' = some q →
      ∃ b : UInt8, q.proto.currentGroupId = b.toNat := by
  intro v' port' q hq
  simp only [setComponent, Function.update_apply] at hq
  split at hq
  · simp only [Function.update_apply] at hq
    split at hq
    · exact hp q hq
    · exact hs _ _ _ hq
  · exact hs _ _ _ hq

/-- A step without effects. -/
theorem background_silent (v : V) (hgw : s'.gateways = s.gateways)
    (hcomp : ∀ v port p, s'.components v port = some p →
      ∃ b : UInt8, p.proto.currentGroupId = b.toNat)
    (hlog : s'.log = s.log) (hsub : ∀ f ∈ s'.inFlight, f ∈ s.inFlight)
    (hkeep : ∀ f ∈ s.inFlight, ∀ w, f.receiver = .gateway w → f ∈ s'.inFlight ∨ ∃ i, a = .lose i) :
    Background d a s s' :=
  ⟨hgw, hcomp, ⟨v, 0, 0, none, [], by simp [hlog], fun f hf => Or.inl (hsub f hf), ⟨0, rfl⟩,
    by simp [CausedAt], effectsOk_nil, by simp⟩, hkeep⟩

theorem background_fork {v : V} {port : UInt16} (hwf : WellFormed d s)
    (h : step d s (.forkComponent v port) = some s') :
    Background d (.forkComponent v port) s s' := by
  simp only [step, Option.ite_none_right_eq_some, Option.some.injEq] at h
  obtain ⟨-, rfl⟩ := h
  refine background_silent v rfl (components_setComponent hwf.components ?_) rfl (fun _ h => h)
    fun f hf _ _ => Or.inl hf
  rintro q hq
  cases hq
  exact ⟨0, rfl⟩

theorem background_join {v : V} {port : UInt16} {time : UInt64} (hwf : WellFormed d s)
    (h : step d s (.joinComponent v port time) = some s') :
    Background d (.joinComponent v port time) s s' := by
  simp only [step] at h
  split at h
  · cases h
  · rename_i p hp
    split at h
    · cases h
    · obtain ⟨es, heq, hcases⟩ := setCurrentGroup_spec p.proto (d.group v).toNat time
      rw [heq] at h
      cases h
      refine ⟨rfl, components_setComponent hwf.components ?_, ⟨v, port, _, none, es, rfl, ?_,
        ⟨d.group v, rfl⟩, by simp [CausedAt], effectsOk_setCurrentGroup heq, ?_⟩, ?_⟩
      · rintro q hq
        cases hq
        exact ⟨d.group v, rfl⟩
      · intro f hf
        simpa using hf
      · intro x hx
        rcases hcases with ⟨b, g, ep, rfl⟩ | rfl
        · rw [mem_send hx]
          exact .send _ _ _ _ (Or.inr (Or.inl rfl))
        · rw [mem_send hx]
          exact .send _ _ _ _ (Or.inr (Or.inr rfl))
      · intro f hf _ _
        exact Or.inl (by simp [hf])

theorem background_sendLocal {v : V} {port : UInt16} {text : Bytes} {id time : UInt64}
    (hwf : WellFormed d s) (h : step d s (.sendLocal v port text id time) = some s') :
    Background d (.sendLocal v port text id time) s s' := by
  simp only [step] at h
  split at h
  · cases h
  · rename_i p hp
    split at h
    · unfold Car.sendLocal at h
      cases hdst : localDestination p.proto.address text with
      | error x =>
        simp only [hdst, bind, Except.bind] at h
        cases h
        exact background_silent v rfl (components_setComponent hwf.components (by simp)) rfl
          (fun _ h => h) fun f hf _ _ => Or.inl hf
      | ok r =>
        simp only [hdst, bind, Except.bind, pure, Except.pure] at h
        cases h
        refine ⟨rfl, hwf.components, ⟨v, port, _, none, _, rfl, ?_, hwf.components v port p hp,
          by simp [CausedAt], effectsOk_sendMessage rfl rfl, ?_⟩, ?_⟩
        · intro f hf
          simpa using hf
        · intro x hx
          rw [mem_send hx]
          exact .send _ _ _ _ (Or.inl rfl)
        · intro f hf _ _
          exact Or.inl (by simp [hf])
    · cases h

theorem background_arrive {v : V} {port : UInt16} {i : ℕ} {now : ℕ → UInt64} {stray : ℤ → ℤ}
    {f : Flight V} (hwf : WellFormed d s) (hi : s.inFlight[i]? = some f)
    (hr : f.receiver = .component v port) (h : step d s (.deliver i now stray) = some s') :
    Background d (.deliver i now stray) s s' := by
  have hf := hwf.flights f (List.mem_of_getElem? hi)
  have hkeep : ∀ f' ∈ s.inFlight, ∀ w, f'.receiver = .gateway w → f' ∈ s.inFlight.eraseIdx i := by
    intro f' hf' w hw
    refine mem_eraseIdx_of_ne hi hf' ?_
    rintro rfl
    rw [hr] at hw
    cases hw
  have hsub : ∀ f' ∈ s.inFlight.eraseIdx i, f' ∈ s.inFlight :=
    fun f' h => List.mem_of_mem_eraseIdx h
  simp only [step, hi, arrive, hr] at h
  cases hp : s.components v port with
  | none =>
    simp only [hp] at h
    cases h
    exact background_silent v rfl hwf.components rfl hsub fun f' hf' w hw =>
      Or.inl (hkeep f' hf' w hw)
  | some p =>
    simp only [hp] at h
    -- the component itself is unchanged, and only data reaches its owner
    have hreceived : ∃ es, update { now, stray } p.proto f.capsule = .ok (p.proto, es) ∧
        ∀ x ∈ es, ComponentEffect (some f) p.proto.currentGroupId x ∧
          copies d (.component v port) p.proto.currentGroupId x = [] := by
      cases hf with
      | data m hkind hpayload hcontrol hgroup =>
        refine ⟨_, update_data hpayload hcontrol, fun x hx => ?_⟩
        obtain ⟨po, rfl, hg⟩ := mem_forward_data (by simpa using hcontrol) hx
        exact ⟨.packet po f m rfl (Or.inl ⟨hkind, hgroup⟩) hg, rfl⟩
      | groupInfo q gid hkind hpayload =>
        refine ⟨_, update_groupInfo hpayload, fun x hx => ?_⟩
        obtain ⟨po, rfl, hg⟩ := mem_forward_data rfl hx
        exact ⟨.packet po f {} rfl (Or.inr ⟨hkind, rfl⟩) hg, rfl⟩
      | dropped e q src time hkind hpayload hbad =>
        exact ⟨[], update_dropped hpayload hbad, by simp⟩
      | sync e q src time w v' hkind hpayload he hsender hreceiver =>
        rw [hr] at hreceiver
        cases hreceiver
    obtain ⟨es, hu, hes⟩ := hreceived
    simp only [hu] at h
    cases h
    refine ⟨rfl, components_setComponent hwf.components ?_, ⟨v, port, _, some f, es, rfl, ?_,
      hwf.components v port p hp, ?_, effectsOk_of_copies_nil fun x hx => (hes x hx).2,
      fun x hx => (hes x hx).1⟩, ?_⟩
    · rintro q hq
      cases hq
      exact hwf.components v port p hp
    · intro f' hf'
      rcases mem_inFlight_perform.mp hf' with hf' | hf'
      · exact Or.inl (hsub f' hf')
      · exact Or.inr hf'
    · rintro f' hf'
      cases hf'
      exact ⟨i, now, stray, p, rfl, hi, hr, hp, rfl⟩
    · intro f' hf' w hw
      exact Or.inl (mem_inFlight_perform.mpr (Or.inl (hkeep f' hf' w hw)))

theorem background_lose {i : ℕ} (v : V) (hwf : WellFormed d s)
    (h : step d s (.lose i) = some s') : Background d (.lose i) s s' := by
  simp only [step, Option.ite_none_right_eq_some, Option.some.injEq] at h
  obtain ⟨-, rfl⟩ := h
  exact background_silent v rfl hwf.components rfl (fun f h => List.mem_of_mem_eraseIdx h)
    fun _ _ _ _ => Or.inr ⟨i, rfl⟩

theorem background_duplicate {i : ℕ} (hwf : WellFormed d s)
    (h : step d s (.duplicate i) = some s') : Background d (.duplicate i) s s' := by
  simp only [step] at h
  split at h
  · cases h
  · rename_i f hf
    cases h
    refine background_silent f.sender.vm rfl hwf.components rfl ?_ fun f' hf' _ _ =>
      Or.inl (by simp [hf'])
    intro f' hf'
    rcases List.mem_append.mp hf' with hf' | hf'
    · exact hf'
    · rw [List.mem_singleton.mp hf']
      exact List.mem_of_getElem? hf

end BackgroundSteps

/-- Everything a step can be. -/
inductive StepCase (d : Deployment V) (s : State V) : Action V → State V → Prop
  | act (v : V) (a : GatewayAction) (g : Gateway) (effects : List Effect)
      (hact : (s.gateways v).act (d.config v) a = some (g, effects)) :
      StepCase d s (.gateway v a)
        (perform d (setGateway s v g) (.gateway v) g.proto.currentGroupId none effects)
  | deliver (i : ℕ) (now : ℕ → UInt64) (stray : ℤ → ℤ) (f : Flight V) (v : V) (g : Gateway)
      (effects : List Effect) (hi : s.inFlight[i]? = some f) (hr : f.receiver = .gateway v)
      (hd : Delivered d v { now, stray } f (s.gateways v) g effects) :
      StepCase d s (.deliver i now stray)
        (perform d (setGateway { s with inFlight := s.inFlight.eraseIdx i } v g) (.gateway v)
          g.proto.currentGroupId (some f) effects)
  | background (a : Action V) (s' : State V) (hb : Background d a s s') : StepCase d s a s'

section Reachability

variable {d : Deployment V} {s s' : State V} {a : Action V}

theorem step_cases (hwf : WellFormed d s) (h : step d s a = some s') : StepCase d s a s' := by
  cases a with
  | gateway v a =>
    simp only [step, Option.map_eq_some_iff] at h
    obtain ⟨⟨g, effects⟩, hact, rfl⟩ := h
    exact .act v a g effects hact
  | forkComponent v port => exact .background _ _ (background_fork hwf h)
  | joinComponent v port time => exact .background _ _ (background_join hwf h)
  | sendLocal v port text id time => exact .background _ _ (background_sendLocal hwf h)
  | deliver i now stray =>
    cases hi : s.inFlight[i]? with
    | none => simp [step, hi] at h
    | some f =>
      cases hr : f.receiver with
      | component v port => exact .background _ _ (background_arrive hwf hi hr h)
      | gateway v =>
        have hd := delivered_of_content now stray (s.gateways v)
          (hwf.flights f (List.mem_of_getElem? hi)) hr
        simp only [step, hi, arrive, hr] at h
        cases h
        exact .deliver i now stray f v _ _ hi hr hd
  | lose i =>
    have hi : i < s.inFlight.length := by
      simp only [step, Option.ite_none_right_eq_some] at h
      exact h.1
    exact .background _ _ (background_lose (s.inFlight[i]).sender.vm hwf h)
  | duplicate i => exact .background _ _ (background_duplicate hwf h)

theorem wellFormed_initial (d : Deployment V) : WellFormed d (initial d) :=
  ⟨gatewayOk_initial d, by simp [initial], by simp [initial], by simp [initial]⟩

theorem gatewayOk_update {v : V} {g : Gateway} (h : ∀ w, GatewayOk d w (s.gateways w))
    (hg : GatewayOk d v g) (w : V) : GatewayOk d w (Function.update s.gateways v g w) := by
  by_cases hw : w = v
  · subst hw
    simpa using hg
  · simpa [hw] using h w

theorem senderGroup_of_mem_copies {node : Node V} {group : ℤ} {x : Effect} {f : Flight V}
    (hf : f ∈ copies d node group x) : f.senderGroup = group := by
  cases x with
  | transmit kind src dst payload =>
    obtain ⟨r, -, rfl⟩ := mem_copies hf
    rfl
  | _ => cases hf

/-- Old copies keep what they have and new ones have the content of their effects. -/
theorem wellFormed_perform {node : Node V} {group : ℤ} {cause : Option (Flight V)}
    {effects : List Effect} (hgw : ∀ v, GatewayOk d v (s.gateways v))
    (hcomp : ∀ v port p, s.components v port = some p →
      ∃ b : UInt8, p.proto.currentGroupId = b.toNat)
    (hold : ∀ f ∈ s.inFlight, Content d f ∧ ∃ b : UInt8, f.senderGroup = b.toNat)
    (hgroup : ∃ b : UInt8, group = b.toNat) (heffects : EffectsOk d node group effects) :
    WellFormed d (perform d s node group cause effects) := by
  refine ⟨hgw, hcomp, fun f hf => ?_, fun f hf => ?_⟩
  · rcases mem_inFlight_perform.mp hf with hf | ⟨x, hx, hf⟩
    exacts [(hold f hf).1, heffects x hx f hf]
  · rcases mem_inFlight_perform.mp hf with hf | ⟨x, hx, hf⟩
    exacts [(hold f hf).2, senderGroup_of_mem_copies hf ▸ hgroup]

theorem wellFormed_step (hwf : WellFormed d s) (h : step d s a = some s') : WellFormed d s' := by
  cases step_cases hwf h with
  | act v a g effects hact =>
    have hg := (hwf.gateways v).act hact
    exact wellFormed_perform (gatewayOk_update hwf.gateways hg) hwf.components
      (fun f hf => ⟨hwf.flights f hf, hwf.senders f hf⟩) hg.group_byte
      (effectsOk_act (hwf.gateways v) hact)
  | deliver i now stray f v g effects hi hr hd =>
    have hg := (hwf.gateways v).delivered hd
    refine wellFormed_perform (gatewayOk_update hwf.gateways hg) hwf.components
      (fun f' hf' => ?_) hg.group_byte (effectsOk_delivered (hwf.gateways v) rfl hd)
    have hmem := List.mem_of_mem_eraseIdx hf'
    exact ⟨hwf.flights f' hmem, hwf.senders f' hmem⟩
  | background _ _ hb =>
    obtain ⟨v, port, group, cause, es, -, hsub, hgroup, -, hes, -⟩ := hb.effects
    refine ⟨fun v => hb.gateways ▸ hwf.gateways v, hb.components, fun f hf => ?_, fun f hf => ?_⟩
    · rcases hsub f hf with hf | ⟨x, hx, hf⟩
      exacts [hwf.flights f hf, hes x hx f hf]
    · rcases hsub f hf with hf | ⟨x, hx, hf⟩
      exacts [hwf.senders f hf, senderGroup_of_mem_copies hf ▸ hgroup]

/-- The invariant holds in every state of every run, whatever its steps. -/
theorem wellFormed_of_reaches {ok : State V → Action V → Prop}
    (h : Reaches (step d) ok (initial d) s) : WellFormed d s :=
  h.invariant (WellFormed d) (wellFormed_initial d) fun _ _ _ hwf _ hu => wellFormed_step hwf hu

end Reachability

end CarNetwork.Fleet
