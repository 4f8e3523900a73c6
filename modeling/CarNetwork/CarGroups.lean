import CarNetwork.Delivery
import CarNetwork.Runs

/-!
# The group of a car

One machine: the gateway and its component processes, with whatever frames the
Ethernet and the shared memory bring them. The group id is a variable of each
process, set when the process joins and changed by an accepted GROUP_ASSIGN, which
only the process that receives it acts on. As long as such messages name the group
that the receiver is in, the whole car stays in one group and hears itself.
-/
namespace CarNetwork.Protocol

open CarNetwork.ByteText CarNetwork.Conversions CarNetwork.Ethernet

/-- The group that a frame assigns to its receiver, if it is a GROUP_ASSIGN with the right
tag and a number for its body. -/
def assignedGroup (env : Env) (c : AsyncCapsule) : Option ℤ :=
  match parseMessage c.payload with
  | .error _ => none
  | .ok msg =>
    if msg.control = .GROUP_ASSIGN ∧ env.accepts msg.msgac msg.body then
      match stoi (cleanBody msg.body) with
      | .ok gid => some gid
      | .error _ => none
    else none

section Group

variable {env : Env} {p p' : Instance} {msg : Message} {c : AsyncCapsule} {r : Handled}

theorem onGroupMoveRequest_group (h : onGroupMoveRequest env p msg = .ok r) :
    r.inst.currentGroupId = p.currentGroupId := by
  unfold onGroupMoveRequest at h
  simp only [bind, Except.bind] at h
  split at h
  · cases h
  · split at h
    · cases h
      rfl
    · split at h
      · cases h
        rfl
      · split at h
        · cases h
        · split at h
          · cases h
          · cases h
            rfl

theorem onGroupMoveNotify_group :
    (onGroupMoveNotify env p msg).inst.currentGroupId = p.currentGroupId := by
  unfold onGroupMoveNotify
  split
  · rfl
  · dsimp only
    split <;> rfl

theorem onGroupRegister_group (h : onGroupRegister env p msg = .ok r) :
    r.inst.currentGroupId = p.currentGroupId := by
  rw [onGroupRegister_eq] at h
  cases h
  split <;> rfl

theorem onGroupAssign_group (h : onGroupAssign env p msg = .ok r) :
    r.inst.currentGroupId = match stoi msg.body with
      | .ok gid => gid
      | .error _ => p.currentGroupId := by
  cases hbody : stoi msg.body with
  | error e =>
    rw [onGroupAssign_error hbody] at h
    cases h
    rfl
  | ok gid =>
    obtain ⟨effects, -, heq⟩ := onGroupAssign_ok env p hbody
    rw [heq] at h
    cases h
    rfl

/-- The four kinds of messages about groups. -/
def ControlType.isGroup : ControlType → Bool
  | .GROUP_REGISTER | .GROUP_MOVE_REQUEST | .GROUP_MOVE_NOTIFY | .GROUP_ASSIGN => true
  | _ => false

/-- The barrier and the clocks leave the groups alone. -/
theorem handle_keeps (h : handle env p msg c = .ok r) (hc : msg.control.isGroup = false) :
    r.inst.groups = p.groups ∧ r.inst.currentGroupId = p.currentGroupId ∧
      r.inst.address = p.address := by
  cases handle_cases h with
  | idle => exact ⟨rfl, rfl, rfl⟩
  | ready =>
    unfold onReady
    dsimp only
    split <;> exact ⟨rfl, rfl, rfl⟩
  | go =>
    unfold onGo
    split <;> exact ⟨rfl, rfl, rfl⟩
  | syncReq =>
    unfold onSyncReq
    split <;> exact ⟨rfl, rfl, rfl⟩
  | syncResp => exact ⟨rfl, rfl, rfl⟩
  | delayReq =>
    unfold onDelayReq
    split <;> exact ⟨rfl, rfl, rfl⟩
  | delayResp => exact ⟨rfl, rfl, rfl⟩
  -- the four messages about groups are excluded
  | moveRequest ht | moveNotify ht | assign ht | register ht => simp [ht, ControlType.isGroup] at hc

/-- What the barrier and the clocks send, and what else they do. -/
theorem effects_of_foreign (h : handle env p msg c = .ok r)
    (hc : msg.control.isGroup = false) {x : Effect} (hx : x ∈ r.effects) :
    (∃ q src dst t tag body time, t ≠ .NONE ∧ t.isGroup = false ∧
      x ∈ sendControl q src dst t tag body time) ∨
      x = .syncDoneCallback ∨ (∃ offset delay, x = .ptpSample offset delay) ∨ ∃ offset,
        x = .adjustTime offset := by
  cases handle_cases h with
  | idle => cases hx
  | ready =>
    unfold onReady at hx
    dsimp only at hx
    split at hx
    · exact Or.inl ⟨_, _, _, _, _, _, _, by simp, rfl, hx⟩
    · cases hx
  | go =>
    unfold onGo at hx
    split at hx
    · cases hx
    · dsimp only at hx
      split at hx
      · exact Or.inr (Or.inl (List.mem_singleton.mp hx))
      · cases hx
  | syncReq =>
    unfold onSyncReq at hx
    split at hx
    · exact Or.inl ⟨_, _, _, _, _, _, _, by simp, rfl, hx⟩
    · cases hx
  | syncResp => exact Or.inl ⟨_, _, _, _, _, _, _, by simp, rfl, hx⟩
  | delayReq =>
    unfold onDelayReq at hx
    split at hx
    · cases hx
    · exact Or.inl ⟨_, _, _, _, _, _, _, by simp, rfl, hx⟩
  | delayResp =>
    simp only [onDelayResp, List.mem_cons, List.not_mem_nil, or_false] at hx
    rcases hx with rfl | rfl
    · exact Or.inr (Or.inr (Or.inl ⟨_, _, rfl⟩))
    · exact Or.inr (Or.inr (Or.inr ⟨_, rfl⟩))
  -- the four messages about groups are excluded
  | moveRequest ht | moveNotify ht | assign ht | register ht => simp [ht, ControlType.isGroup] at hc

/-- Every branch of `notify_by_port` but one leaves the current group alone. -/
theorem handle_group (h : handle env p msg c = .ok r) (hassign : msg.control ≠ .GROUP_ASSIGN) :
    r.inst.currentGroupId = p.currentGroupId := by
  by_cases hc : msg.control.isGroup = false
  · exact (handle_keeps h hc).2.1
  · cases handle_cases h with
    | moveRequest _ hmove => exact onGroupMoveRequest_group hmove
    | moveNotify => exact onGroupMoveNotify_group
    | assign ht => exact (hassign ht).elim
    | register _ hregister => exact onGroupRegister_group hregister
    | idle => rfl
    | ready ht | go ht | syncReq ht | syncResp ht | delayReq ht | delayResp ht =>
      exact (hc (by rw [ht]; rfl)).elim

/-- The group after the reception of any frame. -/
theorem update_group {effects : List Effect} (h : update env p c = .ok (p', effects)) :
    p'.currentGroupId = (assignedGroup env c).getD p.currentGroupId := by
  by_cases hempty : c.payload.isEmpty = true
  · have hnil : c.payload = [] := List.isEmpty_iff.mp hempty
    rw [update, if_pos hempty] at h
    cases h
    simp [assignedGroup, hnil, parseMessage_of_no_field]
  rw [update, if_neg hempty, notifyByPort] at h
  cases hparse : parseMessage c.payload with
  | error e => simp [hparse, bind, Except.bind] at h
  | ok msg =>
    simp only [hparse, bind, Except.bind] at h
    split at h
    · rename_i hbad
      cases h
      simp [assignedGroup, hparse, hbad.2]
    · rename_i hgood
      split at h
      · cases h
      · rename_i r hr
        cases h
        by_cases hassign : msg.control = .GROUP_ASSIGN
        · have haccepts : env.accepts msg.msgac msg.body = true := by
            by_contra hno
            exact hgood ⟨by simp [hassign], by simpa using hno⟩
          rw [handle, hassign] at hr
          rw [onGroupAssign_group hr]
          simp only [assignedGroup, hparse, hassign, haccepts, and_self, if_true]
          cases stoi (cleanBody msg.body) <;> rfl
        · rw [handle_group hr hassign]
          simp [assignedGroup, hparse, hassign]

/-- What a process does with a data message of its own group: it tells every observer of
the port. -/
theorem update_own_group {m : Message} (hp : c.payload = buildMessage m) (hm : m.control = .NONE)
    (hg : (m.groupId.toNat : ℤ) = p.currentGroupId) :
    update env p c = .ok (p, (p.portObservers.filter fun po =>
      po.port = c.dst.port ∨ po.port = ANY_PORT).map (.onPacket · c)) := by
  have hflat (l : List PortObserver) : (l.flatMap fun po =>
      if po.port = c.dst.port ∨ po.port = ANY_PORT then [Effect.onPacket po c] else []) =
      (l.filter fun po => po.port = c.dst.port ∨ po.port = ANY_PORT).map (.onPacket · c) := by
    induction l with
    | nil => rfl
    | cons po rest ih =>
      rw [List.flatMap_cons, ih, List.filter_cons]
      by_cases hpo : po.port = c.dst.port ∨ po.port = ANY_PORT <;> simp [hpo]
  rw [update_data hp hm, ← hflat]
  simp [forwardToObservers, hm, hg]

end Group

end CarNetwork.Protocol

namespace CarNetwork.Car

open CarNetwork.ByteText CarNetwork.Conversions CarNetwork.Ethernet CarNetwork.Protocol
  CarNetwork.Runs

/-- What `Car::start` makes of the vehicle id. -/
def startConfig (mac : Address) (vmId : ℕ) (totalSyncVms : ℤ) : Config where
  mac := mac
  vmId := vmId
  groupId := vmId / 10
  isSyncMaster := vmId % 10 = 0
  totalSyncVms := totalSyncVms

/-- The group of a forked component goes through a `uint8_t`. -/
def componentGroup (cfg : Config) : ℤ := (UInt8.ofInt (cfg.vmId / 10)).toNat

structure CarState where
  gateway : Gateway
  components : UInt16 → Option Component

/-- The steps of the processes of a car. Frames come from anywhere, with any content. -/
inductive CarAction
  | gateway (a : GatewayAction)
  | toGateway (c : AsyncCapsule) (now : ℕ → UInt64) (stray : ℤ → ℤ)
  | forkComponent (port : UInt16)
  | joinComponent (port : UInt16) (time : UInt64)
  | sendLocal (port : UInt16) (s : Bytes) (id time : UInt64)
  | toComponent (port : UInt16) (c : AsyncCapsule) (now : ℕ → UInt64) (stray : ℤ → ℤ)

namespace CarState

def initial (cfg : Config) : CarState := ⟨{ proto := { address := cfg.mac } }, fun _ => none⟩

def setComponent (s : CarState) (port : UInt16) (p : Option Component) : CarState :=
  { s with components := Function.update s.components port p }

/-- A component that throws is gone. -/
def step (cfg : Config) (s : CarState) : CarAction → Option CarState
  | .gateway a => (s.gateway.act cfg a).map fun r => { s with gateway := r.1 }
  | .toGateway c now stray => some { s with gateway := (s.gateway.deliver { now, stray } cfg c).1 }
  | .forkComponent port =>
    if s.gateway.phase = .running ∧ cfg.isSyncMaster = false ∧ port ∈ componentPorts ∧
        s.components port = none then
      some (s.setComponent port (some { proto := initializeCommunicator cfg.mac port }))
    else none
  | .joinComponent port time =>
    match s.components port with
    | none => none
    | some p =>
      if p.joined then none
      else match setCurrentGroup p.proto (componentGroup cfg) time with
        | .error _ => some (s.setComponent port none)
        | .ok (proto, _) => some (s.setComponent port (some { proto, joined := true }))
  | .sendLocal port text id time =>
    match s.components port with
    | none => none
    | some p =>
      if p.joined then
        match Car.sendLocal p.proto port text id time with
        | .error _ => some (s.setComponent port none)
        | .ok _ => some s
      else none
  | .toComponent port c now stray =>
    match s.components port with
    | none => none
    | some p =>
      match update { now, stray } p.proto c with
      | .error _ => some (s.setComponent port none)
      | .ok (proto, _) => some (s.setComponent port (some { p with proto }))

end CarState

/-- The action hands an accepted GROUP_ASSIGN to a process that is in another group. -/
def reassigns (s : CarState) : CarAction → Bool
  | .toGateway c now stray =>
    s.gateway.phase.hears && (assignedGroup { now, stray } c).any (· ≠
      s.gateway.proto.currentGroupId)
  | .toComponent port c now stray =>
    (s.components port).any fun p =>
      (assignedGroup { now, stray } c).any (· ≠ p.proto.currentGroupId)
  | _ => false

/-! ## One group -/

/-- The gateway is on, in the group of the vehicle id. -/
def Settled (vmId : ℕ) (g : Gateway) : Prop :=
  g.phase ≠ .off ∧ g.proto.currentGroupId = (vmId : ℤ) / 10

/-- The processes that have joined are in the group of the vehicle id, the others in group
0, and components are forked by a gateway that has joined. -/
structure OneGroup (vmId : ℕ) (s : CarState) : Prop where
  gateway : s.gateway.phase.hasJoined = true → s.gateway.proto.currentGroupId = vmId / 10
  forked : ∀ port p, s.components port = some p → Settled vmId s.gateway
  component : ∀ port p, s.components port = some p →
    p.proto.currentGroupId = if p.joined then (vmId : ℤ) / 10 else 0

section Steps

variable {mac : Address} {vmId : ℕ} {total : ℤ} {s s' : CarState}

/-- The gateway's own steps change its group when it is switched on and when it joins. -/
theorem act_group {cfg : Config} {g g' : Gateway} {a : GatewayAction} {effects : List Effect}
    (h : g.act cfg a = some (g', effects)) :
    (g.phase = .off ∧ g'.phase = .listening) ∨
    (g'.phase ≠ .off ∧ g'.proto.currentGroupId = cfg.groupId) ∨
    (g'.phase ≠ .off ∧ g'.proto.currentGroupId = g.proto.currentGroupId ∧
      (g'.phase.hasJoined = true → g.phase.hasJoined = true)) := by
  cases a with
  | listen =>
    simp only [Gateway.act, Option.ite_none_right_eq_some, Option.some.injEq, Prod.mk.injEq] at h
    obtain ⟨hph, rfl, -⟩ := h
    exact Or.inl ⟨hph, rfl⟩
  | joinGroup time =>
    obtain ⟨es, heq, -⟩ := setCurrentGroup_spec g.proto cfg.groupId time
    simp only [Gateway.act, heq, Option.ite_none_right_eq_some, Option.some.injEq,
      Prod.mk.injEq] at h
    obtain ⟨-, rfl, -⟩ := h
    exact Or.inr (Or.inl ⟨by simp, rfl⟩)
  | setMaster =>
    simp only [Gateway.act, Option.ite_none_right_eq_some, Option.some.injEq, Prod.mk.injEq] at h
    obtain ⟨hph, rfl, -⟩ := h
    refine Or.inr (Or.inr ⟨by simp, ?_, by simp [hph, Phase.hasJoined]⟩)
    dsimp only
    split <;> rfl
  | tick now =>
    simp only [Gateway.act, Option.ite_none_right_eq_some, Option.some.injEq] at h
    obtain ⟨ptp, timeout, request, last, heq⟩ := Gateway.onTick_fst cfg g now
    rw [h.2] at heq
    dsimp only at heq
    subst heq
    exact Or.inr (Or.inr ⟨by simp [h.1], rfl, id⟩)
  | checkReady =>
    simp only [Gateway.act, Option.ite_none_right_eq_some, Option.some.injEq, Prod.mk.injEq] at h
    obtain ⟨⟨hb, -⟩, rfl, -⟩ := h
    exact Or.inr (Or.inr ⟨fun hoff => by simp_all [Phase.atBarrier], rfl, id⟩)
  | sendReady time =>
    simp only [Gateway.act, Option.ite_none_right_eq_some, Option.some.injEq, Prod.mk.injEq] at h
    obtain ⟨⟨hb, -⟩, rfl, -⟩ := h
    exact Or.inr (Or.inr ⟨fun hoff => by simp_all [Phase.atBarrier], rfl, id⟩)
  | leaveBarrier =>
    simp only [Gateway.act, Option.ite_none_right_eq_some, Option.some.injEq, Prod.mk.injEq] at h
    obtain ⟨⟨hph, -⟩, rfl, -⟩ := h
    exact Or.inr (Or.inr ⟨by simp, rfl, by simp [hph, Phase.hasJoined]⟩)
  | _ =>
    simp only [Gateway.act, Option.ite_none_right_eq_some, Option.some.injEq, Prod.mk.injEq] at h
    obtain ⟨hph, rfl, -⟩ := h
    exact Or.inr (Or.inr ⟨by simp, rfl, by simp [hph, Phase.hasJoined]⟩)

/-- A frame that does not reassign the gateway leaves it in its group. -/
theorem deliver_group {env : Env} (cfg : Config) {g : Gateway} {c : AsyncCapsule}
    (hok : g.phase.hears = true → ∀ gid, assignedGroup env c = some gid →
      gid = g.proto.currentGroupId) :
    (g.deliver env cfg c).1.proto.currentGroupId = g.proto.currentGroupId ∧
    ((g.deliver env cfg c).1.phase = g.phase ∨ (g.deliver env cfg c).1.phase = .crashed) := by
  unfold Gateway.deliver
  split
  swap
  · exact ⟨rfl, Or.inl rfl⟩
  rename_i hh
  split
  · rename_i r hr
    unfold Gateway.receive at hr
    simp only [bind, Except.bind] at hr
    split at hr
    · cases hr
    · rename_i u hu
      split at hr
      · cases hr
      · cases hr
        refine ⟨?_, Or.inl rfl⟩
        have hgroup := update_group hu
        cases ha : assignedGroup env c with
        | none => simpa [ha] using hgroup
        | some gid => simpa [ha, hok hh gid ha] using hgroup
  · exact ⟨rfl, Or.inr rfl⟩

/-- A vehicle id below 2560 has a group that fits a byte. -/
theorem componentGroup_eq (hvm : vmId < 2560) :
    componentGroup (startConfig mac vmId total) = vmId / 10 := by
  simp only [componentGroup, startConfig, toNat_uint8_ofInt]
  omega

theorem OneGroup.setComponent (hi : OneGroup vmId s) {port : UInt16} {p : Option Component}
    (hforked : ∀ q, p = some q → Settled vmId s.gateway)
    (hcomponent : ∀ q, p = some q →
      q.proto.currentGroupId = if q.joined then (vmId : ℤ) / 10 else 0) :
    OneGroup vmId (s.setComponent port p) := by
  refine ⟨hi.gateway, fun port' q hq => ?_, fun port' q hq => ?_⟩ <;>
    simp only [CarState.setComponent, Function.update_apply] at hq <;> split at hq
  · exact hforked q hq
  · exact hi.forked port' q hq
  · exact hcomponent q hq
  · exact hi.component port' q hq

theorem keeps_of_reassigns {c : AsyncCapsule} {now : ℕ → UInt64} {stray : ℤ → ℤ}
    (hok : reassigns s (.toGateway c now stray) = false)
    (hh : s.gateway.phase.hears = true) (gid : ℤ)
    (hgid : assignedGroup { now, stray } c = some gid) : gid = s.gateway.proto.currentGroupId := by
  simpa [reassigns, hh, hgid] using hok

theorem settled_step {a : CarAction} (hg : Settled vmId s.gateway) (hok : reassigns s a = false)
    (h : CarState.step (startConfig mac vmId total) s a = some s') : Settled vmId s'.gateway := by
  cases a with
  | gateway a =>
    simp only [CarState.step, Option.map_eq_some_iff] at h
    obtain ⟨⟨g, effects⟩, hact, rfl⟩ := h
    rcases act_group hact with ⟨hoff, -⟩ | ⟨hon, hgroup⟩ | ⟨hon, hgroup, -⟩
    · exact (hg.1 hoff).elim
    · exact ⟨hon, hgroup⟩
    · exact ⟨hon, hgroup.trans hg.2⟩
  | toGateway c now stray =>
    cases h
    obtain ⟨hgroup, hphase⟩ := deliver_group (startConfig mac vmId total) (keeps_of_reassigns hok)
    refine ⟨?_, hgroup.trans hg.2⟩
    dsimp only
    rcases hphase with hphase | hphase <;> rw [hphase]
    · exact hg.1
    · simp
  | forkComponent port =>
    simp only [CarState.step, Option.ite_none_right_eq_some, Option.some.injEq] at h
    obtain ⟨-, rfl⟩ := h
    exact hg
  | joinComponent port time =>
    simp only [CarState.step] at h
    split at h
    · cases h
    · split at h
      · cases h
      · split at h <;> cases h <;> exact hg
  | sendLocal port text id time =>
    simp only [CarState.step] at h
    split at h
    · cases h
    · split at h
      · split at h <;> cases h <;> exact hg
      · cases h
  | toComponent port c now stray =>
    simp only [CarState.step] at h
    split at h
    · cases h
    · split at h <;> cases h <;> exact hg

theorem oneGroup_step {a : CarAction} (hvm : vmId < 2560) (hi : OneGroup vmId s)
    (hok : reassigns s a = false) (h : CarState.step (startConfig mac vmId total) s a = some s') :
    OneGroup vmId s' := by
  have hsettled := fun hg => settled_step hg hok h
  cases a with
  | gateway a =>
    simp only [CarState.step, Option.map_eq_some_iff] at h
    obtain ⟨⟨g, effects⟩, hact, rfl⟩ := h
    refine ⟨fun hj => ?_, fun port p hp => hsettled (hi.forked port p hp), hi.component⟩
    rcases act_group hact with ⟨-, hlisten⟩ | ⟨-, hgroup⟩ | ⟨-, hgroup, hback⟩
    · simp [hlisten, Phase.hasJoined] at hj
    · exact hgroup
    · exact hgroup.trans (hi.gateway (hback hj))
  | toGateway c now stray =>
    cases h
    refine ⟨fun hj => ?_, fun port p hp => hsettled (hi.forked port p hp), hi.component⟩
    obtain ⟨hgroup, hphase⟩ := deliver_group (startConfig mac vmId total) (keeps_of_reassigns hok)
    refine hgroup.trans (hi.gateway ?_)
    rcases hphase with hphase | hphase <;> rw [hphase] at hj
    · exact hj
    · cases hj
  | forkComponent port =>
    simp only [CarState.step, Option.ite_none_right_eq_some, Option.some.injEq] at h
    obtain ⟨⟨hrun, -⟩, rfl⟩ := h
    refine hi.setComponent (fun q _ => ⟨by simp [hrun], hi.gateway (by rw [hrun]; rfl)⟩)
      fun q hq => ?_
    cases hq
    rfl
  | joinComponent port time =>
    simp only [CarState.step] at h
    split at h
    · cases h
    · rename_i p hp
      split at h
      · cases h
      · obtain ⟨es, heq, -⟩ := setCurrentGroup_spec p.proto
          (componentGroup (startConfig mac vmId total)) time
        rw [heq] at h
        cases h
        refine hi.setComponent (fun q _ => hi.forked port p hp) fun q hq => ?_
        cases hq
        exact componentGroup_eq hvm
  | sendLocal port text id time =>
    simp only [CarState.step] at h
    split at h
    · cases h
    · split at h
      · split at h
        · cases h
          exact hi.setComponent (by simp) (by simp)
        · cases h
          exact hi
      · cases h
  | toComponent port c now stray =>
    simp only [CarState.step] at h
    split at h
    · cases h
    · rename_i p hp
      split at h
      · cases h
        exact hi.setComponent (by simp) (by simp)
      · rename_i proto effects hu
        cases h
        refine hi.setComponent (fun q _ => hi.forked port p hp) fun q hq => ?_
        cases hq
        have hgroup := update_group hu
        have hsame : proto.currentGroupId = p.proto.currentGroupId := by
          cases ha : assignedGroup { now, stray } c with
          | none => simpa [ha] using hgroup
          | some gid =>
            have : gid = p.proto.currentGroupId := by simpa [reassigns, hp, ha] using hok
            simpa [ha, this] using hgroup
        exact hsame.trans (hi.component port p hp)

theorem oneGroup_of_reaches {s₀ : CarState} (hvm : vmId < 2560) (hi : OneGroup vmId s₀)
    (h : Reaches (CarState.step (startConfig mac vmId total)) (fun s a =>
      reassigns s a = false) s₀ s) :
    OneGroup vmId s :=
  h.invariant (OneGroup vmId) hi fun _ _ _ hi hok hu => oneGroup_step hvm hi hok hu

end Steps

/-! ## Local traffic -/

/-- The frame passes the group filter of a process: every observer of the port is told. -/
def Heard (env : Env) (p : Instance) (c : AsyncCapsule) : Prop :=
  update env p c = .ok (p, (p.portObservers.filter fun po =>
    po.port = c.dst.port ∨ po.port = ANY_PORT).map (.onPacket · c))

theorem heard_of_group {env : Env} {p : Instance} {c : AsyncCapsule} {m : Message} {vmId : ℕ}
    (hvm : vmId < 2560) (hc : c.payload = buildMessage m) (hm : m.control = .NONE)
    (hsent : m.groupId = UInt8.ofInt ((vmId : ℤ) / 10)) (hp : p.currentGroupId = (vmId : ℤ) / 10) :
    Heard env p c := by
  refine update_own_group hc hm ?_
  rw [hsent, toNat_uint8_ofInt, hp]
  omega

theorem mem_sendLocal {p : Instance} {port : UInt16} {text : Bytes} {id time : UInt64}
    {effects : List Effect} (h : sendLocal p port text id time = .ok effects) {x : Effect}
    (hx : x ∈ effects) : ∃ src dst m, x = .transmit .data src dst (buildMessage m) ∧
      m.control = .NONE ∧ m.groupId = UInt8.ofInt p.currentGroupId := by
  unfold sendLocal at h
  simp only [bind, Except.bind] at h
  split at h
  · cases h
  · cases h
    exact ⟨_, _, _, mem_send hx, rfl, rfl⟩

section Traffic

variable {mac : Address} {vmId : ℕ} {total : ℤ} {s t : CarState} {port : UInt16} {p q : Component}

/-- A car stays connected: let the vehicle id be below 2560 and let no process of the car
be handed an accepted GROUP_ASSIGN that names another group than its own. Then in
every state reached a component is in the gateway's group exactly when it has
joined, or the group is 0 anyway, and what the two send each other passes the group
filter, also in a later state. -/
theorem car_hears_itself (hvm : vmId < 2560)
    (hs : Reaches (CarState.step (startConfig mac vmId total)) (fun s a => reassigns s a = false)
      (.initial (startConfig mac vmId total)) s)
    (ht : Reaches (CarState.step (startConfig mac vmId total)) (fun s a =>
      reassigns s a = false) s t)
    (hp : s.components port = some p) :
    (p.proto.currentGroupId = s.gateway.proto.currentGroupId ↔ p.joined = true ∨ vmId < 10) ∧
    ((p.joined = true ∨ vmId < 10) → ∀ text id time effects,
      sendLocal p.proto port text id time = .ok effects → ∀ kind src dst payload,
      .transmit kind src dst payload ∈ effects → ∀ env,
      Heard env t.gateway.proto ⟨src, dst, .sharedMemory, payload⟩) ∧
    (∀ q, t.components port = some q → (q.joined = true ∨ vmId < 10) → ∀ rx now,
      rx.msg.control = .NONE → ∀ kind src dst payload,
      .transmit kind src dst payload ∈ s.gateway.onReceive (startConfig mac vmId total) rx now →
      ∀ env, Heard env q.proto ⟨src, dst, .sharedMemory, payload⟩) := by
  have hi := oneGroup_of_reaches hvm ⟨by simp [CarState.initial, Phase.hasJoined],
    by simp [CarState.initial], by simp [CarState.initial]⟩ hs
  have hi' := oneGroup_of_reaches hvm hi ht
  have hgateway := (hi.forked port p hp).2
  have hgroup {u : CarState} {q : Component} (hu : OneGroup vmId u)
      (hq : u.components port = some q)
      (hj : q.joined = true ∨ vmId < 10) : q.proto.currentGroupId = (vmId : ℤ) / 10 := by
    rw [hu.component port q hq]
    split
    · rfl
    · have : vmId < 10 := hj.resolve_left (by assumption)
      omega
  refine ⟨⟨fun heq => ?_, fun hj => (hgroup hi hp hj).trans hgateway.symm⟩, ?_, ?_⟩
  · rw [hi.component port p hp, hgateway] at heq
    split at heq
    · exact Or.inl (by assumption)
    · exact Or.inr (by omega)
  · intro hj text id time effects hsend kind src dst payload hx env
    obtain ⟨_, _, m, hx', hm, hmg⟩ := mem_sendLocal hsend hx
    cases hx'
    have hlater : Settled vmId t.gateway := ht.invariant (fun u => Settled vmId u.gateway)
      (hi.forked port p hp) fun _ _ _ hg hok hu => settled_step hg hok hu
    exact heard_of_group hvm rfl hm (hgroup hi hp hj ▸ hmg) hlater.2
  · intro q hq hj rx now hrx kind src dst payload hx env
    obtain ⟨_, _, m, hx', hm, hmg⟩ := Gateway.mem_onReceive hx
    cases hx'
    exact heard_of_group hvm rfl (hm.trans hrx) (hgateway ▸ hmg) (hgroup hi' hq hj)

end Traffic

/-- The address of the car in the runs below, vehicle 11 of group 1. -/
def carMac : Address := ⟨#v[0x52, 0x54, 0x00, 0x12, 0x34, 11]⟩

/-- A frame from the coordinator of group 1. -/
def fromCoordinator (e : Emission) (tag : UInt8) : AsyncCapsule :=
  let coordinator : Address := ⟨#v[0x52, 0x54, 0x00, 0x12, 0x34, 10]⟩
  { src := ⟨coordinator, GATEWAY_PORT⟩
    dst := ⟨Address.BROADCAST, GATEWAY_PORT⟩
    origin := .ethernet
    payload := buildMessage (controlMessage { address := coordinator, currentGroupId := 1 }
      ⟨coordinator, GATEWAY_PORT⟩ e.type tag e.body 0) }

/-- The car passes the barrier and starts its brake component. -/
def startRun : List CarAction :=
  [.gateway .listen, .gateway (.joinGroup 0), .gateway .installCallback, .gateway .setMaster,
    .gateway .enableStartSync, .toGateway (fromCoordinator .go 0) (fun _ => 0) (fun _ => 0),
    .gateway .leaveBarrier, .forkComponent BRAKE_PORT, .joinComponent BRAKE_PORT 0]

/-- An accepted GROUP_ASSIGN to the car's own group changes nothing. -/
theorem car_stays_together :
    ∃ s p, Reaches (CarState.step (startConfig carMac 11 1)) (fun s a => reassigns s a = false)
        (.initial (startConfig carMac 11 1)) s ∧ s.components BRAKE_PORT = some p ∧
          p.joined = true ∧
      p.proto.currentGroupId = s.gateway.proto.currentGroupId := by
  have hrun : ((runIf (fun s a => !reassigns s a) (CarState.step (startConfig carMac 11 1))
      (.initial (startConfig carMac 11 1)) (startRun ++
        [.toGateway (fromCoordinator (.groupAssign 1)
        (generateMac SECRET_KEY (Emission.groupAssign 1).body)) (fun _ => 0) (fun _ => 0)])).map
      fun s => (s.components BRAKE_PORT).map (·.joined)) = some (some true) := by decide +kernel
  obtain ⟨s, hs, hobs⟩ := exists_reaches_of_runIf (fun s a => reassigns s a = false)
    _ (by simp) hrun
  obtain ⟨p, hp, hjoined⟩ := Option.map_eq_some_iff.mp hobs
  exact ⟨s, p, hs, hp, hjoined, (car_hears_itself (by decide) hs .refl hp).1.mpr (Or.inl hjoined)⟩

/-- What the statement about the next run looks at: has the component joined, its group, the
group of the gateway, and how many observers of the gateway hear of its "brake!". -/
def brakeHeard (s : CarState) : Option (Bool × ℤ × ℤ × ℕ) :=
  (s.components BRAKE_PORT).bind fun p =>
    match sendLocal p.proto BRAKE_PORT (ascii "brake!") 0 0 with
    | .ok [.transmit _ src dst payload] =>
      match update { now := fun _ => 0, stray := fun _ => 0 } s.gateway.proto
        ⟨src, dst, .sharedMemory, payload⟩ with
      | .ok (_, effects) =>
        some (p.joined, p.proto.currentGroupId, s.gateway.proto.currentGroupId, effects.length)
      | .error _ => none
    | _ => none

/-- An accepted GROUP_ASSIGN to group 3 reaches the gateway: the component stays in group 1
and nothing it says is heard any more. -/
theorem car_split :
    ∃ s, Reachable (CarState.step (startConfig carMac 11 1))
      (.initial (startConfig carMac 11 1)) s ∧
      brakeHeard s = some (true, 1, 3, 0) := by
  refine exists_reachable_of_run (startRun ++ [.toGateway (fromCoordinator (.groupAssign 3)
    (generateMac SECRET_KEY (Emission.groupAssign 3).body)) (fun _ => 0) (fun _ => 0)]) ?_
  decide +kernel

end CarNetwork.Car
