import CarNetwork.FleetInvariant

/-!
# What a step does to the start barrier

The barrier's data of a gateway are its ready set, the flags of a GO sent and
received, and the release. This module says, once for the safety and the progress
results, how an own step and how the delivery of a copy change them.
-/
namespace CarNetwork.Fleet

open CarNetwork.ByteText CarNetwork.Ethernet CarNetwork.Protocol CarNetwork.Car
open CarNetwork.Conversions

variable {V : Type} [DecidableEq V]

/-- The effect broadcasts GO. -/
def isGo : Effect → Bool
  | .transmit (.control .GO) _ _ _ => true
  | _ => false

/-- The effect is a call of `_sync_done_callback`. -/
def isCallback : Effect → Bool
  | .syncDoneCallback => true
  | _ => false

/-- The effect broadcasts READY. -/
def isReady : Effect → Bool
  | .transmit (.control .READY) _ _ _ => true
  | _ => false

/-- Neither GO nor a callback among the effects. -/
def NoBarrierEffect (effects : List Effect) : Prop :=
  ∀ x ∈ effects, isGo x = false ∧ isCallback x = false

/-- The barrier's data are the same in both states. -/
structure SameBarrier (g g' : Gateway) : Prop where
  ready : g'.proto.syncReadyNodes = g.proto.syncReadyNodes
  goSent : g'.proto.syncGoSent = g.proto.syncGoSent
  goReceived : g'.proto.syncGoReceived = g.proto.syncGoReceived
  syncDone : g'.syncDone = g.syncDone

theorem SameBarrier.refl (g : Gateway) : SameBarrier g g := ⟨rfl, rfl, rfl, rfl⟩

section Own

variable {d : Deployment V} {v : V} {g g' : Gateway} {a : GatewayAction} {effects : List Effect}

/-- Own steps keep the barrier's data, except that `enable_start_sync` starts the ready
set afresh, with the own address on a car. -/
theorem act_barrier (h : GatewayOk d v g) (ha : g.act (d.config v) a = some (g', effects)) :
    (SameBarrier g g' ∧ (g'.phase.atBarrier = true → g.phase.atBarrier = true)) ∨
    (g.phase.atBarrier = false ∧ g'.phase.atBarrier = true ∧
      g'.proto.syncReadyNodes = (if d.isCoordinator v then ∅ else {(d.mac v).str}) ∧
      g'.proto.syncGoSent = g.proto.syncGoSent ∧ g'.proto.syncGoReceived = g.proto.syncGoReceived ∧
      g'.syncDone = g.syncDone) := by
  cases a with
  | listen =>
    simp only [Gateway.act, Option.ite_none_right_eq_some, Option.some.injEq, Prod.mk.injEq] at ha
    obtain ⟨hph, rfl, -⟩ := ha
    have hidle := h.idle hph
    exact Or.inl ⟨⟨by simp [hidle, initializeCommunicator], by simp [hidle, initializeCommunicator],
      by simp [hidle, initializeCommunicator], rfl⟩, by simp [Phase.atBarrier]⟩
  | joinGroup time =>
    obtain ⟨es, heq, -⟩ := setCurrentGroup_spec g.proto (d.config v).groupId time
    simp only [Gateway.act, heq, Option.ite_none_right_eq_some, Option.some.injEq,
      Prod.mk.injEq] at ha
    obtain ⟨-, rfl, -⟩ := ha
    exact Or.inl ⟨⟨rfl, rfl, rfl, rfl⟩, by simp [Phase.atBarrier]⟩
  | setMaster =>
    simp only [Gateway.act, Option.ite_none_right_eq_some, Option.some.injEq, Prod.mk.injEq] at ha
    obtain ⟨-, rfl, -⟩ := ha
    refine Or.inl ⟨?_, by simp [Phase.atBarrier]⟩
    constructor <;> dsimp only <;> split <;> rfl
  | enableStartSync =>
    simp only [Gateway.act, Option.ite_none_right_eq_some, Option.some.injEq, Prod.mk.injEq] at ha
    obtain ⟨hph, rfl, -⟩ := ha
    have hm : g.proto.isMaster = d.isCoordinator v := by simp [h.isMaster, hph, Phase.hasRole]
    refine Or.inr ⟨by rw [hph]; rfl, rfl, ?_, rfl, rfl, rfl⟩
    simp [Protocol.enableStartSync, hm, Gateway.localEp, h.address]
  | tick now =>
    simp only [Gateway.act, Option.ite_none_right_eq_some, Option.some.injEq] at ha
    obtain ⟨-, ha⟩ := ha
    obtain ⟨ptp, timeout, request, last, heq⟩ := Gateway.onTick_fst (d.config v) g now
    rw [ha] at heq
    dsimp only at heq
    subst heq
    exact Or.inl ⟨⟨rfl, rfl, rfl, rfl⟩, id⟩
  | leaveBarrier =>
    simp only [Gateway.act, Option.ite_none_right_eq_some, Option.some.injEq, Prod.mk.injEq] at ha
    obtain ⟨⟨hph, -⟩, rfl, -⟩ := ha
    exact Or.inl ⟨⟨rfl, rfl, rfl, rfl⟩, fun _ => by rw [hph]; rfl⟩
  | installCallback =>
    simp only [Gateway.act, Option.ite_none_right_eq_some, Option.some.injEq, Prod.mk.injEq] at ha
    obtain ⟨-, rfl, -⟩ := ha
    exact Or.inl ⟨⟨rfl, rfl, rfl, rfl⟩, by simp [Phase.atBarrier]⟩
  | _ =>
    simp only [Gateway.act, Option.ite_none_right_eq_some, Option.some.injEq, Prod.mk.injEq] at ha
    obtain ⟨-, rfl, -⟩ := ha
    exact Or.inl ⟨⟨rfl, rfl, rfl, rfl⟩, id⟩

/-- A node that is at the barrier does not go back. -/
theorem atBarrier_act {cfg : Config} (ha : g.act cfg a = some (g', effects))
    (hb : g.phase.atBarrier = true) : g'.phase.atBarrier = true := by
  have hno {ph : Phase} (hph : g.phase = ph) (hfalse : ph.atBarrier = false) : False := by
    rw [hph, hfalse] at hb
    cases hb
  cases a with
  | joinGroup time =>
    simp only [Gateway.act, Option.ite_none_right_eq_some] at ha
    exact (hno ha.1 rfl).elim
  | tick now =>
    simp only [Gateway.act, Option.ite_none_right_eq_some, Option.some.injEq] at ha
    obtain ⟨ptp, timeout, request, last, heq⟩ := Gateway.onTick_fst cfg g now
    rw [ha.2] at heq
    dsimp only at heq
    subst heq
    exact hb
  | leaveBarrier =>
    simp only [Gateway.act, Option.ite_none_right_eq_some, Option.some.injEq, Prod.mk.injEq] at ha
    obtain ⟨-, rfl, -⟩ := ha
    rfl
  | checkReady =>
    simp only [Gateway.act, Option.ite_none_right_eq_some, Option.some.injEq, Prod.mk.injEq] at ha
    obtain ⟨-, rfl, -⟩ := ha
    exact hb
  | sendReady time =>
    simp only [Gateway.act, Option.ite_none_right_eq_some, Option.some.injEq, Prod.mk.injEq] at ha
    obtain ⟨-, rfl, -⟩ := ha
    exact hb
  | _ =>
    simp only [Gateway.act, Option.ite_none_right_eq_some] at ha
    exact (hno ha.1 rfl).elim

/-- Own steps broadcast no GO; READY only from a car at the barrier. -/
theorem act_effects (h : GatewayOk d v g) (ha : g.act (d.config v) a = some (g', effects)) :
    NoBarrierEffect effects ∧ ∀ x ∈ effects, isReady x = true →
      g.phase.atBarrier = true ∧ d.isCoordinator v = false ∧ ∃ src payload,
        x = .transmit (.control .READY) src ⟨Address.BROADCAST, GATEWAY_PORT⟩ payload := by
  constructor
  · intro x hx
    cases Gateway.ownSend_of_act ha hx with
    | group kind src dst payload hkind => rcases hkind with rfl | rfl | rfl <;> exact ⟨rfl, rfl⟩
    | ready => exact ⟨rfl, rfl⟩
    | syncReq => exact ⟨rfl, rfl⟩
  · intro x hx hready
    cases Gateway.ownSend_of_act ha hx with
    | group kind src dst payload hkind => rcases hkind with rfl | rfl | rfl <;> cases hready
    | ready src payload hb hchecked => exact ⟨hb, (h.readyChecked hchecked).2, src, payload, rfl⟩
    | syncReq => cases hready

end Own

/-! ## Deliveries -/

/-- What the delivery of a copy does to the barrier: nothing, unless the copy is a
READY of the own group at a node that counts, or a GO. -/
inductive BarrierEffect (d : Deployment V) (v : V) (f : Flight V) (g g' : Gateway)
    (effects : List Effect) : Prop
  | idle (hsame : SameBarrier g g') (hnone : NoBarrierEffect effects)
      (hready : g.phase.atBarrier = true → 0 < d.totalSyncVms → f.kind = .control .READY →
        ∀ w, f.sender = .gateway w → d.group w ≠ d.group v)
      (hgo : g.phase.hears = true → f.kind ≠ .control .GO)
  | counted (w : V) (hkind : f.kind = .control .READY) (hsender : f.sender = .gateway w)
      (hgroup : d.group w = d.group v) (hb : g.phase.atBarrier = true) (hpos : 0 < d.totalSyncVms)
      (hready : g'.proto.syncReadyNodes = insert (d.mac w).str g.proto.syncReadyNodes)
      (hreceived : g'.proto.syncGoReceived = g.proto.syncGoReceived)
      (hdone : g'.syncDone = g.syncDone) (hcallback : ∀ x ∈ effects, isCallback x = false)
      (hsent : (g.proto.syncGoSent = false ∧ (g'.proto.syncReadyNodes.card : ℤ) = d.totalSyncVms ∧
          g'.proto.syncGoSent = true ∧ ∃ src payload rest,
            effects = .transmit (.control .GO) src ⟨Address.BROADCAST, GATEWAY_PORT⟩
              payload :: rest ∧
            ∀ x ∈ rest, isGo x = false) ∨
        ((g.proto.syncGoSent = true ∨ (g'.proto.syncReadyNodes.card : ℤ) ≠ d.totalSyncVms) ∧
          g'.proto.syncGoSent = g.proto.syncGoSent ∧ ∀ x ∈ effects, isGo x = false))
  | go (w : V) (hkind : f.kind = .control .GO) (hsender : f.sender = .gateway w) (hne : w ≠ v)
      (hready : g'.proto.syncReadyNodes = g.proto.syncReadyNodes)
      (hsent : g'.proto.syncGoSent = g.proto.syncGoSent) (hgo : ∀ x ∈ effects, isGo x = false)
      (hreceived : g'.proto.syncGoReceived = (g.proto.syncGoReceived ||
        decide (((d.group w).toNat : ℤ) = g.proto.currentGroupId)))
      (hcallback : effects.countP isCallback ≤ if ((d.group w).toNat : ℤ) = g.proto.currentGroupId ∧
        g.proto.syncGoReceived = false then 1 else 0)
      (hdone : g'.syncDone = true → g.syncDone = true ∨
        (((d.group w).toNat : ℤ) = g.proto.currentGroupId ∧ g.phase.atBarrier = true) ∨
        g.proto.isMaster = true ∨ vmIdFromMac (d.mac w) = vmIdFromMac (d.mac v))
      (hkeeps : g.syncDone = true ∨ g.proto.isMaster = true → g'.syncDone = true)

section Deliveries

variable {d : Deployment V} {v w : V} {env : Env} {f : Flight V} {g g' : Gateway} {q : Instance}
  {src : Endpoint} {time : UInt64} {effects : List Effect}

/-- Group ids survive the cast to the wire format. -/
theorem internal_iff (g : Gateway) (e : Emission) (src : Endpoint) (time : UInt64)
    (hgroup : q.currentGroupId = ((d.group w).toNat : ℤ)) :
    isMessageInternal g.proto (received e q src time) = true ↔
      ((d.group w).toNat : ℤ) = g.proto.currentGroupId := by
  simp [isMessageInternal, received, controlMessage, hgroup, uint8_ofInt_toNat]

/-- The observers of a gateway hear of another machine's control message when the gateway
is a coordinator, or when the two vehicle ids agree: the table lists the own
vehicle only. -/
theorem forwardsControl_cases {e : Emission} (h : GatewayOk d v g) (hmac : src.mac = d.mac w)
    (he : e = .ready ∨ e = .go) (hf : forwardsControl g.proto (received e q src time) = true) :
    g.proto.isMaster = true ∨ vmIdFromMac (d.mac w) = vmIdFromMac (d.mac v) := by
  have hvm : ((received e q src time).origVm.toNat : ℤ) = vmIdFromMac (d.mac w) := by
    simp only [received, controlMessage, hmac, vmIdFromMac, uint8_ofInt_toNat]
  have htype : (received e q src time).control ≠ .GROUP_REGISTER ∧
      (received e q src time).control ≠ .GROUP_ASSIGN := by
    rcases he with rfl | rfl <;> simp [received, controlMessage, Emission.type]
  simp only [forwardsControl, hvm, htype.1, htype.2, decide_false, Bool.false_or, Bool.or_eq_true,
    decide_eq_true_eq] at hf
  refine hf.imp id fun hlisted => ?_
  obtain ⟨entry, hentry, hmem⟩ := GroupTable.lists_of_getGroupOf hlisted
  exact h.members entry hentry _ hmem

/-- Effects of a handler, or control messages told to the observers. -/
theorem mem_syncEffects {e : Emission} {c : AsyncCapsule} {x : Effect}
    (hx : x ∈ syncEffects env g e q src time c) :
    x ∈ (syncHandled env g e q src time c).effects ∨
    ∃ po, x = .onControl po e.type c.src c.dst := by
  have htype : (received e q src time).control ≠ .NONE := by
    cases e <;> simp [received, controlMessage, Emission.type]
  rcases List.mem_append.mp hx with hx | hx
  · exact Or.inl hx
  · split at hx
    · obtain ⟨po, rfl, -⟩ := mem_forward_control htype hx
      exact Or.inr ⟨po, rfl⟩
    · cases hx

/-- Only GO makes the protocol call its owner back. -/
theorem callback_of_mem {e : Emission} {msg : Message} {p : Instance}
    {c : AsyncCapsule} {x : Effect} (hx : x ∈ (handleSync env p msg c e).effects)
    (hc : isCallback x = true) : e = .go := by
  cases e with
  | go => rfl
  | delayResp offset rtt =>
    simp only [handleSync] at hx
    split at hx
    · rcases List.mem_cons.mp hx with rfl | hx
      · cases hc
      · rw [List.mem_singleton.mp hx] at hc
        cases hc
    · cases hx
  | ready =>
    simp only [handleSync, onReady] at hx
    split at hx
    · split at hx
      · rw [mem_send hx] at hc
        cases hc
      · cases hx
    · cases hx
  | syncReq =>
    simp only [handleSync, onSyncReq] at hx
    split at hx
    · split at hx
      · rw [mem_send hx] at hc
        cases hc
      · cases hx
    · cases hx
  | syncResp t1 =>
    simp only [handleSync, onSyncResp] at hx
    split at hx
    · rw [mem_send hx] at hc
      cases hc
    · cases hx
  | delayReq t1 t2 t3 =>
    simp only [handleSync, onDelayReq] at hx
    split at hx
    · split at hx
      · cases hx
      · rw [mem_send hx] at hc
        cases hc
    · cases hx
  | _ => cases hx

/-- Other messages than GO neither call back nor release. -/
theorem no_release_of_ne_go (env : Env) (g : Gateway) (q : Instance) (src : Endpoint)
    (time : UInt64) (c : AsyncCapsule) {e : Emission} (he : e ≠ .go) :
    (∀ x ∈ syncEffects env g e q src time c, isCallback x = false) ∧
    (syncResult env g e q src time c).syncDone = g.syncDone := by
  have hcallback : ∀ x ∈ syncEffects env g e q src time c, isCallback x = false := by
    intro x hx
    rcases mem_syncEffects hx with hx | ⟨po, rfl⟩
    · by_contra hc
      exact he (callback_of_mem hx (by simpa using hc))
    · rfl
  have htype : e.type ≠ .GO := by cases e <;> simp_all [Emission.type]
  refine ⟨hcallback, ?_⟩
  have hany : (syncEffects env g e q src time c).any g.releasedBy = false := by
    rw [List.any_eq_false]
    intro x hx hreleased
    cases x with
    | syncDoneCallback => cases hcallback _ hx
    | onControl po t s' d' =>
      rcases mem_syncEffects hx with hx | ⟨po', heq⟩
      · rcases handleSync_effects hx with ⟨_, _, _, _, -, -, -, -, -, -, hx⟩ | hx
        · cases mem_send hx
        · cases hx
      · cases heq
        cases ht : e.type <;> simp_all [Gateway.releasedBy]
    | _ => cases hreleased
  simp [syncResult, hany]

theorem barrierEffect_ready (h : GatewayOk d v g) (hkind : f.kind = .control .READY)
    (hsender : f.sender = .gateway w) (hmac : f.capsule.src.mac = d.mac w)
    (hgroup : q.currentGroupId = ((d.group w).toNat : ℤ)) :
    BarrierEffect d v f g (syncResult env g .ready q src time f.capsule)
      (syncEffects env g .ready q src time f.capsule) := by
  have hint := internal_iff g .ready src time hgroup
  obtain ⟨hcallback, hdone⟩ :=
    no_release_of_ne_go env g q src time f.capsule
      (show Emission.ready ≠ .go by simp)
  have hforward {p : Instance} {x : Effect}
      (hx : x ∈ forwardToObservers p (received .ready q src time) f.capsule) : isGo x = false := by
    obtain ⟨po, rfl, -⟩ := mem_forward_control
      (by simp [received, controlMessage, Emission.type]) hx
    rfl
  by_cases hcount : isMessageInternal g.proto (received .ready q src time) = true ∧
      0 < g.proto.syncTotalVms
  · have hb := h.atBarrier_of_total hcount.2
    have htotal : g.proto.syncTotalVms = d.totalSyncVms := by rw [h.total, if_pos hb]
    have hw : d.group w = d.group v := by
      have := hint.mp hcount.1
      rw [h.joined_group hb] at this
      exact UInt8.toNat_inj.mp (by exact_mod_cast this)
    have hport : g.proto.controlLocal.port = GATEWAY_PORT := by rw [h.controlLocal, if_pos hb]
    by_cases hfull : g.proto.syncGoSent = false ∧
        ((insert (d.mac w).str g.proto.syncReadyNodes).card : ℤ) = g.proto.syncTotalVms
    · have hh : syncHandled env g .ready q src time f.capsule =
          { inst := { g.proto with
              syncReadyNodes := insert (d.mac w).str g.proto.syncReadyNodes, syncGoSent := true }
            effects := [.transmit (.control .GO) ⟨g.proto.address, g.proto.controlLocal.port⟩
              ⟨Address.BROADCAST, GATEWAY_PORT⟩ (buildMessage (controlMessage g.proto
                g.proto.controlLocal .GO 0 [] (env.now 0)))] } := by
        simp only [syncHandled, handleSync, if_pos hcount, onReady, hmac, if_pos hfull]
        rw [sendControl_eq (by simp)]
        simp only [broadcastEndpoint, hport]
        rfl
      have heffects : syncEffects env g .ready q src time f.capsule =
          .transmit (.control .GO) ⟨g.proto.address, g.proto.controlLocal.port⟩
            ⟨Address.BROADCAST, GATEWAY_PORT⟩ (buildMessage (controlMessage g.proto
              g.proto.controlLocal .GO 0 [] (env.now 0))) ::
          forwardToObservers (syncHandled env g .ready q src time f.capsule).inst
            (received .ready q src time) f.capsule := by
        simp only [syncEffects, hh, List.singleton_append, if_true]
      refine .counted w hkind hsender hw hb (htotal ▸ hcount.2) (by simp [syncResult, hh])
        (by simp [syncResult, hh]) hdone hcallback (Or.inl ⟨hfull.1, ?_, by simp [syncResult, hh],
          _, _, _, heffects, fun x hx => hforward hx⟩)
      simpa [syncResult, hh, htotal] using hfull.2
    · have hh : syncHandled env g .ready q src time f.capsule =
          { inst := { g.proto with
              syncReadyNodes := insert (d.mac w).str g.proto.syncReadyNodes } } := by
        simp only [syncHandled, handleSync, if_pos hcount, onReady, hmac, if_neg hfull]
      refine .counted w hkind hsender hw hb (htotal ▸ hcount.2) (by simp [syncResult, hh])
        (by simp [syncResult, hh]) hdone hcallback (Or.inr ⟨?_, by simp [syncResult, hh], ?_⟩)
      · simpa [syncResult, hh, htotal] using not_and_or.mp hfull
      · intro x hx
        simp only [syncEffects, hh, List.nil_append, if_true] at hx
        exact hforward hx
  · have hh : syncHandled env g .ready q src time f.capsule = { inst := g.proto } := by
      simp only [syncHandled, handleSync, if_neg hcount]
    refine .idle
      ⟨by simp [syncResult, hh], by simp [syncResult, hh], by simp [syncResult, hh], hdone⟩
      (fun x hx => ⟨?_, hcallback x hx⟩) ?_ (by simp [hkind])
    · simp only [syncEffects, hh, List.nil_append, if_true] at hx
      exact hforward hx
    · intro hb hpos _ w' hw' heq
      rw [hsender] at hw'
      cases hw'
      refine hcount ⟨hint.mpr ?_, by rwa [h.total, if_pos hb]⟩
      rw [h.joined_group hb, heq]

/-- The observers' way to a release does not look at the group of the GO. -/
theorem released_by_observers (p q : Instance) (time : UInt64) (h : GatewayOk d v g)
    (hh : g.phase.hears = true) (hmac : src.mac = d.mac w)
    (hp : forwardsControl p (received .go q src time) =
      forwardsControl g.proto (received .go q src time))
    (hobs : p.portObservers = g.proto.portObservers) (c : AsyncCapsule) :
    ((forwardToObservers p (received .go q src time) c).any g.releasedBy = true →
      g.proto.isMaster = true ∨ vmIdFromMac (d.mac w) = vmIdFromMac (d.mac v)) ∧
    (g.proto.isMaster = true →
      (forwardToObservers p (received .go q src time) c).any g.releasedBy = true) := by
  constructor
  · intro hany
    obtain ⟨x, hx, -⟩ := List.any_eq_true.mp hany
    obtain ⟨po, -, hforward⟩ :=
      mem_forward_control (by simp [received, controlMessage, Emission.type]) hx
    exact forwardsControl_cases h hmac (Or.inr rfl) (hp ▸ hforward)
  · intro hm
    have hpo : p.portObservers = [⟨.ethernet, GATEWAY_PORT⟩, ⟨.sharedMemory, GATEWAY_PORT⟩] := by
      have hs := congrArg Setup.observers h.setup
      simp only [setupOf, setupAt, hh, if_true] at hs
      rw [hobs, hs]
    have hcallback : g.onSyncDone = true := by
      rw [h.isMaster, Bool.and_eq_true] at hm
      rw [h.onSyncDone]
      cases hph : g.phase <;> simp_all [Phase.hasRole, Phase.hasCallback]
    have hforward : forwardsControl p (received .go q src time) = true := by
      rw [hp]
      simp [forwardsControl, hm]
    have htype : (received .go q src time).control = .GO := rfl
    simp [forwardToObservers, hpo, htype, hforward, Gateway.releasedBy, hcallback]

theorem barrierEffect_go (h : GatewayOk d v g) (hh : g.phase.hears = true)
    (hkind : f.kind = .control .GO) (hsender : f.sender = .gateway w) (hne : w ≠ v)
    (hmac : src.mac = d.mac w) (hgroup : q.currentGroupId = ((d.group w).toNat : ℤ)) :
    BarrierEffect d v f g (syncResult env g .go q src time f.capsule)
      (syncEffects env g .go q src time f.capsule) := by
  have hint := internal_iff g .go src time hgroup
  have hforward {p : Instance} {x : Effect}
      (hx : x ∈ forwardToObservers p (received .go q src time) f.capsule) :
      isGo x = false ∧ isCallback x = false := by
    obtain ⟨po, rfl, -⟩ := mem_forward_control
      (by simp [received, controlMessage, Emission.type]) hx
    exact ⟨rfl, rfl⟩
  have hcount {p : Instance} : (forwardToObservers p (received .go q src time) f.capsule).countP
      isCallback = 0 := by
    rw [List.countP_eq_zero]
    intro x hx
    simp [(hforward hx).2]
  by_cases hfirst : isMessageInternal g.proto (received .go q src time) = true ∧
      g.proto.syncGoReceived = false
  · have hH : syncHandled env g .go q src time f.capsule =
        { inst := { g.proto with syncGoReceived := true }
          effects := if g.proto.syncDoneCallback then [.syncDoneCallback] else [] } := by
      simp only [syncHandled, handleSync, if_pos hfirst.1, onGo, hfirst.2]
      rfl
    have hany := released_by_observers { g.proto with syncGoReceived := true } q time h hh hmac
      rfl rfl f.capsule
    have hin := hint.mp hfirst.1
    refine .go w hkind hsender hne (by simp [syncResult, hH]) (by simp [syncResult, hH]) ?_
      (by simp [syncResult, hH, hin]) ?_ ?_ ?_
    · intro x hx
      simp only [syncEffects, hH, if_true] at hx
      rcases List.mem_append.mp hx with hx | hx
      · split at hx
        · rw [List.mem_singleton.mp hx]
          rfl
        · cases hx
      · exact (hforward hx).1
    · rw [if_pos ⟨hin, hfirst.2⟩]
      simp only [syncEffects, hH, if_true, List.countP_append, hcount]
      split <;> simp [isCallback]
    · have hcb : (if g.proto.syncDoneCallback then [Effect.syncDoneCallback] else []).any
          g.releasedBy = g.phase.atBarrier := by
        rw [h.callback]
        cases g.phase.atBarrier <;> rfl
      simp only [syncResult, syncEffects, hH, if_true, List.any_append, hcb, Bool.or_eq_true]
      rintro (hd | hd | hd)
      · exact Or.inl hd
      · exact Or.inr (Or.inl ⟨hin, hd⟩)
      · exact Or.inr (Or.inr (hany.1 hd))
    · simp only [syncResult, syncEffects, hH, if_true, List.any_append, Bool.or_eq_true]
      exact Or.imp id fun hm => Or.inr (hany.2 hm)
  · have hH : syncHandled env g .go q src time f.capsule = { inst := g.proto } := by
      simp only [syncHandled, handleSync]
      split
      · rename_i hin
        have hr : g.proto.syncGoReceived = true := by
          simpa [hin] using hfirst
        simp [onGo, hr]
      · rfl
    have hany := released_by_observers g.proto q time h hh hmac rfl rfl
      f.capsule
    have hnot : ¬ (((d.group w).toNat : ℤ) = g.proto.currentGroupId ∧
        g.proto.syncGoReceived = false) :=
      fun hc => hfirst ⟨hint.mpr hc.1, hc.2⟩
    refine .go w hkind hsender hne (by simp [syncResult, hH])
      (by simp [syncResult, hH]) ?_ ?_ ?_ ?_ ?_
    · intro x hx
      simp only [syncEffects, hH, List.nil_append, if_true] at hx
      exact (hforward hx).1
    · simp only [syncResult, hH]
      by_cases hin : ((d.group w).toNat : ℤ) = g.proto.currentGroupId <;> simp_all
    · rw [if_neg hnot]
      simp only [syncEffects, hH, List.nil_append, if_true, hcount, le_refl]
    · simp only [syncResult, syncEffects, hH, if_true, List.nil_append, Bool.or_eq_true]
      exact Or.imp id fun hd => Or.inr (hany.1 hd)
    · simp only [syncResult, syncEffects, hH, if_true, List.nil_append, Bool.or_eq_true]
      exact Or.imp id hany.2

theorem barrierEffect_clock {e : Emission} (hkind : f.kind = .control e.type) (hr : e ≠ .ready)
    (hg : e ≠ .go) :
    BarrierEffect d v f g (syncResult env g e q src time f.capsule)
      (syncEffects env g e q src time f.capsule) := by
  obtain ⟨hcallback, hdone⟩ :=
    no_release_of_ne_go env g q src time f.capsule hg
  obtain ⟨syncer, ptp, hinst⟩ :=
    handleSync_clock_inst env g.proto (received e q src time) f.capsule hr hg
  refine .idle ⟨by simp [syncResult, syncHandled, hinst], by simp [syncResult, syncHandled, hinst],
    by simp [syncResult, syncHandled, hinst], hdone⟩ (fun x hx => ⟨?_, hcallback x hx⟩) ?_ ?_
  · rcases mem_syncEffects hx with hx | ⟨po, rfl⟩
    · rcases handleSync_effects hx with ⟨e', q', dst, time', -, -, hgo, -, -, -, hx⟩ | hx
      · rw [mem_send hx]
        cases e' with
        | go => exact absurd (hgo rfl).1 hr
        | _ => rfl
      · cases x <;> first | rfl | cases hx
    · rfl
  · intro _ _ hready
    rw [hkind] at hready
    cases e <;> simp_all [Emission.type]
  · intro _ hgo
    rw [hkind] at hgo
    cases e <;> simp_all [Emission.type]

/-- Every delivery has one of these effects on the barrier. -/
theorem barrierEffect_of_delivered (h : GatewayOk d v g) (hd : Delivered d v env f g g' effects) :
    BarrierEffect d v f g g' effects := by
  cases hd with
  | ignored hwhy =>
    refine .idle (.refl g) (by simp [NoBarrierEffect]) ?_ ?_
    · intro hb _ hkind
      rcases hwhy with hh | ⟨e, he, hbad⟩
      · cases hph : g.phase <;> simp_all [Phase.atBarrier, Phase.hears]
      · rw [hkind] at he
        cases e <;> simp_all [Emission.type, Emission.Authentic]
    · intro hh hkind
      rcases hwhy with hh' | ⟨e, he, hbad⟩
      · rw [hh] at hh'
        cases hh'
      · rw [hkind] at he
        cases e <;> simp_all [Emission.type, Emission.Authentic]
  | packet m _ hh hkind heffects =>
    refine .idle (.refl g) (fun x hx => ?_) ?_ ?_
    · rcases heffects x hx with ⟨po, rfl, -⟩ | ⟨rx, -, hx⟩
      · exact ⟨rfl, rfl⟩
      · obtain ⟨src, dst, m, rfl, -⟩ := Gateway.mem_onReceive hx
        exact ⟨rfl, rfl⟩
    · intro _ _ hready
      rcases hkind with ⟨hk, -⟩ | ⟨hk, -⟩ <;> rw [hk] at hready <;> cases hready
    · intro _ hgo
      rcases hkind with ⟨hk, -⟩ | ⟨hk, -⟩ <;> rw [hk] at hgo <;> cases hgo
  | sync e q src time w hh hkind hpayload he hsender hne hmac hgroup hbarrier =>
    by_cases hr : e = .ready
    · subst hr
      obtain ⟨hw, hsrc⟩ := hbarrier (Or.inl rfl)
      exact barrierEffect_ready h hkind hsender hmac (hgroup.trans hw)
    by_cases hg : e = .go
    · subst hg
      obtain ⟨hw, hsrc⟩ := hbarrier (Or.inr rfl)
      exact barrierEffect_go h hh hkind hsender hne hsrc (hgroup.trans hw)
    exact barrierEffect_clock hkind hr hg

end Deliveries

end CarNetwork.Fleet
