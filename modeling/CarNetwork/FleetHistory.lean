import CarNetwork.Progress
import CarNetwork.StartBarrier

/-!
# What a fleet does over a whole run

Two facts about every run of a fleet, with any interleaving, loss and duplication. First,
the group of a process is the one of its command line, and its group table holds nothing
but itself: all messages that could change this are sent with a wrong tag. Second, a car
asks for the time at most every three seconds as long as its clock is not set back behind
its last request, and it does not ask again before it has been corrected.
-/
namespace CarNetwork.Fleet

open CarNetwork.ByteText CarNetwork.Conversions CarNetwork.Ethernet CarNetwork.Protocol
open CarNetwork.Car CarNetwork.Runs

variable {V : Type} [DecidableEq V] {d : Deployment V} {s s' : State V} {v : V} {g g' : Gateway}
  {effects : List Effect}

/-! ## Groups -/

section Groups

/-- The group table of a process that has joined the group of its machine and heard nothing
else. -/
def ownTable (d : Deployment V) (v : V) : GroupTable :=
  (inGroup { address := d.mac v } (d.group v).toNat).groups

theorem inGroup_groups {p : Instance} (haddress : p.address = d.mac v) (hempty : p.groups = []) :
    (inGroup p (d.group v).toNat).groups = ownTable d v := by
  simp only [inGroup, ownTable, haddress, hempty]

/-- The table of a gateway: empty until it joins its group, and never changed after that. -/
def TableOk (d : Deployment V) (v : V) (g : Gateway) : Prop :=
  g.proto.groups = if g.phase.hasJoined then ownTable d v else []

theorem TableOk.act {a : GatewayAction} (hok : GatewayOk d v g) (h : TableOk d v g)
    (ha : g.act (d.config v) a = some (g', effects)) : TableOk d v g' := by
  unfold TableOk at h ⊢
  cases a with
  | listen =>
    simp only [Gateway.act, Option.ite_none_right_eq_some, Option.some.injEq, Prod.mk.injEq] at ha
    obtain ⟨-, rfl, -⟩ := ha
    rfl
  | joinGroup time =>
    obtain ⟨es, heq, -⟩ := setCurrentGroup_spec g.proto (d.config v).groupId time
    simp only [Gateway.act, heq, Option.ite_none_right_eq_some, Option.some.injEq,
      Prod.mk.injEq] at ha
    obtain ⟨hph, rfl, -⟩ := ha
    rw [hph] at h
    exact inGroup_groups hok.address h
  | installCallback =>
    simp only [Gateway.act, Option.ite_none_right_eq_some, Option.some.injEq, Prod.mk.injEq] at ha
    obtain ⟨hph, rfl, -⟩ := ha
    rwa [hph] at h
  | setMaster =>
    simp only [Gateway.act, Option.ite_none_right_eq_some, Option.some.injEq, Prod.mk.injEq] at ha
    obtain ⟨hph, rfl, -⟩ := ha
    rw [hph] at h
    refine Eq.trans ?_ h
    dsimp only
    split <;> rfl
  | enableStartSync =>
    simp only [Gateway.act, Option.ite_none_right_eq_some, Option.some.injEq, Prod.mk.injEq] at ha
    obtain ⟨hph, rfl, -⟩ := ha
    rwa [hph] at h
  | checkReady =>
    simp only [Gateway.act, Option.ite_none_right_eq_some, Option.some.injEq, Prod.mk.injEq] at ha
    obtain ⟨-, rfl, -⟩ := ha
    exact h
  | sendReady time =>
    simp only [Gateway.act, Option.ite_none_right_eq_some, Option.some.injEq, Prod.mk.injEq] at ha
    obtain ⟨-, rfl, -⟩ := ha
    exact h
  | leaveBarrier =>
    simp only [Gateway.act, Option.ite_none_right_eq_some, Option.some.injEq, Prod.mk.injEq] at ha
    obtain ⟨⟨hph, -⟩, rfl, -⟩ := ha
    rwa [hph] at h
  | tick now =>
    simp only [Gateway.act, Option.ite_none_right_eq_some, Option.some.injEq] at ha
    obtain ⟨ptp, timeout, request, last, heq⟩ := Gateway.onTick_fst (d.config v) g now
    rw [ha.2] at heq
    dsimp only at heq
    subst heq
    exact h

theorem TableOk.delivered {env : Env} {f : Flight V} (h : TableOk d v g)
    (hd : Delivered d v env f g g' effects) :
    TableOk d v g' := by
  cases hd with
  | ignored => exact h
  | packet => exact h
  | sync e q src time w =>
    obtain ⟨r, s, t, syncer, ptp, hinst⟩ :=
      handleSync_inst env g.proto (received e q src time) f.capsule e
    simp only [syncResult, syncHandled, hinst]
    exact h

/-- The same for a component. -/
structure ComponentOk (d : Deployment V) (v : V) (p : Component) : Prop where
  address : p.proto.address = d.mac v
  group : p.proto.currentGroupId = if p.joined then ((d.group v).toNat : ℤ) else 0
  table : p.proto.groups = if p.joined then ownTable d v else []

/-- No message of the program changes a component. -/
theorem update_component {f : Flight V} {port : UInt16} (hf : Content d f)
    (hr : f.receiver = .component v port) (now : ℕ → UInt64) (stray : ℤ → ℤ) (p : Instance) :
    ∃ es, update { now, stray } p f.capsule = .ok (p, es) := by
  cases hf with
  | data m hkind hpayload hcontrol hgroup => exact ⟨_, update_data hpayload hcontrol⟩
  | groupInfo q gid hkind hpayload => exact ⟨_, update_groupInfo hpayload⟩
  | dropped e q src time hkind hpayload hbad => exact ⟨[], update_dropped hpayload hbad⟩
  | sync e q src time w v' hkind hpayload he hsender hreceiver =>
    rw [hr] at hreceiver
    cases hreceiver

theorem of_setComponent {w : V} {port q : UInt16} {p : Option Component} {c : Component}
    (h : (setComponent s v port p).components w q = some c) :
    (w = v ∧ q = port ∧ p = some c) ∨ s.components w q = some c := by
  simp only [setComponent, Function.update_apply] at h
  split at h
  · rename_i hw
    subst hw
    simp only [Function.update_apply] at h
    split at h
    · rename_i hq
      exact .inl ⟨rfl, hq, h⟩
    · exact .inr h
  · exact .inr h

theorem componentOk_delivered {f : Flight V} {w : V} {q : UInt16} {c : Component}
    (h : ∀ v port p, s.components v port = some p → ComponentOk d v p) (hf : Content d f)
    (now : ℕ → UInt64) (stray : ℤ → ℤ)
    (hc : (arrive d s f { now, stray }).components w q = some c) : ComponentOk d w c := by
  cases hr : f.receiver with
  | gateway v =>
    simp only [arrive, hr] at hc
    exact h w q c hc
  | component v port =>
    simp only [arrive, hr] at hc
    cases hp : s.components v port with
    | none =>
      simp only [hp] at hc
      exact h w q c hc
    | some p =>
      obtain ⟨es, hu⟩ := update_component hf hr now stray p.proto
      simp only [hp, hu] at hc
      rcases of_setComponent (p := some p) hc with ⟨rfl, rfl, hnew⟩ | hold
      · cases hnew
        exact h w q _ hp
      · exact h w q c hold

/-- Every step keeps the components in the groups of their machines. -/
theorem componentOk_step {a : Action V} (hwf : WellFormed d s)
    (h : ∀ v port p, s.components v port = some p → ComponentOk d v p) (hs : step d s a = some s') :
    ∀ v port p, s'.components v port = some p → ComponentOk d v p := by
  intro w q c hc
  cases a with
  | gateway v a =>
    simp only [step, Option.map_eq_some_iff] at hs
    obtain ⟨⟨g, effects⟩, -, rfl⟩ := hs
    exact h w q c hc
  | forkComponent v port =>
    simp only [step, Option.ite_none_right_eq_some, Option.some.injEq] at hs
    obtain ⟨-, rfl⟩ := hs
    rcases of_setComponent hc with ⟨rfl, rfl, hnew⟩ | hold
    · cases hnew
      exact ⟨rfl, rfl, rfl⟩
    · exact h w q c hold
  | joinComponent v port time =>
    simp only [step] at hs
    split at hs
    · cases hs
    · rename_i p hp
      split at hs
      · cases hs
      · rename_i hjoined
        obtain ⟨es, heq, -⟩ := setCurrentGroup_spec p.proto (d.group v).toNat time
        rw [heq] at hs
        cases hs
        rcases of_setComponent (p := some ⟨inGroup p.proto (d.group v).toNat, true⟩) hc with
          ⟨rfl, rfl, hnew⟩ | hold
        · cases hnew
          have hbefore := h w q p hp
          have htable := hbefore.table
          rw [if_neg hjoined] at htable
          exact ⟨hbefore.address, rfl, inGroup_groups hbefore.address htable⟩
        · exact h w q c hold
  | sendLocal v port text id time =>
    simp only [step] at hs
    split at hs
    · cases hs
    · split at hs
      · split at hs
        · cases hs
          rcases of_setComponent hc with ⟨-, -, hnew⟩ | hold
          · cases hnew
          · exact h w q c hold
        · cases hs
          exact h w q c hc
      · cases hs
  | deliver i now stray =>
    simp only [step] at hs
    split at hs
    · cases hs
    · rename_i f hi
      cases hs
      exact componentOk_delivered (s := { s with inFlight := s.inFlight.eraseIdx i }) h
        (hwf.flights f (List.mem_of_getElem? hi)) now stray hc
  | lose i =>
    simp only [step, Option.ite_none_right_eq_some, Option.some.injEq] at hs
    obtain ⟨-, rfl⟩ := hs
    exact h w q c hc
  | duplicate i =>
    simp only [step] at hs
    split at hs
    · cases hs
    · cases hs
      exact h w q c hc

theorem tableOk_step {a : Action V} (hwf : WellFormed d s) (h : ∀ v, TableOk d v (s.gateways v))
    (hs : step d s a = some s') (v : V) : TableOk d v (s'.gateways v) := by
  have hupdate : ∀ {w : V} {g : Gateway}, TableOk d w g →
      TableOk d v (Function.update s.gateways w g v) := by
    intro w g hg
    exact (Function.forall_update_iff s.gateways fun v g => TableOk d v g).mpr
      ⟨hg, fun v _ => h v⟩ v
  cases step_cases hwf hs with
  | act w b g effects hact => exact hupdate ((h w).act (hwf.gateways w) hact)
  | deliver i now stray f w g effects hi hr hd => exact hupdate ((h w).delivered hd)
  | background _ _ hb => exact hb.gateways ▸ h v

/-- Group management has no effect on any run of the program: no gateway crashes, every process
that has joined is in the group of its command line for good, and its group table holds that
group with itself as the only member. -/
theorem groups_never_change (h : Reachable (step d) (initial d) s) (v : V) :
    ((s.gateways v).phase ≠ .crashed ∧
      (s.gateways v).proto.currentGroupId =
        (if (s.gateways v).phase.hasJoined then ((d.group v).toNat : ℤ) else 0) ∧
      (s.gateways v).proto.groups = if (s.gateways v).phase.hasJoined then ownTable d v else []) ∧
    ∀ port p, s.components v port = some p →
      p.proto.currentGroupId = (if p.joined then ((d.group v).toNat : ℤ) else 0) ∧
      p.proto.groups = if p.joined then ownTable d v else [] := by
  have hwf := wellFormed_of_reaches h
  have htables : ∀ v, TableOk d v (s.gateways v) :=
    Reaches.invariant_of (WellFormed d) (fun s => ∀ v, TableOk d v (s.gateways v)) (fun _ =>
      wellFormed_of_reaches)
      (fun _ => rfl) (fun _ _ _ hwf h _ hs => tableOk_step hwf h hs) h
  have hcomponents : ∀ v port p, s.components v port = some p → ComponentOk d v p :=
    Reaches.invariant_of (WellFormed d) (fun s => ∀ v port p, s.components v port = some p →
      ComponentOk d v p)
      (fun _ => wellFormed_of_reaches) (by simp [initial]) (fun _ _ _ hwf h _ hs =>
        componentOk_step hwf h hs) h
  exact ⟨⟨(hwf.gateways v).alive, (hwf.gateways v).group, htables v⟩,
    fun port p hp => ⟨(hcomponents v port p hp).group, (hcomponents v port p hp).table⟩⟩

/-- The car asks to be moved to group 3, its coordinator gets the request, and both stay in
group 0 with nobody else in their tables. -/
theorem move_request_changes_nothing :
    ∃ s, Reachable (step oneCar) (initial oneCar) s ∧ (s.gateways 1).didRequest = true ∧
      s.inFlight.length = 1 ∧
      (s.gateways 1).proto.currentGroupId = 0 ∧ (s.gateways 0).proto.groups =
        ownTable oneCar 0 := by
  have hrun : (run (step oneCar) (initial oneCar) (barrierRun 1 3 ++ [.gateway 1 .leaveBarrier,
      .gateway 1 (.tick fun _ => 3000000), .deliver 0 (fun _ => 3000100) (fun _ => 0)])).map
        (fun s => ((s.gateways 1).didRequest, s.inFlight.length, (s.gateways 0).phase,
          (s.gateways 1).phase)) =
      some (true, 1, .waiting, .running) := by
    decide +kernel
  obtain ⟨s, hs, hobs⟩ := exists_reachable_of_run _ hrun
  simp only [Prod.mk.injEq] at hobs
  obtain ⟨hrequest, hflight, hcoordinator, hcar⟩ := hobs
  have hzero := (groups_never_change hs 0).1.2.2
  have hone := (groups_never_change hs 1).1.2.1
  rw [hcoordinator] at hzero
  rw [hcar] at hone
  exact ⟨s, hs, hrequest, hflight, hone, hzero⟩

end Groups

/-! ## Clock requests -/

section Requests

/-- A clock request is handed to the network. -/
def isRequest : Effect → Bool
  | .transmit (.control .SYNC_REQ) _ _ _ => true
  | _ => false

/-- The clock is corrected. -/
def isCorrection : Effect → Bool
  | .adjustTime _ => true
  | _ => false

/-- What an action or a delivery can do to the clock requests of a gateway. -/
inductive Pace (g g' : Gateway) (effects : List Effect) (time : Option UInt64) : Prop
  | quiet (hnone : effects.countP isRequest = 0) (hlast : g'.lastSyncRequest = g.lastSyncRequest)
      (hrunning : g'.proto.runningPtp = g.proto.runningPtp)
  | corrected (hnone : effects.countP isRequest = 0)
      (hlast : g'.lastSyncRequest = g.lastSyncRequest)
      (hcorrected : 0 < effects.countP isCorrection)
  | request (now : UInt64) (htime : time = some now) (hone : effects.countP isRequest = 1)
      (hidle : g.proto.runningPtp = false) (hrunning : g'.proto.runningPtp = true)
      (hlast : g'.lastSyncRequest = now) (hdue : 3000000 ≤ now - g.lastSyncRequest)

theorem countP_sendControl_of_ne {p : Instance} {src dst : Endpoint} {type : ControlType}
    {tag : UInt8} {body : Bytes} {time : UInt64} (h : type ≠ .SYNC_REQ) :
    (sendControl p src dst type tag body time).countP isRequest = 0 := by
  rw [List.countP_eq_zero]
  intro x hx
  rw [mem_send hx]
  simp only [isRequest]
  split
  · rename_i heq
    cases heq
    exact absurd rfl h
  · simp

theorem countP_sendMessage {p : Instance} {src dst : Endpoint} {m : Message} :
    (sendMessage p src dst m).countP isRequest = 0 := by
  rw [List.countP_eq_zero]
  intro x hx
  rw [mem_send hx]
  simp [isRequest]

/-- The clock reading of a tick. -/
def tickTime : GatewayAction → Option UInt64
  | .tick now => some (now 0)
  | _ => none

theorem pace_onTick (cfg : Config) (g : Gateway) (now : ℕ → UInt64) :
    Pace g (g.onTick cfg now).1 (g.onTick cfg now).2 (some (now 0)) := by
  have hmove : ∀ move : Bool, (if move then moveGroup g.proto 3 (now 1)
      else []).countP isRequest = 0 := by
    intro move
    cases move with
    | false => rfl
    | true => exact countP_sendControl_of_ne (by decide)
  simp only [Gateway.onTick]
  split
  · rename_i hrequest
    split
    · exact .quiet (hmove _) rfl rfl
    · rename_i hidle
      refine .request (now 0) rfl ?_ (by simpa using hidle) rfl rfl ?_
      · rw [List.countP_append, hmove, sendControl_eq (by simp)]
        rfl
      · exact of_decide_eq_true (Bool.and_eq_true_iff.mp hrequest).2
  · exact .quiet (hmove _) rfl rfl

theorem pace_act {a : GatewayAction} (h : GatewayOk d v g)
    (ha : g.act (d.config v) a = some (g', effects)) :
    Pace g g' effects (tickTime a) := by
  cases a with
  | listen =>
    simp only [Gateway.act, Option.ite_none_right_eq_some, Option.some.injEq, Prod.mk.injEq] at ha
    obtain ⟨hph, rfl, rfl⟩ := ha
    exact .quiet rfl rfl (by rw [h.idle hph]; rfl)
  | joinGroup time =>
    obtain ⟨es, heq, hes⟩ := setCurrentGroup_spec g.proto (d.config v).groupId time
    simp only [Gateway.act, heq, Option.ite_none_right_eq_some, Option.some.injEq,
      Prod.mk.injEq] at ha
    obtain ⟨-, rfl, rfl⟩ := ha
    refine .quiet ?_ rfl rfl
    rcases hes with ⟨_, _, _, rfl⟩ | rfl
    · exact countP_sendControl_of_ne (by decide)
    · rw [List.countP_eq_zero]
      intro x hx
      rw [mem_send hx]
      simp [isRequest]
  | installCallback =>
    simp only [Gateway.act, Option.ite_none_right_eq_some, Option.some.injEq, Prod.mk.injEq] at ha
    obtain ⟨-, rfl, rfl⟩ := ha
    exact .quiet rfl rfl rfl
  | setMaster =>
    simp only [Gateway.act, Option.ite_none_right_eq_some, Option.some.injEq, Prod.mk.injEq] at ha
    obtain ⟨-, rfl, rfl⟩ := ha
    refine .quiet rfl rfl ?_
    dsimp only
    split <;> rfl
  | enableStartSync =>
    simp only [Gateway.act, Option.ite_none_right_eq_some, Option.some.injEq, Prod.mk.injEq] at ha
    obtain ⟨-, rfl, rfl⟩ := ha
    exact .quiet rfl rfl rfl
  | checkReady =>
    simp only [Gateway.act, Option.ite_none_right_eq_some, Option.some.injEq, Prod.mk.injEq] at ha
    obtain ⟨-, rfl, rfl⟩ := ha
    exact .quiet rfl rfl rfl
  | sendReady time =>
    simp only [Gateway.act, Option.ite_none_right_eq_some, Option.some.injEq, Prod.mk.injEq] at ha
    obtain ⟨-, rfl, rfl⟩ := ha
    exact .quiet (countP_sendControl_of_ne (by decide)) rfl rfl
  | leaveBarrier =>
    simp only [Gateway.act, Option.ite_none_right_eq_some, Option.some.injEq, Prod.mk.injEq] at ha
    obtain ⟨-, rfl, rfl⟩ := ha
    exact .quiet rfl rfl rfl
  | tick now =>
    simp only [Gateway.act, Option.ite_none_right_eq_some, Option.some.injEq] at ha
    have hpace := pace_onTick (d.config v) g now
    rwa [ha.2] at hpace

/-- A handler sends no clock request, and ends an exchange only with a correction. -/
theorem pace_handleSync (env : Env) (p : Instance) (msg : Message) (c : AsyncCapsule)
    (e : Emission) :
    (handleSync env p msg c e).effects.countP isRequest = 0 ∧
      ((handleSync env p msg c e).inst.runningPtp = p.runningPtp ∨
        0 < (handleSync env p msg c e).effects.countP isCorrection) := by
  cases e with
  | ready =>
    simp only [handleSync]
    split
    · simp only [onReady]
      split
      · exact ⟨countP_sendControl_of_ne (by decide), .inl rfl⟩
      · exact ⟨rfl, .inl rfl⟩
    · exact ⟨rfl, .inl rfl⟩
  | go =>
    simp only [handleSync]
    split
    · simp only [onGo]
      split
      · exact ⟨rfl, .inl rfl⟩
      · refine ⟨?_, .inl rfl⟩
        dsimp only
        split <;> rfl
    · exact ⟨rfl, .inl rfl⟩
  | syncReq =>
    simp only [handleSync]
    split
    · simp only [onSyncReq]
      split
      · exact ⟨countP_sendControl_of_ne (by decide), .inl rfl⟩
      · exact ⟨rfl, .inl rfl⟩
    · exact ⟨rfl, .inl rfl⟩
  | syncResp t1 =>
    simp only [handleSync]
    split
    · exact ⟨countP_sendControl_of_ne (by decide), .inl rfl⟩
    · exact ⟨rfl, .inl rfl⟩
  | delayReq t1 t2 t3 =>
    simp only [handleSync]
    split
    · simp only [onDelayReq]
      split
      · exact ⟨rfl, .inl rfl⟩
      · exact ⟨countP_sendControl_of_ne (by decide), .inl rfl⟩
    · exact ⟨rfl, .inl rfl⟩
  | delayResp o r =>
    simp only [handleSync]
    split
    · exact ⟨rfl, .inr Nat.one_pos⟩
    · exact ⟨rfl, .inl rfl⟩
  | _ => exact ⟨rfl, .inl rfl⟩

theorem countP_onReceive (cfg : Config) (g : Gateway) (rx : Rx) (now : ℕ → UInt64) :
    (g.onReceive cfg rx now).countP isRequest = 0 := by
  rw [List.countP_eq_zero]
  intro x hx
  have hquiet : ∀ src dst m, x ∈ sendMessage g.proto src dst m → ¬ isRequest x = true :=
    fun src dst m hx => List.countP_eq_zero.mp countP_sendMessage x hx
  unfold Gateway.onReceive at hx
  split at hx
  · exact hquiet _ _ _ hx
  · obtain ⟨peer, -, hx⟩ := List.mem_flatMap.mp hx
    exact hquiet _ _ _ hx

theorem pace_delivered {env : Env} {f : Flight V} (hd : Delivered d v env f g g' effects) :
    Pace g g' effects none := by
  cases hd with
  | ignored => exact .quiet rfl rfl rfl
  | packet m effects hh hkind heffects =>
    refine .quiet (List.countP_eq_zero.mpr fun x hx => ?_) rfl rfl
    rcases heffects x hx with ⟨po, rfl, -⟩ | ⟨rx, -, hx⟩
    · simp [isRequest]
    · exact List.countP_eq_zero.mp (countP_onReceive _ _ rx _) x hx
  | sync e q src time w hh hkind hpayload he =>
    obtain ⟨hnone, hrunning⟩ := pace_handleSync env g.proto (received e q src time) f.capsule e
    have htype : (received e q src time).control ≠ .NONE := by
      cases e <;> simp [received, controlMessage, Emission.type]
    have hall : (syncEffects env g e q src time f.capsule).countP isRequest = 0 := by
      rw [syncEffects, List.countP_append, syncHandled, hnone, zero_add]
      split
      · rw [List.countP_eq_zero]
        intro x hx
        obtain ⟨po, rfl, -⟩ := mem_forward_control htype hx
        simp [isRequest]
      · rfl
    rcases hrunning with hsame | hcorrected
    · exact .quiet hall rfl hsame
    · refine .corrected hall rfl ?_
      rw [syncEffects, List.countP_append, syncHandled]
      omega

/-- The clock requests of a gateway so far, counted from a time when it had made `n` of them,
the last one at `start`, and `k` corrections. -/
structure Paced (start n k : ℕ) (s : State V) (v : V) : Prop where
  rate : start + 3000000 * occurrences isRequest (.gateway v) s.log ≤
    (s.gateways v).lastSyncRequest.toNat + 3000000 * n
  answered : occurrences isRequest (.gateway v) s.log + k ≤
    occurrences isCorrection (.gateway v) s.log + n +
      if (s.gateways v).proto.runningPtp then 1 else 0

/-- The gateway's clock is not set back behind its last request. -/
def ClockForward (v : V) (s : State V) (a : Action V) : Prop :=
  ∀ now, a = .gateway v (.tick now) → (s.gateways v).lastSyncRequest ≤ now 0

variable {start n k : ℕ}

/-- One step of the gateway itself. -/
theorem Paced.perform {time : Option UInt64} {group : ℤ} {cause : Option (Flight V)}
    (h : Paced start n k s v) (hpace : Pace (s.gateways v) g' effects time)
    (htime : ∀ now, time = some now → (s.gateways v).lastSyncRequest ≤ now)
    (hlog : s'.log = s.log) (hg : s'.gateways = Function.update s.gateways v g') :
    Paced start n k (Fleet.perform d s' (.gateway v) group cause effects) v := by
  obtain ⟨hrate, hanswered⟩ := h
  have hgateway : (Fleet.perform d s' (.gateway v) group cause effects).gateways v = g' := by
    rw [Fleet.perform, hg, Function.update_self]
  have hcount : ∀ kind, occurrences kind (.gateway v)
      (Fleet.perform d s' (.gateway v) group cause effects).log =
      occurrences kind (.gateway v) s.log + effects.countP kind := by
    intro kind
    rw [Fleet.perform, hlog, occurrences_append, if_pos rfl]
  have hrequests := hcount isRequest
  have hcorrections := hcount isCorrection
  cases hpace with
  | quiet hnone hlast hrunning =>
    rw [hnone] at hrequests
    refine ⟨?_, ?_⟩
    · rw [hrequests, hgateway, hlast]
      exact hrate
    · rw [hrequests, hcorrections, hgateway, hrunning]
      omega
  | corrected hnone hlast hcorrected =>
    rw [hnone] at hrequests
    refine ⟨by rw [hrequests, hgateway, hlast]; exact hrate, ?_⟩
    have hone : (if (s.gateways v).proto.runningPtp then 1 else 0) ≤ 1 := by split <;> omega
    rw [hrequests, hcorrections]
    omega
  | request now hnow hone hidle hrunning hlast hdue =>
    have hle := UInt64.le_iff_toNat_le.mp (htime now hnow)
    have hdue := UInt64.le_iff_toNat_le.mp hdue
    rw [UInt64.toNat_sub_of_le _ _ (htime now hnow)] at hdue
    have hnum : (3000000 : UInt64).toNat = 3000000 := rfl
    rw [hidle] at hanswered
    refine ⟨?_, ?_⟩
    · rw [hrequests, hgateway, hlast, hone]
      omega
    · rw [hrequests, hcorrections, hgateway, hrunning, hone]
      simp only [Bool.false_eq_true, if_false, if_true] at hanswered ⊢
      omega

/-- A step of another gateway. -/
theorem Paced.other {w : V} {group : ℤ} {cause : Option (Flight V)}
    (h : Paced start n k s v) (hne : v ≠ w) (hlog : s'.log = s.log)
    (hg : s'.gateways = Function.update s.gateways w g') :
    Paced start n k (Fleet.perform d s' (.gateway w) group cause effects) v := by
  have hcount : ∀ kind, occurrences kind (.gateway v)
      (Fleet.perform d s' (.gateway w) group cause effects).log =
      occurrences kind (.gateway v) s.log := by
    intro kind
    rw [Fleet.perform, hlog, occurrences_append, if_neg (fun h => hne (Node.gateway.inj h).symm),
      add_zero]
  have hgateway : (Fleet.perform d s' (.gateway w) group cause effects).gateways v =
      s.gateways v := by
    rw [Fleet.perform, hg, Function.update_of_ne hne]
  exact ⟨by rw [hcount, hgateway]; exact h.rate, by rw [hcount, hcount, hgateway]; exact h.answered⟩

/-- A step of a component or of the network. -/
theorem Paced.background {a : Action V} (h : Paced start n k s v) (hb : Background d a s s') :
    Paced start n k s' v := by
  obtain ⟨w, port, group, cause, es, hlog, -⟩ := hb.effects
  have hcount : ∀ kind, occurrences kind (.gateway v) s'.log =
      occurrences kind (.gateway v) s.log := by
    intro kind
    rw [hlog, occurrences_append, if_neg (by simp), add_zero]
  refine ⟨?_, ?_⟩
  · rw [hcount, hb.gateways]
    exact h.rate
  · rw [hcount, hcount, hb.gateways]
    exact h.answered

theorem Paced.next {a : Action V} (hwf : WellFormed d s) (h : Paced start n k s v)
    (hok : ClockForward v s a) (hs : step d s a = some s') : Paced start n k s' v := by
  cases step_cases hwf hs with
  | act w b g effects hact =>
    by_cases hvw : v = w
    · subst hvw
      refine h.perform (pace_act (hwf.gateways v) hact) (fun now htime => ?_) rfl rfl
      cases b with
      | tick reading =>
        cases htime
        exact hok reading rfl
      | _ => cases htime
    · exact h.other hvw rfl rfl
  | deliver i now stray f w g effects hi hr hd =>
    by_cases hvw : v = w
    · subst hvw
      exact h.perform (pace_delivered hd) (fun now htime => by cases htime) rfl rfl
    · exact h.other hvw rfl rfl
  | background _ _ hb => exact h.background hb

/-- Over any stretch of a run in which a gateway's clock is not set back behind its last
request, whatever happened before, its requests are at least three seconds apart: any number
of them moves the time of the last one by as many times three seconds. And in the stretch
there is at most one more of them than of corrections. -/
theorem clock_requests_paced {t : State V} (h : Reachable (step d) (initial d) s)
    (ht : Reaches (step d) (ClockForward v) s t) :
    (s.gateways v).lastSyncRequest.toNat + 3000000 * occurrences isRequest (.gateway v) t.log ≤
        (t.gateways v).lastSyncRequest.toNat +
          3000000 * occurrences isRequest (.gateway v) s.log ∧
      occurrences isRequest (.gateway v) t.log + occurrences isCorrection (.gateway v) s.log ≤
        occurrences isCorrection (.gateway v) t.log + occurrences isRequest (.gateway v) s.log +
          1 := by
  have hwf : ∀ u, Reaches (step d) (ClockForward v) s u → WellFormed d u :=
    fun u hu => hu.invariant (WellFormed d) (wellFormed_of_reaches h) fun _ _ _ hwf _ hs =>
      wellFormed_step hwf hs
  have hstart : Paced (s.gateways v).lastSyncRequest.toNat
      (occurrences isRequest (.gateway v) s.log)
      (occurrences isCorrection (.gateway v) s.log) s v :=
    ⟨Nat.le_refl _, by omega⟩
  have hpaced := Reaches.invariant_of (WellFormed d) (fun u => Paced _ _ _ u v) hwf hstart
    (fun _ _ _ hwf h hok hs => h.next hwf hok hs) ht
  have hone : (if (t.gateways v).proto.runningPtp then 1 else 0) ≤ 1 := by split <;> omega
  exact ⟨hpaced.rate, hpaced.answered.trans (Nat.add_le_add_left hone _)⟩

/-- The same as a test. -/
def clockForward (v : V) (s : State V) : Action V → Bool
  | .gateway w (.tick now) => decide (w ≠ v) || decide ((s.gateways v).lastSyncRequest ≤ now 0)
  | _ => true

theorem clockForward_spec {a : Action V} (h : clockForward v s a = true) : ClockForward v s a := by
  rintro now rfl
  simpa [clockForward] using h

/-- A car that asks at three seconds, is corrected, and asks again at six seconds. -/
theorem two_requests_paced :
    ∃ s t, Reaches (step oneCar) (ClockForward 1) (initial oneCar) s ∧ Reaches (step oneCar)
      (ClockForward 1) s t ∧
      occurrences isRequest (.gateway 1) s.log = 1 ∧ occurrences isRequest (.gateway 1) t.log = 2 ∧
      (s.gateways 1).lastSyncRequest.toNat + 3000000 ≤ (t.gateways 1).lastSyncRequest.toNat := by
  have hrun : (runIf (clockForward 1) (step oneCar) (initial oneCar)
      (barrierRun 1 3 ++ [.gateway 1 .leaveBarrier, .gateway 1 (.tick fun _ => 3000000)])).map
        (fun s => (decide (occurrences isRequest (.gateway 1) s.log = 1),
          (runIf (clockForward 1) (step oneCar) s
            (List.replicate 5 (.deliver 0 (fun _ => 3000100) (fun _ => 0)) ++
            [.gateway 1 (.tick fun _ => 6000000)])).map
              fun t => decide (occurrences isRequest (.gateway 1) t.log = 2))) =
                some (true, some true) := by
    decide +kernel
  obtain ⟨s, hs, hobs⟩ := exists_reaches_of_runIf (ClockForward 1) _ (fun _ _ _ =>
    clockForward_spec) hrun
  obtain ⟨hone, hlater⟩ := Prod.mk.inj hobs
  obtain ⟨t, ht, htwo⟩ := exists_reaches_of_runIf (ClockForward 1) _ (fun _ _ _ =>
    clockForward_spec) hlater
  have hone := of_decide_eq_true hone
  have htwo := of_decide_eq_true htwo
  have hpaced := (clock_requests_paced hs.reachable ht).1
  rw [hone, htwo] at hpaced
  exact ⟨s, t, hs, ht, hone, htwo, by omega⟩

end Requests

end CarNetwork.Fleet
