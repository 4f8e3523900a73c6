import CarNetwork.Relay
import Mathlib.Algebra.Order.BigOperators.Group.List

/-!
# Message cascades end

A delivery can put many new copies in flight: a forward reaches every other machine, a
fan-out every component of one, and an alarm is acknowledged with a message that makes
the same way. Each copy is given a cost that is more than the costs of all copies its
delivery can lead to. Costs grow against the direction of a message: from the components
that are told of it, over the gateway that fans it out, to the gateway that forwards it;
and an alarm costs more than its acknowledgement.
-/
namespace CarNetwork.Cascade

open CarNetwork.ByteText CarNetwork.Conversions CarNetwork.Ethernet CarNetwork.Protocol
open CarNetwork.Car CarNetwork.Fleet CarNetwork.Sizes CarNetwork.Relay CarNetwork.Runs

/-- A frame on its way to one process. -/
structure Copy (V : Type) where
  receiver : Node V
  capsule : AsyncCapsule

structure State (V : Type) where
  gateway : V → Gateway
  component : V → UInt16 → Instance
  copies : List (Copy V)

inductive Action
  | deliver (i : ℕ) (now : ℕ → UInt64) (stray : ℤ → ℤ) (id : UInt64)
  | lose (i : ℕ)

variable {V : Type} [DecidableEq V] (d : Deployment V)

/-- One copy for each process that a frame reaches. -/
def copies (node : Node V) (c : AsyncCapsule) : List (Copy V) := (audience d node c).map (⟨·, c⟩)

/-- A copy reaches its receiver. A component that throws is gone, but a data message never
makes it. -/
def arrive (s : State V) (x : Copy V) (env : Env) (id : UInt64) : State V :=
  match x.receiver with
  | .gateway v =>
    let (g, effects) := gatewayReceive env (d.config v) (s.gateway v) x.capsule
    { s with
      gateway := Function.update s.gateway v g
      copies := s.copies ++ (emitted true g.proto.address effects).flatMap (copies d x.receiver) }
  | .component v port =>
    match componentReceive env (s.component v port) port id x.capsule with
    | .error _ => s
    | .ok (p, effects) =>
      { s with
        component := Function.update s.component v (Function.update (s.component v) port p)
        copies := s.copies ++ (emitted false p.address effects).flatMap (copies d x.receiver) }

def step (s : State V) : Action → Option (State V)
  | .deliver i now stray id =>
    s.copies[i]?.map fun x => arrive d { s with copies := s.copies.eraseIdx i } x { now, stray } id
  | .lose i => if i < s.copies.length then some { s with copies := s.copies.eraseIdx i } else none

/-- Machines that are set up, and nothing but data messages in flight, with any bodies, groups
and addresses. -/
structure Traffic (s : State V) : Prop where
  hears : ∀ v, (s.gateway v).phase.hears = true
  address : ∀ v, (s.gateway v).proto.address = d.mac v
  listens : ∀ v, (s.gateway v).proto.portObservers = observers ANY_PORT
  componentAddress : ∀ v port, (s.component v port).address = d.mac v
  componentListens : ∀ v port, (s.component v port).portObservers = observers port
  receiver : ∀ x ∈ s.copies, x.receiver ∈ processes d x.receiver.vm
  data : ∀ x ∈ s.copies, ∃ m, x.capsule.payload = buildMessage m ∧ m.control = .NONE

/-! ## Costs -/

section Cost

/-- The frame carries a message that the brake answers. -/
def alarm (c : AsyncCapsule) : Bool :=
  match parseMessage c.payload with
  | .ok m => isAlarm (trim m.body)
  | .error _ => false

variable (peers : V → ℕ)

/-- A copy for a gateway that fans out, when each component copy costs `x`. -/
def fanoutCost (x : ℕ) (v : V) : ℕ := 1 + peers v * (componentPorts.length * x)

/-- A copy for a gateway that forwards. -/
def forwardCost (x : ℕ) : ℕ := 1 + (d.vms.map (fanoutCost peers x)).sum

/-- A copy of an alarm for a component: its acknowledgement goes to the gateway and to the
other components. -/
def alarmCost : ℕ := 1 + (forwardCost d peers 1 + componentPorts.length)

def componentCost (a : Bool) : ℕ := if a then alarmCost d peers else 1

def cost (x : Copy V) : ℕ :=
  let c := componentCost d peers (alarm x.capsule)
  match x.receiver, x.capsule.origin with
  | .component _ _, _ => c
  | .gateway v, .ethernet => fanoutCost peers c v
  | .gateway _, .sharedMemory => forwardCost d peers c

def total (l : List (Copy V)) : ℕ := (l.map (cost d peers)).sum

variable {d peers}

@[simp] theorem total_append (as bs : List (Copy V)) :
    total d peers (as ++ bs) = total d peers as + total d peers bs := by
  simp [total]

theorem total_eraseIdx {l : List (Copy V)} {i : ℕ} {x : Copy V} (h : l[i]? = some x) :
    total d peers (l.eraseIdx i) + cost d peers x = total d peers l := by
  obtain ⟨hi, rfl⟩ := List.getElem?_eq_some_iff.mp h
  have hperm := ((List.getElem_cons_eraseIdx_perm hi).map (cost d peers)).sum_eq
  rw [List.map_cons, List.sum_cons] at hperm
  unfold total
  omega

theorem cost_component (v : V) (port : UInt16) (c : AsyncCapsule) :
    cost d peers ⟨.component v port, c⟩ = componentCost d peers (alarm c) := rfl

theorem cost_ethernet (v : V) {c : AsyncCapsule} (h : c.origin = .ethernet) :
    cost d peers ⟨.gateway v, c⟩ = fanoutCost peers (componentCost d peers (alarm c)) v := by
  simp only [cost, h]

theorem cost_sharedMemory (v : V) {c : AsyncCapsule} (h : c.origin = .sharedMemory) :
    cost d peers ⟨.gateway v, c⟩ = forwardCost d peers (componentCost d peers (alarm c)) := by
  simp only [cost, h]

theorem componentCost_pos (a : Bool) : 0 < componentCost d peers a := by
  unfold componentCost alarmCost
  split <;> omega

theorem cost_pos (x : Copy V) : 0 < cost d peers x := by
  obtain ⟨receiver, c⟩ := x
  cases receiver with
  | component v port => exact componentCost_pos _
  | gateway v =>
    cases ho : c.origin with
    | ethernet =>
      rw [cost_ethernet v ho, fanoutCost]
      omega
    | sharedMemory =>
      rw [cost_sharedMemory v ho, forwardCost]
      omega

theorem alarm_eq {c : AsyncCapsule} {m : Message} (hp : c.payload = buildMessage m) :
    alarm c = isAlarm (trim m.body) := by
  rw [alarm, hp, parse_build]

theorem total_sublist {l l' : List (Node V)} (c : AsyncCapsule) (h : List.Sublist l l') :
    total d peers (l.map (⟨·, c⟩)) ≤ total d peers (l'.map (⟨·, c⟩)) :=
  ((h.map _).map _).sum_le_sum fun _ _ => Nat.zero_le _

theorem total_components (v : V) (c : AsyncCapsule) (ports : List UInt16) :
    total d peers ((ports.map (Node.component v)).map (⟨·, c⟩)) =
      ports.length * componentCost d peers (alarm c) := by
  induction ports with
  | nil => simp [total]
  | cons port ports ih =>
    simp only [List.map_cons, total, List.sum_cons, cost_component] at ih ⊢
    rw [ih, List.length_cons]
    ring

theorem processes_sublist (d : Deployment V) (v : V) :
    List.Sublist (processes d v) (.gateway v :: componentPorts.map (.component v)) := by
  unfold processes
  split
  · exact (List.nil_sublist _).cons_cons _
  · exact List.Sublist.refl _

/-- A frame that a gateway writes into its shared memory. -/
theorem total_fanned (v : V) {c : AsyncCapsule} (ho : c.origin = .sharedMemory) :
    total d peers (copies d (.gateway v) c) ≤
      componentPorts.length * componentCost d peers (alarm c) := by
  have hsub : List.Sublist ((processes d v).filter (· ≠ .gateway v))
      (componentPorts.map (.component v)) := by
    refine ((processes_sublist d v).filter _).trans ?_
    simp [componentPorts]
  rw [← total_components v, copies, audience, ho]
  exact total_sublist c hsub

/-- A frame that a gateway sends to the other machines. -/
theorem total_forwarded (v : V) {c : AsyncCapsule} (ho : c.origin = .ethernet) :
    total d peers (copies d (.gateway v) c) < forwardCost d peers
      (componentCost d peers (alarm c)) := by
  have hall : total d peers ((d.vms.map Node.gateway).map (⟨·, c⟩)) =
      (d.vms.map (fanoutCost peers (componentCost d peers (alarm c)))).sum := by
    rw [total, List.map_map, List.map_map]
    exact congrArg List.sum (List.map_congr_left fun w _ => cost_ethernet w ho)
  rw [forwardCost, ← hall, copies, audience, ho]
  exact Nat.lt_one_add_iff.mpr (total_sublist c (List.filter_sublist.map _))

/-- The acknowledgement of a component. -/
theorem total_acknowledged (v : V) (port : UInt16) {c : AsyncCapsule}
    (ho : c.origin = .sharedMemory) (hc : alarm c = false) :
    total d peers (copies d (.component v port) c) < alarmCost d peers := by
  have hall : total d peers ((Node.gateway v :: componentPorts.map (.component v)).map (⟨·, c⟩)) =
      forwardCost d peers 1 + componentPorts.length := by
    rw [List.map_cons, total, List.map_cons, List.sum_cons, ← total, total_components,
      cost_sharedMemory v ho, hc]
    simp [componentCost]
  rw [alarmCost, ← hall, copies, audience, ho]
  exact Nat.lt_one_add_iff.mpr (total_sublist c (List.filter_sublist.trans (processes_sublist d v)))

theorem total_flatMap_le (node : Node V) {frames : List AsyncCapsule} (bound : ℕ)
    (h : ∀ c ∈ frames, total d peers (copies d node c) ≤ bound) :
    total d peers (frames.flatMap (copies d node)) ≤ frames.length * bound := by
  induction frames with
  | nil => simp [total]
  | cons c frames ih =>
    rw [List.flatMap_cons, total_append, List.length_cons]
    have hc := h c (by simp)
    have hrest := ih fun x hx => h x (by simp [hx])
    nlinarith

end Cost

/-! ## One delivery -/

section Deliver

variable {d} {s : State V} {peers : V → ℕ} {m : Message} {c : AsyncCapsule} {env : Env}

/-- A copy of data for a process of the fleet. -/
def CopyOk (d : Deployment V) (x : Copy V) : Prop :=
  x.receiver ∈ processes d x.receiver.vm ∧
    ∃ m, x.capsule.payload = buildMessage m ∧ m.control = .NONE

theorem copyOk_of_mem_copies {node : Node V} {y : Copy V} (hp : c.payload = buildMessage m)
    (hm : m.control = .NONE) (hy : y ∈ copies d node c) : CopyOk d y := by
  obtain ⟨n, hn, rfl⟩ := List.mem_map.mp hy
  exact ⟨mem_processes_of_mem_audience hn, m, hp, hm⟩

/-- Relaying keeps data data and an alarm an alarm. -/
theorem relayed_attempt {cfg : Config} {g : Gateway} {now : ℕ → UInt64} {f : AsyncCapsule}
    (hm : m.control = .NONE) (hf : f ∈ attempts cfg g (rxOfMessage m c) now) :
    (∃ m', f.payload = buildMessage m' ∧ m'.control = .NONE) ∧ alarm f = isAlarm (trim m.body) := by
  obtain ⟨⟨time, hp⟩, -⟩ := mem_attempts hf
  refine ⟨⟨_, hp, hm⟩, ?_⟩
  rw [alarm_eq hp]
  exact congrArg isAlarm (trim_trim m.body)

section Relayed

variable {cfg : Config} {g : Gateway} {now : ℕ → UInt64} {v : V}

/-- The one forward costs less than the copy, by what the other gateways' copies cost. -/
theorem total_forward_lt (hp : c.payload = buildMessage m) (hm : m.control = .NONE)
    (ho : c.origin = .sharedMemory) :
    total d peers (((attempts cfg g (rxOfMessage m c) now).filter fits).flatMap
      (copies d (.gateway v))) <
      cost d peers ⟨.gateway v, c⟩ := by
  rw [cost_sharedMemory v ho, alarm_eq hp]
  have hone : (attempts cfg g (rxOfMessage m c) now).length = 1 := by
    simp [attempts, rxOfMessage, ho]
  have hlen := hone ▸ List.length_filter_le fits (attempts cfg g (rxOfMessage m c) now)
  have hforward : ∀ f ∈ (attempts cfg g (rxOfMessage m c) now).filter fits,
      total d peers (copies d (.gateway v) f) ≤
        forwardCost d peers (componentCost d peers (isAlarm (trim m.body))) - 1 := by
    intro f hf
    have hmem := (List.mem_filter.mp hf).1
    have heth : f.origin = .ethernet := by
      rcases (mem_attempts hmem).2.2 with h | h
      · exact h.2.1
      · cases ho.symm.trans h.1
    have hlt : total d peers (copies d (.gateway v) f) < _ := total_forwarded v heth
    rw [(relayed_attempt hm hmem).2] at hlt
    omega
  have htotal := total_flatMap_le (.gateway v) _ hforward
  have hle := Nat.mul_le_mul_right
    (forwardCost d peers (componentCost d peers (isAlarm (trim m.body))) - 1) hlen
  have hpos : 0 < forwardCost d peers (componentCost d peers (isAlarm (trim m.body))) := by
    unfold forwardCost
    omega
  omega

/-- The frames of a fan-out cost less than the copy. -/
theorem total_fanout_lt (hpeers : peers v = g.peerPorts.length) (hp : c.payload = buildMessage m)
    (hm : m.control = .NONE) (ho : c.origin = .ethernet) :
    total d peers (((attempts cfg g (rxOfMessage m c) now).filter fits).flatMap
      (copies d (.gateway v))) <
      cost d peers ⟨.gateway v, c⟩ := by
  rw [cost_ethernet v ho, alarm_eq hp, fanoutCost]
  have hone : (attempts cfg g (rxOfMessage m c) now).length = peers v := by
    simp [attempts, rxOfMessage, ho, hpeers]
  have hlen := hone ▸ List.length_filter_le fits (attempts cfg g (rxOfMessage m c) now)
  have hfanout : ∀ f ∈ (attempts cfg g (rxOfMessage m c) now).filter fits,
      total d peers (copies d (.gateway v) f) ≤
        componentPorts.length * componentCost d peers (isAlarm (trim m.body)) := by
    intro f hf
    have hmem := (List.mem_filter.mp hf).1
    have hshm : f.origin = .sharedMemory := by
      rcases (mem_attempts hmem).2.2 with h | h
      · cases ho.symm.trans h.1
      · exact h.2.1
    rw [← (relayed_attempt hm hmem).2]
    exact total_fanned v hshm
  have htotal := total_flatMap_le (.gateway v) _ hfanout
  exact Nat.lt_one_add_iff.mpr (htotal.trans (Nat.mul_le_mul_right _ hlen))

/-- The frames a gateway sends for a copy cost less than the copy. -/
theorem total_relayed (hpeers : peers v = g.peerPorts.length) (hp : c.payload = buildMessage m)
    (hm : m.control = .NONE) :
    total d peers (((attempts cfg g (rxOfMessage m c) now).filter fits).flatMap
      (copies d (.gateway v))) <
      cost d peers ⟨.gateway v, c⟩ := by
  cases ho : c.origin with
  | sharedMemory => exact total_forward_lt hp hm ho
  | ethernet => exact total_fanout_lt hpeers hp hm ho

end Relayed

/-- The acknowledgement is no alarm. -/
theorem alarm_acknowledgement (p : Instance) (port : UInt16) (id time : UInt64) :
    alarm (acknowledgement p port id time) = false := by
  have hp : (acknowledgement p port id time).payload = buildMessage (commMessage p ⟨p.address, port⟩
    (Int32.ofInt port.toNat) (ascii "ack-brake") id time) := rfl
  rw [alarm_eq hp]
  have hbody : isAlarm (trim (ascii "ack-brake")) = false := by decide
  exact hbody

/-- A delivery changes no process, and what it puts in flight costs less than what it took. -/
theorem arrive_spec (h : Traffic d s) {x : Copy V} (hx : CopyOk d x) (env : Env) (id : UInt64) :
    ∃ new, arrive d s x env id = { s with copies := s.copies ++ new } ∧ (∀ y ∈ new, CopyOk d y) ∧
      total d (fun v => (s.gateway v).peerPorts.length) new <
        cost d (fun v => (s.gateway v).peerPorts.length) x := by
  obtain ⟨receiver, c⟩ := x
  obtain ⟨hreceiver, m, hp, hm⟩ := hx
  have hnil : total d (fun v => (s.gateway v).peerPorts.length) [] <
      cost d (fun v => (s.gateway v).peerPorts.length) ⟨receiver, c⟩ := cost_pos _
  cases receiver with
  | gateway v =>
    have hbroadcast : (s.gateway v).proto.address ≠ Address.BROADCAST :=
      h.address v ▸ d.individual v
    obtain ⟨effects, heq, hout⟩ := gatewayReceive_data env (d.config v) (h.hears v)
      (h.listens v) hbroadcast hp hm
    have harrive : arrive d s ⟨.gateway v, c⟩ env id = { s with
        copies := s.copies ++
          (emitted true (s.gateway v).proto.address effects).flatMap (copies d (.gateway v)) } := by
      simp only [arrive, heq, Function.update_eq_self]
    refine ⟨_, harrive, ?_⟩
    split at hout
    · rw [(Prod.mk.inj hout).2]
      exact ⟨by simp, hnil⟩
    · rw [(Prod.mk.inj hout).2]
      refine ⟨fun y hy => ?_, total_relayed rfl hp hm⟩
      obtain ⟨f, hf, hy⟩ := List.mem_flatMap.mp hy
      obtain ⟨⟨m', hp', hm'⟩, -⟩ := relayed_attempt hm (List.mem_filter.mp hf).1
      exact copyOk_of_mem_copies hp' hm' hy
  | component v port =>
    have hany := ne_anyPort_of_mem (port_of_mem_processes hreceiver).1
    obtain ⟨effects, heq, hout⟩ :=
      componentReceive_data env id hany (h.componentListens v port) hp hm
    have harrive : arrive d s ⟨.component v port, c⟩ env id = { s with
        copies := s.copies ++
          (emitted false (s.component v port).address effects).flatMap
            (copies d (.component v port)) } := by
      simp only [arrive, heq, Function.update_eq_self]
    refine ⟨_, harrive, ?_⟩
    split at hout
    · rw [(Prod.mk.inj hout).2]
      split
      · rename_i halarm
        rw [List.flatMap_singleton]
        refine ⟨fun y hy => copyOk_of_mem_copies rfl rfl hy, ?_⟩
        rw [cost_component, alarm_eq hp, halarm.2]
        exact total_acknowledged v port rfl (alarm_acknowledgement ..)
      · exact ⟨by simp, hnil⟩
    · rw [(Prod.mk.inj hout).2]
      exact ⟨by simp, hnil⟩

end Deliver

/-! ## Runs -/

section Runs

variable {d} {s s' : State V} {a : Action}

theorem Traffic.copyOk (h : Traffic d s) {x : Copy V} (hx : x ∈ s.copies) : CopyOk d x :=
  ⟨h.receiver x hx, h.data x hx⟩

theorem Traffic.copies (h : Traffic d s) {l : List (Copy V)} (hl : ∀ x ∈ l, CopyOk d x) :
    Traffic d { s with copies := l } :=
  { h with receiver := fun x hx => (hl x hx).1, data := fun x hx => (hl x hx).2 }

/-- Every step keeps the processes as they are and uses up some of the cost. -/
theorem step_spec (h : Traffic d s) (hs : step d s a = some s') :
    Traffic d s' ∧ s'.gateway = s.gateway ∧
    total d (fun v => (s.gateway v).peerPorts.length) s'.copies <
      total d (fun v => (s.gateway v).peerPorts.length) s.copies := by
  cases a with
  | deliver i now stray id =>
    simp only [step, Option.map_eq_some_iff] at hs
    obtain ⟨x, hx, rfl⟩ := hs
    have hrest : Traffic d { s with copies := s.copies.eraseIdx i } :=
      h.copies fun y hy => h.copyOk (List.mem_of_mem_eraseIdx hy)
    obtain ⟨new, heq, hnew, hlt⟩ :=
      arrive_spec hrest (h.copyOk (List.mem_of_getElem? hx)) { now, stray } id
    rw [heq]
    refine ⟨h.copies fun y hy => ?_, rfl, ?_⟩
    · rcases List.mem_append.mp hy with hy | hy
      · exact h.copyOk (List.mem_of_mem_eraseIdx hy)
      · exact hnew y hy
    · rw [total_append, ← total_eraseIdx hx]
      exact Nat.add_lt_add_left hlt _
  | lose i =>
    simp only [step, Option.ite_none_right_eq_some] at hs
    obtain ⟨hi, hs⟩ := hs
    obtain rfl := Option.some.inj hs
    refine ⟨h.copies fun y hy => h.copyOk (List.mem_of_mem_eraseIdx hy), rfl, ?_⟩
    rw [← total_eraseIdx (List.getElem?_eq_getElem hi)]
    exact Nat.lt_add_of_pos_right (cost_pos _)

/-- Cascades end: from any data messages in flight, with any bodies, no sequence of
deliveries and losses is longer than what the copies cost. -/
theorem cascade_ends (h : Traffic d s) :
    ∃ n, ∀ as t, run (step d) s as = some t → as.length ≤ n := by
  refine ⟨total d (fun v => (s.gateway v).peerPorts.length) s.copies, fun as t hrun => ?_⟩
  have hlen := length_add_le_of_run (fun t => Traffic d t ∧ t.gateway = s.gateway)
    (fun t => total d (fun v => (s.gateway v).peerPorts.length) t.copies) ?_ ⟨h, rfl⟩ as hrun
  · omega
  · intro t a u ⟨ht, hsame⟩ hu
    obtain ⟨hu', hgateway, hlt⟩ := step_spec ht hu
    rw [hsame] at hgateway hlt
    exact ⟨⟨hu', hgateway⟩, hlt⟩

end Runs

/-- All machines run in one group, and the brake of one of them has just sent an alarm. -/
def brakeTraffic (d : Deployment V) (v : V) : State V where
  gateway := runningGateway d
  component := runningComponent d
  copies := [⟨.gateway v, ⟨⟨d.mac v, BRAKE_PORT⟩, ⟨d.mac v, GATEWAY_PORT⟩, .sharedMemory,
    buildMessage { body := ascii "brake!" }⟩⟩]

theorem traffic_brakeTraffic (d : Deployment V) (v : V) : Traffic d (brakeTraffic d v) where
  hears _ := rfl
  address _ := rfl
  listens _ := rfl
  componentAddress _ _ := rfl
  componentListens _ _ := rfl
  receiver x hx := by
    obtain rfl := List.mem_singleton.mp hx
    exact List.mem_cons_self
  data x hx := by
    obtain rfl := List.mem_singleton.mp hx
    exact ⟨_, rfl, rfl⟩

/-- The alarm of one car makes another acknowledge it; after seventeen deliveries all is
quiet. -/
theorem braking_car_falls_silent :
    ((run (step twoGroups) (brakeTraffic twoGroups 1)
      (List.replicate 17 (.deliver 0 (fun _ => 0) (fun _ => 0) 0))).map fun s =>
        s.copies.length) = some 0 ∧
    ∃ n, ∀ as t, run (step twoGroups) (brakeTraffic twoGroups 1) as = some t → as.length ≤ n :=
  ⟨by decide +kernel, cascade_ends (traffic_brakeTraffic twoGroups 1)⟩

end CarNetwork.Cascade
