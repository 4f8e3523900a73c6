import CarNetwork.Provenance
import CarNetwork.Relay

/-!
# Relaying neither loops nor duplicates

Runs of the data traffic of one group. Every frame that is put on a channel is an item of
a trace, with the process that sent it and the frame whose reception made it do so. The
shared memory hands a frame to each other process of its machine once, and the Ethernet
to each machine at most once, the sender included. In between, control traffic and ticks
may change everything in a process that the relay does not depend on.
-/
namespace CarNetwork.RelayOnce

open CarNetwork.ByteText CarNetwork.Conversions CarNetwork.Ethernet CarNetwork.Protocol
open CarNetwork.Car CarNetwork.Fleet CarNetwork.Sizes CarNetwork.Relay CarNetwork.Provenance
open CarNetwork.Runs

/-- What a process is told when a frame is handed to it, and its peer list at the time. -/
structure Reception where
  rx : List Rx
  peerPorts : List UInt16

structure State (V : Type) where
  gateway : V → Gateway
  component : V → UInt16 → Instance
  trace : Trace (Node V) AsyncCapsule Reception

inductive Action (V : Type)
  | send (v : V) (port : UInt16) (text : Bytes) (id time : UInt64)
  | receive (i : ℕ) (n : Node V) (now : ℕ → UInt64) (stray : ℤ → ℤ) (id : UInt64)
  | changeGateway (v : V) (g : Gateway)
  | changeComponent (v : V) (port : UInt16) (p : Instance)

variable {V : Type} [DecidableEq V] (d : Deployment V) (group : UInt8)

/-- A gateway that listens on the wildcard port of both channels, in the group of the run. -/
def GatewayReady (v : V) (g : Gateway) : Prop :=
  g.phase.hears = true ∧ g.proto.address = d.mac v ∧ g.proto.currentGroupId = group.toNat ∧
    g.proto.portObservers = observers ANY_PORT ∧ g.peerPorts.Nodup

/-- A component that listens on its port, in the group of the run. -/
def ComponentReady (v : V) (port : UInt16) (p : Instance) : Prop :=
  p.address = d.mac v ∧ p.currentGroupId = group.toNat ∧ p.portObservers = observers port

instance (v : V) (g : Gateway) : Decidable (GatewayReady d group v g) :=
  inferInstanceAs (Decidable (_ ∧ _))

instance (v : V) (port : UInt16) (p : Instance) : Decidable (ComponentReady d group v port p) :=
  inferInstanceAs (Decidable (_ ∧ _))

/-- The processes that a frame is handed to; the Ethernet may also give it back to the
interface that sent it. -/
def reaches (x : Item (Node V) AsyncCapsule) (n : Node V) : Bool :=
  n ∈ audience d x.maker x.data || (x.data.origin = .ethernet && n = x.maker)

/-- The machine has such a component. -/
def hasComponent (v : V) (port : UInt16) : Bool := .component v port ∈ processes d v

/-- A frame is handed to a process. A component that throws is gone, but a data message
never makes it. -/
def arrive (s : State V) (i : ℕ) (x : Item (Node V) AsyncCapsule) (env : Env) (id : UInt64) :
    Node V → State V
  | .gateway v =>
    let (g, effects) := gatewayReceive env (d.config v) (s.gateway v) x.data
    { s with
      gateway := Function.update s.gateway v g
      trace := s.trace.handle i (.gateway v) ⟨rxs effects, g.peerPorts⟩
        (emitted true g.proto.address effects) }
  | .component v port =>
    match componentReceive env (s.component v port) port id x.data with
    | .error _ => s
    | .ok (p, effects) =>
      { s with
        component := Function.update s.component v (Function.update (s.component v) port p)
        trace := s.trace.handle i (.component v port) ⟨rxs effects, []⟩
          (emitted false p.address effects) }

def step (s : State V) : Action V → Option (State V)
  | .send v port text id time =>
    if .component v port ∈ processes d v then
      match sendLocal (s.component v port) port text id time with
      | .error _ => none
      | .ok effects => some { s with
          trace := s.trace.publish (.component v port)
            (emitted false (s.component v port).address effects) }
    else none
  | .receive i n now stray id =>
    match s.trace.items[i]? with
    | none => none
    | some x =>
      if reaches d x n = true ∧ (s.trace.results i n).isEmpty = true then
        some (arrive d s i x { now, stray } id n)
      else none
  | .changeGateway v g =>
    if GatewayReady d group v g then some { s with gateway := Function.update s.gateway v g }
      else none
  | .changeComponent v port p =>
    if ComponentReady d group v port p then
      some { s with
        component := Function.update s.component v (Function.update (s.component v) port p) }
    else none

/-- All processes of the group are set up, and nothing has been sent yet. -/
structure Started (s : State V) : Prop where
  gateways : ∀ v, GatewayReady d group v (s.gateway v)
  components : ∀ v port, ComponentReady d group v port (s.component v port)
  silent : s.trace = {}

/-- All that a gateway tries to send when it is handed a frame is within the size limits. -/
def sendsFit (s : State V) : Action V → Bool
  | .receive i (.gateway v) now stray _ =>
    match s.trace.items[i]? with
    | none => true
    | some x =>
      (rxs (gatewayReceive { now, stray } (d.config v) (s.gateway v) x.data).2).all fun rx =>
        (attempts (d.config v) (s.gateway v) rx now).all fits
  | _ => true

/-- The frame with this number has been handed to the process. -/
def handed (t : Trace (Node V) AsyncCapsule Reception) (i : ℕ) (n : Node V) : Bool :=
  !(t.results i n).isEmpty

/-- How many Rx the process got for the frame with this number. -/
def rxCount (t : Trace (Node V) AsyncCapsule Reception) (i : ℕ) (n : Node V) : ℕ :=
  ((t.results i n).map (·.rx.length)).sum

/-- The Ethernet frames that were sent because of the frame with this number. -/
def ethernetFrames (t : Trace (Node V) AsyncCapsule Reception) (i : ℕ) :
    List (Item (Node V) AsyncCapsule) :=
  t.items.filter fun y => y.cause = some i ∧ y.data.origin = .ethernet

/-- The frame with number `k` is the one that the gateway of `w` fanned out to a port because
of the frame with number `i`. -/
def FannedOut (t : Trace (Node V) AsyncCapsule Reception) (i : ℕ) (w : V) (port : UInt16)
    (k : ℕ) : Prop :=
  ∃ y, t.items[k]? = some y ∧ y.cause = some i ∧ y.maker = .gateway w ∧ y.data.dst.port = port

/-- What a component sends is heard once by its gateway and leaves the machine once; what
comes from another machine goes once to each peer, who hears it once, and leaves no
machine again; and no gateway hears itself. -/
structure RelayedOnce (t : Trace (Node V) AsyncCapsule Reception) : Prop where
  forwarded : ∀ i x v port, t.items[i]? = some x → x.maker = .component v port →
    rxCount t i (.gateway v) = (handed t i (.gateway v)).toNat ∧
      (ethernetFrames t i).length = (handed t i (.gateway v)).toNat ∧
      ∀ y ∈ ethernetFrames t i, y.maker = .gateway v
  fannedOut : ∀ i x w r, t.items[i]? = some x → x.data.origin = .ethernet → x.maker ≠ .gateway w →
    r ∈ t.results i (.gateway w) → ((t.answers i (.gateway w)).map fun f => (f.origin, f.dst)) =
      r.peerPorts.map fun port => (.sharedMemory, ⟨d.mac w, port⟩)
  stays : ∀ i x, t.items[i]? = some x → x.data.origin = .ethernet → ethernetFrames t i = []
  received : ∀ i x w r port, t.items[i]? = some x → x.data.origin = .ethernet →
    x.maker ≠ .gateway w →
    r ∈ t.results i (.gateway w) → port ∈ r.peerPorts →
    ∃ k, FannedOut t i w port k ∧ (∀ l, FannedOut t i w port l → l = k) ∧
      rxCount t k (.component w port) = (handed t k (.component w port)).toNat ∧
      ∀ l q, FannedOut t i w q l → l ≠ k → rxCount t l (.component w port) = 0
  noEcho : ∀ i x v, t.items[i]? = some x → x.maker = .gateway v →
    rxCount t i (.gateway v) = 0 ∧ t.answers i (.gateway v) = []

/-! ## One handling -/

/-- A frame of the data traffic. -/
structure FrameOk (x : Item (Node V) AsyncCapsule) : Prop where
  data : ∃ m, x.data.payload = buildMessage m ∧ m.control = .NONE ∧ m.groupId = group
  source : x.data.src.mac = d.mac x.maker.vm
  ethernet : x.data.origin = .ethernet → ∃ v, x.maker = .gateway v

/-- What is true of a process that was handed a frame, of what it was told and of the frames
it sent: a gateway forwards what a process of its machine sent, fans out what comes from
another machine and is not told of its own; a component is told of what is for its port. -/
def Handling (x : Item (Node V) AsyncCapsule) (n : Node V) (r : Reception)
    (out : List AsyncCapsule) : Prop :=
  reaches d x n = true ∧ match n, x.data.origin with
    | .gateway _, .sharedMemory => r.rx.length = 1 ∧ ∃ f, out = [f] ∧ f.origin = .ethernet
    | .gateway v, .ethernet =>
      if x.maker = .gateway v then r.rx = [] ∧ out = []
      else r.rx.length = 1 ∧ r.peerPorts.Nodup ∧ (out.map fun f => (f.origin, f.dst)) =
        r.peerPorts.map fun port => (.sharedMemory, ⟨d.mac v, port⟩)
    | .component _ port, _ =>
      r.rx.length = (if x.data.dst.port = port then 1 else 0) ∧ ∀ f ∈ out, f.origin = .sharedMemory

section Handlings

variable {d group} {v : V} {x : Item (Node V) AsyncCapsule} {g : Gateway}

/-- A frame from the Ethernet carries the address of its sender, and nobody else's. -/
theorem FrameOk.own_iff (hx : FrameOk d group x) (ho : x.data.origin = .ethernet) :
    x.data.src.mac = d.mac v ↔ x.maker = .gateway v := by
  obtain ⟨w, hw⟩ := hx.ethernet ho
  rw [hx.source, hw]
  constructor
  · exact fun h => congrArg Node.gateway (d.mac_injective h)
  · intro h
    cases h
    rfl

theorem reaches_iff {n : Node V} : reaches d x n = true ↔
    n ∈ audience d x.maker x.data ∨ x.data.origin = .ethernet ∧ n = x.maker := by
  simp [reaches]

/-- Only the components of a car are handed frames. -/
theorem FrameOk.port_of_reaches (hx : FrameOk d group x) {port : UInt16}
    (h : reaches d x (.component v port) = true) : port ∈ componentPorts := by
  rcases reaches_iff.mp h with h | ⟨ho, hmaker⟩
  · exact (port_of_mem_processes (mem_processes_of_mem_audience h)).1
  · obtain ⟨w, hw⟩ := hx.ethernet ho
    cases hmaker.trans hw

/-- A frame on the shared memory is handed to the other processes of its machine. -/
theorem of_reaches_shm (ho : x.data.origin = .sharedMemory) {n : Node V}
    (h : reaches d x n = true) :
    n ∈ processes d x.maker.vm ∧ n ≠ x.maker := by
  rcases reaches_iff.mp h with h | ⟨heth, -⟩
  · rw [audience, ho] at h
    simpa using h
  · cases ho.symm.trans heth

/-- Frames with a message of the group, as a gateway sends them. -/
theorem frameOk_attempt {cause : Option ℕ} {rx : Rx} {now : ℕ → UInt64} {f : AsyncCapsule}
    (hg : GatewayReady d group v g) (hrx : rx.msg.control = .NONE)
    (hf : f ∈ attempts (d.config v) g rx now) : FrameOk d group ⟨.gateway v, cause, f⟩ := by
  obtain ⟨-, haddress, hgroup, -⟩ := hg
  obtain ⟨⟨time, hp⟩, hsrc, -⟩ := mem_attempts hf
  refine ⟨⟨_, hp, hrx, ?_⟩, ?_, fun _ => ⟨v, rfl⟩⟩
  · rw [relayed, hgroup, uint8_ofInt_toNat]
  · rw [hsrc]
    exact haddress

/-- The peers a fan-out goes to. -/
theorem dst_attempts {rx : Rx} {now : ℕ → UInt64} (hg : GatewayReady d group v g)
    (ho : rx.origin = .ethernet) :
    ((attempts (d.config v) g rx now).map fun f => (f.origin, f.dst)) =
      g.peerPorts.map fun port => (.sharedMemory, ⟨d.mac v, port⟩) := by
  obtain ⟨-, haddress, -⟩ := hg
  rw [attempts, ho, List.map_map, ← haddress]
  nth_rewrite 2 [← List.zipIdx_map_fst 0 g.peerPorts]
  rw [List.map_map]
  rfl

/-- A gateway that is handed a frame. -/
theorem handling_gateway (env : Env) (hg : GatewayReady d group v g) (hx : FrameOk d group x)
    (hreach : reaches d x (.gateway v) = true)
    (hfit : ((rxs (gatewayReceive env (d.config v) g x.data).2).all fun rx =>
      (attempts (d.config v) g rx env.now).all fits) = true) :
    ∃ effects, gatewayReceive env (d.config v) g x.data = (g, effects) ∧
      Handling d x (.gateway v) ⟨rxs effects, g.peerPorts⟩ (emitted true g.proto.address effects) ∧
      ∀ f ∈ emitted true g.proto.address effects, ∀ cause,
        FrameOk d group ⟨.gateway v, cause, f⟩ := by
  obtain ⟨hh, haddress, hgroup, hobs, hnodup⟩ := id hg
  obtain ⟨m, hp, hm, hmgroup⟩ := hx.data
  have hbroadcast : g.proto.address ≠ Address.BROADCAST := haddress ▸ d.individual v
  obtain ⟨effects, heq, hout⟩ := gatewayReceive_data env (d.config v) hh hobs hbroadcast hp hm
  have hsame : ¬ (m.groupId.toNat : ℤ) ≠ g.proto.currentGroupId := by rw [hmgroup, hgroup]; simp
  refine ⟨effects, heq, ?_⟩
  rw [heq] at hfit
  by_cases hown : x.data.origin = .ethernet ∧ x.data.src.mac = g.proto.address
  · rw [if_pos (Or.inl hown)] at hout
    obtain ⟨hrx, hframes⟩ := Prod.mk.inj hout
    rw [hrx, hframes]
    refine ⟨⟨hreach, ?_⟩, by simp⟩
    rw [hown.1]
    dsimp only
    rw [if_pos ((hx.own_iff hown.1).mp (haddress ▸ hown.2))]
    exact ⟨rfl, rfl⟩
  · rw [if_neg (not_or.mpr ⟨hown, hsame⟩)] at hout
    obtain ⟨hrx, hframes⟩ := Prod.mk.inj hout
    rw [hrx, List.all_cons, List.all_nil, Bool.and_true] at hfit
    rw [List.filter_eq_self.mpr (List.all_eq_true.mp hfit)] at hframes
    rw [hrx, hframes]
    refine ⟨⟨hreach, ?_⟩, fun f hf cause => frameOk_attempt hg hm hf⟩
    cases ho : x.data.origin with
    | sharedMemory => exact ⟨rfl, _, attempts_sharedMemory ho, rfl⟩
    | ethernet =>
      have hforeign : x.maker ≠ .gateway v := fun h => hown ⟨ho, haddress ▸ (hx.own_iff ho).mpr h⟩
      dsimp only
      rw [if_neg hforeign]
      exact ⟨rfl, hnodup, dst_attempts hg ho⟩

/-- A component that is handed a frame. -/
theorem handling_component {port : UInt16} {p : Instance} (env : Env) (id : UInt64)
    (hready : ComponentReady d group v port p) (hx : FrameOk d group x)
    (hreach : reaches d x (.component v port) = true) :
    ∃ effects, componentReceive env p port id x.data = .ok (p, effects) ∧
      Handling d x (.component v port) ⟨rxs effects, []⟩ (emitted false p.address effects) ∧
      ∀ f ∈ emitted false p.address effects, ∀ cause,
        FrameOk d group ⟨.component v port, cause, f⟩ := by
  obtain ⟨haddress, hgroup, hobs⟩ := hready
  obtain ⟨m, hp, hm, hmgroup⟩ := hx.data
  have hany := ne_anyPort_of_mem (hx.port_of_reaches hreach)
  obtain ⟨effects, heq, hout⟩ := componentReceive_data env id hany hobs hp hm
  refine ⟨effects, heq, ?_⟩
  have hsame : (m.groupId.toNat : ℤ) = p.currentGroupId := by rw [hmgroup, hgroup]
  by_cases hdst : port = x.data.dst.port
  · rw [if_pos ⟨hsame, hdst⟩] at hout
    obtain ⟨hrx, hframes⟩ := Prod.mk.inj hout
    rw [hrx, hframes]
    have hack : ∀ f ∈ if port = BRAKE_PORT ∧ isAlarm (trim m.body) = true then
        [acknowledgement p port id (env.now 0)] else [],
          f = acknowledgement p port id (env.now 0) := by
      intro f hf
      split at hf
      · exact List.mem_singleton.mp hf
      · cases hf
    refine ⟨⟨hreach, by rw [if_pos hdst.symm]; rfl, fun f hf => by rw [hack f hf]; rfl⟩,
      fun f hf cause => ?_⟩
    rw [hack f hf]
    refine ⟨⟨_, rfl, rfl, ?_⟩, haddress, fun h => by cases h⟩
    rw [commMessage, hgroup, uint8_ofInt_toNat]
  · rw [if_neg fun h => hdst h.2] at hout
    obtain ⟨hrx, hframes⟩ := Prod.mk.inj hout
    rw [hrx, hframes]
    exact ⟨⟨hreach, by rw [if_neg (Ne.symm hdst)]; rfl, by simp⟩, by simp⟩

end Handlings

/-! ## Runs -/

structure Invariant (s : State V) : Prop where
  gateways : ∀ v, GatewayReady d group v (s.gateway v)
  components : ∀ v port, ComponentReady d group v port (s.component v port)
  frames : ∀ x ∈ s.trace.items, FrameOk d group x
  sound : s.trace.Sound (Handling d)

section Steps

variable {d group} {s s' : State V} {a : Action V}

/-- What `send_local` puts on the shared memory is the message of the call. -/
theorem mem_emitted_sendLocal {p : Instance} {port : UInt16} {text : Bytes} {id time : UInt64}
    {effects : List Effect} {f : AsyncCapsule} (h : sendLocal p port text id time = .ok effects)
    (hf : f ∈ emitted false p.address effects) :
    ∃ dst data, f = ⟨⟨p.address, port⟩, dst, .sharedMemory,
      buildMessage (commMessage p ⟨p.address, port⟩
      (Int32.ofInt port.toNat) data id time)⟩ := by
  unfold sendLocal at h
  simp only [bind, Except.bind] at h
  split at h
  · cases h
  · cases h
    obtain ⟨x, hx, hemit⟩ := List.mem_filterMap.mp hf
    rw [mem_send hx, emit] at hemit
    split at hemit
    · split at hemit
      · cases hemit
        exact ⟨_, _, rfl⟩
      · cases hemit
    · cases hemit

/-- What a component sends stays in its machine. -/
theorem frameOk_sendLocal {v : V} {port : UInt16} {p : Instance} {text : Bytes} {id time : UInt64}
    {effects : List Effect} {f : AsyncCapsule} (hready : ComponentReady d group v port p)
    (h : sendLocal p port text id time = .ok effects) (hf : f ∈ emitted false p.address effects) :
    FrameOk d group ⟨.component v port, none, f⟩ := by
  obtain ⟨haddress, hgroup, -⟩ := hready
  obtain ⟨dst, data, rfl⟩ := mem_emitted_sendLocal h hf
  refine ⟨⟨_, rfl, rfl, ?_⟩, haddress, fun ho => by cases ho⟩
  rw [commMessage, hgroup, uint8_ofInt_toNat]

theorem gatewayReady_update {gs : V → Gateway} (h : ∀ v, GatewayReady d group v (gs v))
    {v : V} {g : Gateway} (hg : GatewayReady d group v g) (w : V) :
    GatewayReady d group w (Function.update gs v g w) :=
  (Function.forall_update_iff gs fun w g => GatewayReady d group w g).mpr ⟨hg, fun w _ => h w⟩ w

theorem componentReady_update {ps : V → UInt16 → Instance}
    (h : ∀ v port, ComponentReady d group v port (ps v port)) {v : V} {port : UInt16} {p : Instance}
    (hp : ComponentReady d group v port p) (w : V) (q : UInt16) :
    ComponentReady d group w q (Function.update ps v (Function.update (ps v) port p) w q) := by
  refine (Function.forall_update_iff ps fun w c => ∀ q, ComponentReady d group w q (c q)).mpr
    ⟨?_, fun w _ => h w⟩ w q
  exact (Function.forall_update_iff (ps v) fun q c => ComponentReady d group v q c).mpr
    ⟨hp, fun q _ => h v q⟩

/-- A process is handed a frame for the first time. -/
theorem invariant_arrive (h : Invariant d group s) {i : ℕ} {n : Node V}
    {x : Item (Node V) AsyncCapsule} {now : ℕ → UInt64} {stray : ℤ → ℤ} {id : UInt64}
    (hok : sendsFit d s (.receive i n now stray id) = true) (hx : s.trace.items[i]? = some x)
    (hreach : reaches d x n = true) (hfirst : s.trace.results i n = []) :
    Invariant d group (arrive d s i x { now, stray } id n) := by
  have hframe := h.frames x (List.mem_of_getElem? hx)
  cases n with
  | gateway v =>
    simp only [sendsFit, hx] at hok
    obtain ⟨effects, heq, hhandling, hout⟩ :=
      handling_gateway { now, stray } (h.gateways v) hframe hreach hok
    simp only [arrive, heq]
    exact ⟨gatewayReady_update h.gateways (h.gateways v), h.components,
      forall_items_append h.frames fun f hf => hout f hf _, h.sound.handle hx hfirst hhandling⟩
  | component v port =>
    obtain ⟨effects, heq, hhandling, hout⟩ :=
      handling_component { now, stray } id (h.components v port) hframe hreach
    simp only [arrive, heq]
    exact ⟨h.gateways, componentReady_update h.components (h.components v port),
      forall_items_append h.frames fun f hf => hout f hf _, h.sound.handle hx hfirst hhandling⟩

theorem invariant_step (h : Invariant d group s) (hok : sendsFit d s a = true)
    (hs : step d group s a = some s') : Invariant d group s' := by
  cases a with
  | send v port text id time =>
    simp only [step] at hs
    split at hs
    · split at hs
      · cases hs
      · rename_i effects heq
        obtain rfl := Option.some.inj hs
        exact ⟨h.gateways, h.components,
          forall_items_append h.frames fun f hf => frameOk_sendLocal (h.components v port) heq hf,
          h.sound.publish _ _⟩
    · cases hs
  | receive i n now stray id =>
    simp only [step] at hs
    split at hs
    · cases hs
    · rename_i x hx
      simp only [Option.ite_none_right_eq_some] at hs
      obtain ⟨⟨hreach, hfirst⟩, hs⟩ := hs
      exact Option.some.inj hs ▸ invariant_arrive h hok hx hreach (List.isEmpty_iff.mp hfirst)
  | changeGateway v g =>
    simp only [step, Option.ite_none_right_eq_some] at hs
    obtain ⟨hg, hs⟩ := hs
    obtain rfl := Option.some.inj hs
    exact ⟨gatewayReady_update h.gateways hg, h.components, h.frames, h.sound⟩
  | changeComponent v port p =>
    simp only [step, Option.ite_none_right_eq_some] at hs
    obtain ⟨hp, hs⟩ := hs
    obtain rfl := Option.some.inj hs
    exact ⟨h.gateways, componentReady_update h.components hp, h.frames, h.sound⟩

end Steps

/-! ## Exactly once -/

section Once

variable {d group} {s : State V} {i : ℕ} {x : Item (Node V) AsyncCapsule} {v : V}

theorem invariant_of_reaches {s₀ : State V} (h₀ : Started d group s₀)
    (h : Reaches (step d group) (fun s a => sendsFit d s a = true) s₀ s) : Invariant d group s := by
  refine h.invariant (Invariant d group) ⟨h₀.gateways, h₀.components, ?_, ?_⟩
    fun _ _ _ hinv hok hs => invariant_step hinv hok hs
  · simp [h₀.silent]
  · rw [h₀.silent]
    exact Trace.sound_nil

/-- The two cases of a frame and a process, as the counts see them. -/
theorem Invariant.cases (h : Invariant d group s) (hx : s.trace.items[i]? = some x) (n : Node V) :
    (handed s.trace i n = false ∧ rxCount s.trace i n = 0 ∧ s.trace.answers i n = []) ∨
    ∃ r, handed s.trace i n = true ∧ s.trace.results i n = [r] ∧ rxCount s.trace i n = r.rx.length ∧
      Handling d x n r (s.trace.answers i n) := by
  rcases h.sound i n with ⟨hr, ha⟩ | ⟨y, r, hy, hr, hhandling⟩
  · exact Or.inl ⟨by simp [handed, hr], by simp [rxCount, hr], ha⟩
  · cases hx.symm.trans hy
    exact Or.inr ⟨r, by simp [handed, hr], hr, by simp [rxCount, hr], hhandling⟩

/-- No gateway is told of a frame it sent itself. -/
theorem Invariant.no_echo (h : Invariant d group s) (hx : s.trace.items[i]? = some x)
    (hmaker : x.maker = .gateway v) :
    rxCount s.trace i (.gateway v) = 0 ∧ s.trace.answers i (.gateway v) = [] := by
  rcases h.cases hx (.gateway v) with ⟨-, hcount, hnone⟩ | ⟨r, -, -, hcount, hreach, hout⟩
  · exact ⟨hcount, hnone⟩
  · cases ho : x.data.origin with
    | sharedMemory => exact absurd hmaker.symm (of_reaches_shm ho hreach).2
    | ethernet =>
      rw [ho] at hout
      dsimp only at hout
      rw [if_pos hmaker] at hout
      rw [hcount, hout.1]
      exact ⟨rfl, hout.2⟩

theorem Invariant.origin_of_component (h : Invariant d group s) (hx : s.trace.items[i]? = some x)
    {port : UInt16} (hmaker : x.maker = .component v port) : x.data.origin = .sharedMemory := by
  cases ho : x.data.origin with
  | sharedMemory => rfl
  | ethernet =>
    obtain ⟨w, hw⟩ := (h.frames x (List.mem_of_getElem? hx)).ethernet ho
    cases hmaker.symm.trans hw

/-- What the gateway of a machine sends because of its components goes to the Ethernet, and
nobody else's frames do. -/
theorem Invariant.ethernetFrames_component (h : Invariant d group s)
    (hx : s.trace.items[i]? = some x) {port : UInt16} (hmaker : x.maker = .component v port) :
    ethernetFrames s.trace i =
      s.trace.items.filter fun y => y.cause = some i ∧ y.maker = .gateway v := by
  have ho := h.origin_of_component hx hmaker
  refine List.filter_congr fun y hy => decide_eq_decide.mpr (and_congr_right fun hcause => ?_)
  obtain ⟨hmem, x', r, hx', -, hreach, hout⟩ := h.sound.of_cause hy hcause
  cases hx.symm.trans hx'
  rw [ho] at hout
  constructor
  · intro heth
    obtain ⟨w, hw⟩ := (h.frames y hy).ethernet heth
    have hvm := vm_of_mem_processes (of_reaches_shm ho hreach).1
    rw [hw, hmaker] at hvm
    exact hw.trans (congrArg Node.gateway hvm)
  · intro hgateway
    rw [hgateway] at hout hmem
    obtain ⟨-, f, hf, heth⟩ := hout
    rw [hf, List.mem_singleton] at hmem
    rw [hmem, heth]

/-- The gateway of a machine is told once of what its components send and forwards it once. -/
theorem Invariant.forwarded (h : Invariant d group s) (hx : s.trace.items[i]? = some x)
    {port : UInt16} (hmaker : x.maker = .component v port) :
    rxCount s.trace i (.gateway v) = (handed s.trace i (.gateway v)).toNat ∧
      (ethernetFrames s.trace i).length = (handed s.trace i (.gateway v)).toNat ∧
      ∀ y ∈ ethernetFrames s.trace i, y.maker = .gateway v := by
  have hframes := h.ethernetFrames_component hx hmaker
  have hlen : (ethernetFrames s.trace i).length = (s.trace.answers i (.gateway v)).length := by
    rw [hframes, Trace.answers, List.length_map]
  rw [hlen]
  refine and_assoc.mp ⟨?_, fun y hy => ?_⟩
  · rcases h.cases hx (.gateway v) with ⟨hno, hcount, hnone⟩ | ⟨r, hyes, -, hcount, -, hout⟩
    · rw [hno, hcount, hnone]
      exact ⟨rfl, rfl⟩
    · rw [h.origin_of_component hx hmaker] at hout
      obtain ⟨hrx, f, hf, -⟩ := hout
      rw [hyes, hcount, hrx, hf]
      exact ⟨rfl, rfl⟩
  · rw [hframes] at hy
    exact (of_decide_eq_true (List.mem_filter.mp hy).2).2

/-- The frames that a gateway sends because of a frame from another machine. -/
theorem Invariant.fannedOut (h : Invariant d group s) (hx : s.trace.items[i]? = some x)
    (ho : x.data.origin = .ethernet) {w : V} (hforeign : x.maker ≠ .gateway w) {r : Reception}
    (hr : r ∈ s.trace.results i (.gateway w)) :
    r.peerPorts.Nodup ∧ ((s.trace.answers i (.gateway w)).map fun f => (f.origin, f.dst)) =
      r.peerPorts.map fun port => (.sharedMemory, ⟨d.mac w, port⟩) := by
  rcases h.cases hx (.gateway w) with ⟨hno, -⟩ | ⟨r', -, hr', -, -, hout⟩
  · rw [handed, Bool.not_eq_false', List.isEmpty_iff] at hno
    rw [hno] at hr
    cases hr
  · rw [hr', List.mem_singleton] at hr
    rw [ho] at hout
    dsimp only at hout
    rw [if_neg hforeign] at hout
    rw [hr]
    exact hout.2

/-- Nothing that comes from the Ethernet is sent to it again. -/
theorem Invariant.stays (h : Invariant d group s) (hx : s.trace.items[i]? = some x)
    (ho : x.data.origin = .ethernet) : ethernetFrames s.trace i = [] := by
  refine List.filter_eq_nil_iff.mpr fun y hy hboth => ?_
  obtain ⟨hcause, heth⟩ := of_decide_eq_true hboth
  obtain ⟨w, hw⟩ := (h.frames y hy).ethernet heth
  obtain ⟨hmem, x', r, hx', hr, -, hout⟩ := h.sound.of_cause hy hcause
  cases hx.symm.trans hx'
  rw [hw] at hmem hr hout
  by_cases hown : x.maker = .gateway w
  · rw [(h.no_echo hx hown).2] at hmem
    cases hmem
  · have hdst := (h.fannedOut hx ho hown (hr ▸ List.mem_singleton_self r)).2
    have hpair := List.mem_map_of_mem (f := fun f : AsyncCapsule => (f.origin, f.dst)) hmem
    rw [hdst] at hpair
    obtain ⟨port, -, hport⟩ := List.mem_map.mp hpair
    cases heth.symm.trans (congrArg Prod.fst hport).symm

/-- A component is told once of the frame for its port, and of no other frame. -/
theorem Invariant.received (h : Invariant d group s) (hx : s.trace.items[i]? = some x)
    (ho : x.data.origin = .ethernet) {w : V} (hforeign : x.maker ≠ .gateway w) {r : Reception}
    (hr : r ∈ s.trace.results i (.gateway w)) {port : UInt16} (hport : port ∈ r.peerPorts) :
    ∃ k, FannedOut s.trace i w port k ∧ (∀ l, FannedOut s.trace i w port l → l = k) ∧
      rxCount s.trace k (.component w port) = (handed s.trace k (.component w port)).toNat ∧
      ∀ l q, FannedOut s.trace i w q l → l ≠ k → rxCount s.trace l (.component w port) = 0 := by
  obtain ⟨hnodup, hdst⟩ := h.fannedOut hx ho hforeign hr
  have hports : ((s.trace.answers i (.gateway w)).map fun f => f.dst.port) = r.peerPorts := by
    have hsnd := congrArg (List.map fun p : ChannelOrigin × Endpoint => p.2.port) hdst
    simpa [List.map_map, Function.comp_def] using hsnd
  have hunique : ((s.trace.answers i (.gateway w)).map fun f => f.dst.port).Nodup := hports ▸ hnodup
  have hexists : port ∈ (s.trace.answers i (.gateway w)).map fun f => f.dst.port := hports ▸ hport
  obtain ⟨f, hf, hfport⟩ := List.mem_map.mp hexists
  obtain ⟨y, hy, rfl⟩ := List.mem_map.mp hf
  obtain ⟨hy, hyi⟩ := List.mem_filter.mp hy
  obtain ⟨k, hk⟩ := List.getElem?_of_mem hy
  obtain ⟨hcause, hmaker⟩ := of_decide_eq_true hyi
  have hone : ∀ l, FannedOut s.trace i w port l → l = k := by
    rintro l ⟨z, hz, hzcause, hzmaker, hzport⟩
    exact Trace.index_unique hunique hz hk ⟨hzcause, hzmaker⟩ ⟨hcause, hmaker⟩
      (hzport.trans hfport.symm)
  refine ⟨k, ⟨y, hk, hcause, hmaker, hfport⟩, hone, ?_, ?_⟩
  · rcases h.cases hk (.component w port) with ⟨hno, hcount, -⟩ | ⟨r', hyes, -, hcount, -, hout, -⟩
    · rw [hno, hcount]
      rfl
    · rw [hyes, hcount, hout, if_pos hfport]
      rfl
  · rintro l q ⟨z, hz, hzcause, hzmaker, hzport⟩ hne
    have hother : z.data.dst.port ≠ port :=
      fun hsame => hne (hone l ⟨z, hz, hzcause, hzmaker, hsame⟩)
    rcases h.cases hz (.component w port) with ⟨-, hcount, -⟩ | ⟨r', -, -, hcount, -, hout, -⟩
    · exact hcount
    · rw [hcount, hout, if_neg hother]

/-- Forwarding neither loops nor duplicates: in every run of a group's data traffic in which
all sends fit the size limits, with any number of machines, any interleaving, any loss
on the Ethernet and any control traffic in between, every frame is relayed once. -/
theorem relayed_once {s₀ : State V} (h₀ : Started d group s₀)
    (h : Reaches (step d group) (fun s a => sendsFit d s a = true) s₀ s) :
    RelayedOnce d s.trace := by
  have hinv := invariant_of_reaches h₀ h
  exact {
    forwarded := fun i x v port hx hmaker => hinv.forwarded hx hmaker
    fannedOut := fun i x w r hx ho hforeign hr => (hinv.fannedOut hx ho hforeign hr).2
    stays := fun i x hx ho => hinv.stays hx ho
    received := fun i x w r port hx ho hforeign hr hport => hinv.received hx ho hforeign hr hport
    noEcho := fun i x v hx hmaker => hinv.no_echo hx hmaker }

end Once

/-- Two cars of group 0. -/
def twoCars : Deployment (Fin 2) := .ofVmIds ![1, 2] (by decide) 2

def quietCars (d : Deployment V) : State V := ⟨runningGateway d, runningComponent d, {}⟩

theorem started_quietCars (d : Deployment V) : Started d 0 (quietCars d) where
  gateways _ := ⟨rfl, rfl, rfl, rfl, (by decide : (setPeerPorts GATEWAY_PORT componentPorts).Nodup)⟩
  components _ _ := ⟨rfl, rfl, rfl⟩
  silent := rfl

/-- The brake of the first car sends an alarm, which the brake of the second one acknowledges. -/
theorem alarm_relayed_once :
    ∃ s, Reaches (step twoCars 0) (fun s a => sendsFit twoCars s a = true) (quietCars twoCars) s ∧
      s.trace.items.length = 5 ∧ rxCount s.trace 0 (.gateway 0) = 1 ∧
      rxCount s.trace 3 (.component 1 BRAKE_PORT) = 1 ∧ RelayedOnce twoCars s.trace := by
  have hrun : ((runIf (sendsFit twoCars) (step twoCars 0) (quietCars twoCars)
      [.send 0 BRAKE_PORT (ascii "brake!") 0 0,
        .receive 0 (.gateway 0) (fun _ => 0) (fun _ => 0) 0,
        .receive 1 (.gateway 1) (fun _ => 0) (fun _ => 0) 0,
        .receive 2 (.component 1 BRAKE_PORT) (fun _ => 0) (fun _ => 0) 0,
        .receive 3 (.component 1 BRAKE_PORT) (fun _ => 0) (fun _ => 0) 0]).map fun s =>
      (s.trace.items.length, rxCount s.trace 0 (.gateway 0),
        rxCount s.trace 3 (.component 1 BRAKE_PORT))) = some (5, 1, 1) := by
    decide +kernel
  obtain ⟨s, hs, hobs⟩ := exists_reaches_of_runIf (fun s a => sendsFit twoCars s a = true) _
    (fun _ _ _ h => h) hrun
  obtain ⟨hlen, hobs⟩ := Prod.mk.inj hobs
  obtain ⟨hgateway, hbrake⟩ := Prod.mk.inj hobs
  exact ⟨s, hs, hlen, hgateway, hbrake, relayed_once (started_quietCars twoCars) hs⟩

end CarNetwork.RelayOnce
