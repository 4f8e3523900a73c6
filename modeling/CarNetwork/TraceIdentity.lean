import CarNetwork.RelayOnce

/-!
# The log lines of one message

Every process logs what it sends and what its observers receive, and the latency tool joins
the lines of both kinds by group, vehicle, port, type and id. The ids are counted by each
component from zero, and a gateway writes its own vehicle and port over those of the
component, both when it forwards a message and when it fans one out. So the lines of a
gateway tell two messages apart by their type and id alone, and these are the same for the
first message of each car's brake.

What decides is which calls a gateway passes on: the lines of a run identify messages
exactly if no gateway passes on equally numbered calls of the same component of two cars,
and no component calls so often that its counter starts again.
-/
namespace CarNetwork.TraceIdentity

open CarNetwork.ByteText CarNetwork.Conversions CarNetwork.Ethernet CarNetwork.Protocol
open CarNetwork.Car CarNetwork.Fleet CarNetwork.Sizes CarNetwork.Relay CarNetwork.Runs
open CarNetwork.RelayOnce (GatewayReady ComponentReady reaches hasComponent FrameOk
  gatewayReady_update componentReady_update mem_emitted_sendLocal)

/-! ## Log lines -/

/-- What a line says besides the time. -/
structure TraceKey where
  group : UInt8
  vm : UInt8
  port : UInt16
  type : Int32
  id : UInt64
  deriving DecidableEq, Repr

/-- The fields that `send_message` and the observers log. -/
def traceKey (msg : Message) : TraceKey :=
  ⟨msg.groupId, msg.origVm, msg.origPort, msg.type, msg.msgId⟩

/-- The fields that `Communicator::send` logs. -/
def sendKey (p : Instance) (localEp : Endpoint) (type : Int32) (id : UInt64) : TraceKey :=
  ⟨UInt8.ofInt p.currentGroupId, localEp.mac.lastOctet, localEp.port, type, id⟩

theorem traceKey_commMessage (p : Instance) (localEp : Endpoint) (type : Int32) (data : Bytes)
    (id time : UInt64) :
    traceKey (commMessage p localEp type data id time) = sendKey p localEp type id := rfl

/-- The messages that a gateway gives to `send_message` for an Rx, each with a line of its own,
sent or not. -/
def relayMessages (cfg : Config) (g : Gateway) (rx : Rx) (now : ℕ → UInt64) : List Message :=
  match rx.origin with
  | .sharedMemory => [relayed g.proto GATEWAY_PORT cfg.vmId rx.msg (now 0)]
  | .ethernet => g.peerPorts.zipIdx.map fun (_, i) =>
    relayed g.proto GATEWAY_PORT cfg.vmId rx.msg (now i)

/-- They are the messages of the frames that it tries to send. -/
theorem payload_attempts (cfg : Config) (g : Gateway) (rx : Rx) (now : ℕ → UInt64) :
    (attempts cfg g rx now).map (·.payload) = (relayMessages cfg g rx now).map buildMessage := by
  unfold attempts relayMessages
  cases rx.origin with
  | sharedMemory => rfl
  | ethernet =>
    dsimp only
    rw [List.map_map, List.map_map]
    rfl

theorem mem_relayMessages {cfg : Config} {g : Gateway} {rx : Rx} {now : ℕ → UInt64}
    {msg : Message} (h : msg ∈ relayMessages cfg g rx now) :
    ∃ time, msg = relayed g.proto GATEWAY_PORT cfg.vmId rx.msg time := by
  unfold relayMessages at h
  split at h
  · exact ⟨_, List.mem_singleton.mp h⟩
  · obtain ⟨e, -, rfl⟩ := List.mem_map.mp h
    exact ⟨_, rfl⟩

/-- A gateway without peers has nothing to fan out to. -/
theorem relayMessages_eq_nil_iff {cfg : Config} {g : Gateway} {rx : Rx} {now : ℕ → UInt64} :
    relayMessages cfg g rx now = [] ↔ rx.origin = .ethernet ∧ g.peerPorts = [] := by
  unfold relayMessages
  cases rx.origin with
  | sharedMemory => simp
  | ethernet => simp

/-! ## Runs -/

/-- A call of `Communicator::send`: which component made it, and how many it had made before. -/
structure Origin (V : Type) where
  vm : V
  port : UInt16
  number : ℕ
  deriving DecidableEq

/-- How a message travels: from a component, on to the other cars, or on to the components. -/
inductive Hop
  | component
  | forward
  | fanout
  deriving DecidableEq, Repr

/-- A line of a process, with the call and the hop of the message it is about. -/
structure Line (V : Type) where
  key : TraceKey
  time : UInt64
  node : Node V
  hop : Hop
  origin : Origin V

/-- A frame on a channel, with the call and the hop of its message. -/
structure Sent (V : Type) where
  maker : Node V
  data : AsyncCapsule
  hop : Hop
  origin : Origin V

/-- `count` is the next message id of a component, before it is cut to 64 bits. -/
structure State (V : Type) where
  gateway : V → Gateway
  component : V → UInt16 → Instance
  count : V → UInt16 → ℕ
  frames : List (Sent V)
  sends : List (Line V)
  recvs : List (Line V)

inductive Action (V : Type)
  | send (v : V) (port : UInt16) (text : Bytes) (time : UInt64)
  | receive (i : ℕ) (n : Node V) (recvTime : UInt64) (now : ℕ → UInt64) (stray : ℤ → ℤ)
  | changeGateway (v : V) (g : Gateway)
  | changeComponent (v : V) (port : UInt16) (p : Instance)

variable {V : Type} [DecidableEq V] (d : Deployment V) (group : UInt8)

/-- The frame as the channels see it. -/
def Sent.item (x : Sent V) : Provenance.Item (Node V) AsyncCapsule := ⟨x.maker, none, x.data⟩

def relayHop : ChannelOrigin → Hop
  | .sharedMemory => .forward
  | .ethernet => .fanout

/-- The next call of a component. -/
def State.nextCall (s : State V) (v : V) (port : UInt16) : Origin V := ⟨v, port, s.count v port⟩

def State.nextId (s : State V) (v : V) (port : UInt16) : UInt64 := UInt64.ofNat (s.count v port)

/-- The component has called `Communicator::send` so many times more. -/
def State.bump (s : State V) (v : V) (port : UInt16) (k : ℕ) : V → UInt16 → ℕ :=
  Function.update s.count v (Function.update (s.count v) port (s.count v port + k))

/-- The line of a call. -/
def State.callLine (s : State V) (v : V) (port : UInt16) (time : UInt64) : Line V :=
  ⟨sendKey (s.component v port) ⟨(s.component v port).address, port⟩ (Int32.ofInt port.toNat)
      (s.nextId v port),
    time, .component v port, .component, s.nextCall v port⟩

/-- The line of a reception. -/
def recvLine (x : Sent V) (n : Node V) (time : UInt64) (rx : Rx) : Line V :=
  ⟨traceKey rx.msg, time, n, x.hop, x.origin⟩

/-- A frame is handed to a process. -/
def arrive (s : State V) (x : Sent V) (recvTime : UInt64) (env : Env) : Node V → State V
  | .gateway v =>
    let (g, effects) := gatewayReceive env (d.config v) (s.gateway v) x.data
    { s with
      gateway := Function.update s.gateway v g
      frames := s.frames ++ (emitted true g.proto.address effects).map
        (⟨.gateway v, ·, relayHop x.data.origin, x.origin⟩)
      sends := s.sends ++ (rxs effects).flatMap fun rx =>
        (relayMessages (d.config v) g rx env.now).map fun msg =>
          ⟨traceKey msg, msg.timestamp, .gateway v, relayHop rx.origin, x.origin⟩
      recvs := s.recvs ++ (rxs effects).map (recvLine x (.gateway v) recvTime) }
  | .component v port =>
    match componentReceive env (s.component v port) port (s.nextId v port) x.data with
    | .error _ => s
    | .ok (p, effects) =>
      -- the brake calls `send_local` for every alarm
      let alarms := (rxs effects).filter fun rx => port = BRAKE_PORT && isAlarm rx.msg.body
      { s with
        component := Function.update s.component v (Function.update (s.component v) port p)
        count := s.bump v port alarms.length
        frames := s.frames ++ (emitted false p.address effects).map
          (⟨.component v port, ·, .component, s.nextCall v port⟩)
        sends := s.sends ++ alarms.map fun _ => s.callLine v port (env.now 0)
        recvs := s.recvs ++ (rxs effects).map (recvLine x (.component v port) recvTime) }

/-- A frame may be handed to each process it reaches any number of times or never. -/
def step (s : State V) : Action V → Option (State V)
  | .send v port text time =>
    if hasComponent d v port then
      match sendLocal (s.component v port) port text (s.nextId v port) time with
      | .error _ => none
      | .ok effects => some { s with
          count := s.bump v port 1
          frames := s.frames ++ (emitted false (s.component v port).address effects).map
            (⟨.component v port, ·, .component, s.nextCall v port⟩)
          sends := s.sends ++ [s.callLine v port time] }
    else none
  | .receive i n recvTime now stray =>
    match s.frames[i]? with
    | none => none
    | some x =>
      if reaches d x.item n = true then some (arrive d s x recvTime { now, stray } n) else none
  | .changeGateway v g =>
    if GatewayReady d group v g then
      some { s with gateway := Function.update s.gateway v g }
    else none
  | .changeComponent v port p =>
    if ComponentReady d group v port p then
      some { s with
        component := Function.update s.component v (Function.update (s.component v) port p) }
    else none

/-- All processes of the group are set up, and nothing has been logged yet. -/
structure Started (s : State V) : Prop where
  gateways : ∀ v, GatewayReady d group v (s.gateway v)
  components : ∀ v port, ComponentReady d group v port (s.component v port)
  uncounted : s.count = fun _ _ => 0
  silent : s.frames = [] ∧ s.sends = [] ∧ s.recvs = []

/-! ## Traces -/

/-- `send_dict.get(key)` of the latency tool, with all that is known of the lines. -/
def lookup (sends : List (Line V)) (key : TraceKey) : List (Line V) :=
  sends.filter fun r => r.key = key

/-- The time that the latency tool takes for the sending of a received message: that of the
last line with its key which is not later. -/
def sendTime (sends : List (Line V)) (q : Line V) : Option ℕ :=
  (((lookup sends q.key).map (·.time.toNat)).filter (· ≤ q.time.toNat)).max?

/-- The lines are about the same call and the same hop. -/
def SameMessage (r r' : Line V) : Prop := r.origin = r'.origin ∧ r.hop = r'.hop

instance (r r' : Line V) : Decidable (SameMessage r r') := inferInstanceAs (Decidable (_ ∧ _))

/-- Lines with equal keys are about the same message, so the latency tool finds lines for each
message received, and none of them is about another message. -/
structure Traced (s : State V) : Prop where
  identity : ∀ r ∈ s.sends, ∀ r' ∈ s.sends, r.key = r'.key → SameMessage r r'
  found : ∀ q ∈ s.recvs, lookup s.sends q.key ≠ []
  paired : ∀ q ∈ s.recvs, ∀ r ∈ lookup s.sends q.key, SameMessage r q
  timed : ∀ q ∈ s.recvs, ∀ t ∈ sendTime s.sends q,
    ∃ r ∈ s.sends, r.key = q.key ∧ r.time.toNat = t ∧ SameMessage r q

/-! ## Calls and deliveries -/

/-- The calls whose messages a gateway has passed on, to the other cars or to its components. -/
def State.passedOn (s : State V) (v : V) : List (Origin V) :=
  (s.sends.filter fun r => r.node = .gateway v).map (·.origin)

/-- The gateway has passed on no call of another car that came from the same port and had the
same number. -/
def State.unmistakable (s : State V) (v : V) (o : Origin V) : Bool :=
  (s.passedOn v).all fun o' => decide (o'.port = o.port → o'.number = o.number → o'.vm = o.vm)

/-- A gateway that is handed the frame passes its message on: what is from its own machine
goes to the other cars, what is from another one to the peers, if there are any. -/
def State.relays (s : State V) (x : Sent V) (v : V) : Bool :=
  x.data.origin = .sharedMemory || (x.data.src.mac ≠ d.mac v && !(s.gateway v).peerPorts.isEmpty)

/-- A component that is handed the frame makes a call: the brake answers an alarm. -/
def Sent.calls (x : Sent V) (port : UInt16) : Bool :=
  port = BRAKE_PORT && port = x.data.dst.port &&
    (rxOf (.onPacket ⟨x.data.origin, port⟩ x.data)).any fun rx => isAlarm rx.msg.body

/-- The component can make a call without repeating the number of an earlier one. -/
def State.countable (s : State V) (v : V) (port : UInt16) : Bool := s.count v port < 2 ^ 64

/-- What keeps the messages of a run apart: a component makes at most `2 ^ 64` calls, and a
gateway does not pass on equally numbered calls of the same component of two cars. -/
def keepsApart (s : State V) : Action V → Bool
  | .send v port _ _ => s.countable v port
  | .receive i n _ _ _ =>
    match s.frames[i]?, n with
    | none, _ => true
    | some x, .gateway v => !s.relays d x v || s.unmistakable v x.origin
    | some x, .component v port => !x.calls port || s.countable v port
  | .changeGateway _ _ | .changeComponent _ _ _ => true

/-! ## The invariant -/

/-- The port that a process sends from. -/
def processPort : Node V → UInt16
  | .gateway _ => GATEWAY_PORT
  | .component _ port => port

/-- The key under which a process sends the message of a call. -/
def keyOf (n : Node V) (o : Origin V) : TraceKey :=
  ⟨group, (d.mac n.vm).lastOctet, processPort n, Int32.ofInt o.port.toNat, UInt64.ofNat o.number⟩

/-- The hop on which a process sends the message of a call. -/
def hopOf : Node V → Origin V → Hop
  | .component _ _, _ => .component
  | .gateway v, o => if o.vm = v then .forward else .fanout

structure LineOk (r : Line V) : Prop where
  key : r.key = keyOf d group r.node r.origin
  hop : r.hop = hopOf r.node r.origin
  port : ∀ v port, r.node = .component v port → port ∈ componentPorts

structure SentOk (x : Sent V) : Prop where
  message : ∃ m, x.data.payload = buildMessage m ∧ m.control = .NONE ∧
    traceKey m = keyOf d group x.maker x.origin
  source : x.data.src.mac = d.mac x.maker.vm
  hop : x.hop = hopOf x.maker x.origin
  component : ∀ v port, x.maker = .component v port → x.origin.vm = v
  ethernet : x.data.origin = .ethernet → ∃ v, x.maker = .gateway v ∧ x.origin.vm = v

/-- The message of a line is among those logged as sent. -/
def Logged (sends : List (Line V)) (key : TraceKey) (h : Hop) (o : Origin V) : Prop :=
  ∃ r ∈ sends, r.key = key ∧ r.hop = h ∧ r.origin = o

structure Invariant (s : State V) : Prop where
  gateways : ∀ v, GatewayReady d group v (s.gateway v)
  components : ∀ v port, ComponentReady d group v port (s.component v port)
  frames : ∀ x ∈ s.frames,
    SentOk d group x ∧ Logged s.sends (keyOf d group x.maker x.origin) x.hop x.origin
  sends : ∀ r ∈ s.sends, LineOk d group r
  recvs : ∀ q ∈ s.recvs, Logged s.sends q.key q.hop q.origin

section Lines

variable {d group} {v : V} {port : UInt16} {x : Sent V} {s : State V}

theorem SentOk.frameOk (hx : SentOk d group x) : FrameOk d group x.item := by
  obtain ⟨m, hp, hm, hkey⟩ := hx.message
  exact ⟨⟨m, hp, hm, congrArg TraceKey.group hkey⟩, hx.source,
    fun ho => (hx.ethernet ho).imp fun _ h => h.1⟩

/-- A gateway that hears a message relays it on the hop that belongs to its call: what is heard
on the shared memory is from a component of the machine, and what is heard on the Ethernet
is from another machine. -/
theorem SentOk.hop_of_relay (hx : SentOk d group x) (hreach : reaches d x.item (.gateway v) = true)
    (hforeign : ¬ (x.data.origin = .ethernet ∧ x.data.src.mac = d.mac v)) :
    relayHop x.data.origin = hopOf (.gateway v) x.origin ∧
      (x.data.origin = .sharedMemory → x.origin.vm = v) := by
  cases ho : x.data.origin with
  | sharedMemory =>
    obtain ⟨hprocess, hne⟩ := RelayOnce.of_reaches_shm (x := x.item) ho hreach
    have hvm : v = x.maker.vm := vm_of_mem_processes hprocess
    have horigin : x.origin.vm = v := by
      cases hmaker : x.maker with
      | gateway w =>
        rw [hmaker] at hvm
        exact (hne (congrArg Node.gateway hvm |>.trans hmaker.symm)).elim
      | component w port =>
        rw [hmaker] at hvm
        exact (hx.component w port hmaker).trans hvm.symm
    exact ⟨(if_pos horigin).symm, fun _ => horigin⟩
  | ethernet =>
    obtain ⟨w, hmaker, horigin⟩ := hx.ethernet ho
    have hne : x.origin.vm ≠ v := by
      rintro rfl
      refine hforeign ⟨ho, ?_⟩
      rw [hx.source, hmaker, ← horigin]
      rfl
    exact ⟨(if_neg hne).symm, fun h => by cases h⟩

/-- A gateway keeps type and id and writes over the rest. -/
theorem traceKey_relayed {g : Gateway} {m : Message} {n : Node V} {o : Origin V}
    (hg : GatewayReady d group v g) (hkey : traceKey m = keyOf d group n o) (time : UInt64) :
    traceKey (relayed g.proto GATEWAY_PORT (d.config v).vmId m time) =
      keyOf d group (.gateway v) o := by
  obtain ⟨-, -, hgroup, -⟩ := hg
  have htype : m.type = Int32.ofInt o.port.toNat := congrArg TraceKey.type hkey
  have hid : m.msgId = UInt64.ofNat o.number := congrArg TraceKey.id hkey
  have hvm : UInt8.ofInt (vmIdFromMac (d.mac v)) = (d.mac v).lastOctet := uint8_ofInt_toNat _
  simp only [traceKey, relayed, keyOf, processPort, Node.vm, Deployment.config, hgroup,
    uint8_ofInt_toNat, htype, hid, hvm]

/-- A frame that a gateway sends because of a frame that it hears. -/
theorem SentOk.attempt (hx : SentOk d group x) (hreach : reaches d x.item (.gateway v) = true)
    (hforeign : ¬ (x.data.origin = .ethernet ∧ x.data.src.mac = d.mac v)) {g : Gateway}
    (hg : GatewayReady d group v g) {rx : Rx} (hm : rx.msg.control = .NONE)
    (hkey : traceKey rx.msg = keyOf d group x.maker x.origin) (ho : rx.origin = x.data.origin)
    {now : ℕ → UInt64} {f : AsyncCapsule} (hf : f ∈ attempts (d.config v) g rx now) :
    SentOk d group ⟨.gateway v, f, relayHop x.data.origin, x.origin⟩ := by
  obtain ⟨hhop, hshm⟩ := hx.hop_of_relay hreach hforeign
  obtain ⟨⟨time, hp⟩, hsrc, hchannel⟩ := mem_attempts hf
  refine ⟨⟨_, hp, hm, traceKey_relayed hg hkey time⟩, ?_, hhop, (fun _ _ h => by cases h),
    fun heth => ?_⟩
  · rw [hsrc]
    exact hg.2.1
  · rcases hchannel with ⟨hfrom, -⟩ | ⟨-, hto, -⟩
    · exact ⟨v, rfl, hshm (ho.symm.trans hfrom)⟩
    · cases hto.symm.trans heth

theorem sendKey_eq (hp : ComponentReady d group v port (s.component v port)) :
    sendKey (s.component v port) ⟨(s.component v port).address, port⟩ (Int32.ofInt port.toNat)
        (s.nextId v port) = keyOf d group (.component v port) (s.nextCall v port) := by
  obtain ⟨haddress, hgroup, -⟩ := hp
  rw [sendKey, hgroup, haddress, uint8_ofInt_toNat]
  rfl

theorem lineOk_callLine (hp : ComponentReady d group v port (s.component v port))
    (hport : port ∈ componentPorts) (time : UInt64) :
    LineOk d group (s.callLine v port time) where
  key := sendKey_eq hp
  hop := rfl
  port w q h := by
    cases h
    exact hport

/-- The frame of a call. -/
theorem sentOk_call {c : AsyncCapsule} {dst : Endpoint} {data : Bytes} {time : UInt64}
    (hp : ComponentReady d group v port (s.component v port))
    (hc : c = ⟨⟨(s.component v port).address, port⟩, dst, .sharedMemory, buildMessage (commMessage
      (s.component v port) ⟨(s.component v port).address, port⟩ (Int32.ofInt port.toNat) data
        (s.nextId v port) time)⟩) :
    SentOk d group ⟨.component v port, c, .component, s.nextCall v port⟩ := by
  subst hc
  have hkey := (traceKey_commMessage (s.component v port) ⟨(s.component v port).address, port⟩
    (Int32.ofInt port.toNat) data (s.nextId v port) time).trans (sendKey_eq hp)
  refine ⟨⟨_, rfl, rfl, hkey⟩, hp.1, rfl, ?_, fun ho => by cases ho⟩
  intro w q h
  cases h
  rfl

omit [DecidableEq V] in
theorem Logged.append {sends : List (Line V)} {key : TraceKey} {h : Hop} {o : Origin V}
    (hl : Logged sends key h o) (more : List (Line V)) : Logged (sends ++ more) key h o := by
  obtain ⟨r, hr, hrest⟩ := hl
  exact ⟨r, List.mem_append_left _ hr, hrest⟩

end Lines

/-! ## Steps -/

/-- Whose doing a step is: a component makes a call, a gateway passes one on, or nothing is
logged as sent. What the test asks of the step depends on it. -/
inductive Activity (s : State V) (a : Action V) (s' : State V) (fs : List (Sent V))
    (rs : List (Line V)) : Prop
  | call (v : V) (port : UInt16) (time : UInt64)
      (test : keepsApart d s a = s.countable v port) (count : s'.count = s.bump v port 1)
      (lines : rs = [s.callLine v port time])
      (frames : ∀ y ∈ fs, y.origin = s.nextCall v port) : Activity s a s' fs rs
  | relay (v : V) (x : Sent V) (mem : x ∈ s.frames)
      (test : keepsApart d s a = s.unmistakable v x.origin) (count : s'.count = s.count)
      (some : rs ≠ []) (lines : ∀ r ∈ rs, r.node = .gateway v ∧ r.origin = x.origin)
      (frames : ∀ y ∈ fs, y.origin = x.origin) : Activity s a s' fs rs
  | silent (test : keepsApart d s a = true) (count : s'.count = s.count) (lines : rs = [])
      (frames : fs = []) : Activity s a s' fs rs

/-- What a step adds: frames whose messages it has logged, and receptions of earlier ones. -/
structure Adds (s : State V) (a : Action V) (s' : State V) (fs : List (Sent V))
    (rs qs : List (Line V)) : Prop where
  gateways : ∀ v, GatewayReady d group v (s'.gateway v)
  components : ∀ v port, ComponentReady d group v port (s'.component v port)
  frames : s'.frames = s.frames ++ fs
  sends : s'.sends = s.sends ++ rs
  recvs : s'.recvs = s.recvs ++ qs
  sent : ∀ x ∈ fs, SentOk d group x ∧ Logged rs (keyOf d group x.maker x.origin) x.hop x.origin
  lines : ∀ r ∈ rs, LineOk d group r
  received : ∀ q ∈ qs, Logged s.sends q.key q.hop q.origin
  activity : Activity d s a s' fs rs

section Steps

variable {d group} {s s' : State V} {a : Action V}

theorem Adds.invariant {fs : List (Sent V)} {rs qs : List (Line V)} (h : Invariant d group s)
    (hadds : Adds d group s a s' fs rs qs) : Invariant d group s' := by
  refine ⟨hadds.gateways, hadds.components, ?_, ?_, ?_⟩
  · rw [hadds.frames, hadds.sends]
    intro x hx
    rcases List.mem_append.mp hx with hx | hx
    · exact (h.frames x hx).imp_right fun hl => hl.append rs
    · obtain ⟨hok, r, hr, hrest⟩ := hadds.sent x hx
      exact ⟨hok, r, List.mem_append_right _ hr, hrest⟩
  · rw [hadds.sends]
    intro r hr
    rcases List.mem_append.mp hr with hr | hr
    · exact h.sends r hr
    · exact hadds.lines r hr
  · rw [hadds.recvs, hadds.sends]
    intro q hq
    rcases List.mem_append.mp hq with hq | hq
    · exact (h.recvs q hq).append rs
    · exact (hadds.received q hq).append rs

/-- A step that neither sends nor hears anything. -/
theorem adds_nothing (hg : ∀ v, GatewayReady d group v (s'.gateway v))
    (hc : ∀ v port, ComponentReady d group v port (s'.component v port))
    (hframes : s'.frames = s.frames) (hsends : s'.sends = s.sends) (hrecvs : s'.recvs = s.recvs)
    (hcount : s'.count = s.count) (htest : keepsApart d s a = true) :
    Adds d group s a s' [] [] [] where
  gateways := hg
  components := hc
  frames := hframes.trans (List.append_nil _).symm
  sends := hsends.trans (List.append_nil _).symm
  recvs := hrecvs.trans (List.append_nil _).symm
  sent := by simp
  lines := by simp
  received := by simp
  activity := .silent htest hcount rfl rfl

omit [DecidableEq V] in
/-- What a process is told of a frame is logged under the key of the frame. -/
theorem logged_receptions {x : Sent V} {m : Message} {key : TraceKey} (hkey : traceKey m = key)
    (hlogged : Logged s.sends key x.hop x.origin) (n : Node V) (time : UInt64) :
    ∀ q ∈ [rxOfMessage m x.data].map (recvLine x n time),
      Logged s.sends q.key q.hop q.origin := by
  intro q hq
  obtain rfl := List.mem_singleton.mp hq
  subst hkey
  exact hlogged

/-- A gateway that takes a frame passes its message on, unless it has no peers to fan it out
to. -/
theorem relays_iff {x : Sent V} {v : V} {m : Message} {now : ℕ → UInt64}
    (hforeign : ¬ (x.data.origin = .ethernet ∧ x.data.src.mac = d.mac v)) :
    s.relays d x v = true ↔
      relayMessages (d.config v) (s.gateway v) (rxOfMessage m x.data) now ≠ [] := by
  have horigin : (rxOfMessage m x.data).origin = x.data.origin := rfl
  rw [Ne, relayMessages_eq_nil_iff, horigin]
  cases ho : x.data.origin with
  | sharedMemory => simp [State.relays, ho]
  | ethernet =>
    have hmac : x.data.src.mac ≠ d.mac v := fun hmac => hforeign ⟨ho, hmac⟩
    simp [State.relays, ho, hmac]

/-- What a gateway sends and logs for a frame that it takes is one activity. -/
theorem activity_relay {x : Sent V} {v : V} (hx : x ∈ s.frames) {m : Message} {now : ℕ → UInt64}
    (hforeign : ¬ (x.data.origin = .ethernet ∧ x.data.src.mac = d.mac v))
    (htest : keepsApart d s a = (!s.relays d x v || s.unmistakable v x.origin))
    (hcount : s'.count = s.count) :
    Activity d s a s'
      (((attempts (d.config v) (s.gateway v) (rxOfMessage m x.data) now).filter fits).map
        (⟨.gateway v, ·, relayHop x.data.origin, x.origin⟩))
      ([rxOfMessage m x.data].flatMap fun rx =>
        (relayMessages (d.config v) (s.gateway v) rx now).map fun msg =>
          ⟨traceKey msg, msg.timestamp, .gateway v, relayHop rx.origin, x.origin⟩) := by
  by_cases hnil : relayMessages (d.config v) (s.gateway v) (rxOfMessage m x.data) now = []
  · have hfew := payload_attempts (d.config v) (s.gateway v) (rxOfMessage m x.data) now
    rw [hnil, List.map_nil, List.map_eq_nil_iff] at hfew
    have hsilent : s.relays d x v = false := by
      rw [← Bool.not_eq_true, relays_iff hforeign]
      exact fun hsome => hsome hnil
    refine .silent ?_ hcount ?_ ?_
    · rw [htest, hsilent]
      rfl
    · simp [hnil]
    · simp [hfew]
  · refine .relay v x hx ?_ hcount ?_ ?_ ?_
    · rw [htest, (relays_iff hforeign).mpr hnil]
      rfl
    · simpa using hnil
    · intro r hr
      obtain ⟨rx, -, hr⟩ := List.mem_flatMap.mp hr
      obtain ⟨msg, -, rfl⟩ := List.mem_map.mp hr
      exact ⟨rfl, rfl⟩
    · intro y hy
      obtain ⟨f, -, rfl⟩ := List.mem_map.mp hy
      rfl

/-- A gateway is handed a frame. -/
theorem adds_gateway (h : Invariant d group s) {x : Sent V} {i : ℕ} (hi : s.frames[i]? = some x)
    {v : V} (hreach : reaches d x.item (.gateway v) = true) (recvTime : UInt64) (now : ℕ → UInt64)
    (stray : ℤ → ℤ) :
    ∃ fs rs qs, Adds d group s (.receive i (.gateway v) recvTime now stray)
      (arrive d s x recvTime { now, stray } (.gateway v)) fs rs qs := by
  have hx := List.mem_of_getElem? hi
  obtain ⟨hok, hlogged⟩ := h.frames x hx
  obtain ⟨m, hp, hm, hkey⟩ := hok.message
  obtain ⟨hh, haddress, hgroup, hobs, -⟩ := id (h.gateways v)
  have hbroadcast : (s.gateway v).proto.address ≠ Address.BROADCAST := haddress ▸ d.individual v
  obtain ⟨effects, heq, hout⟩ :=
    gatewayReceive_data { now, stray } (d.config v) hh hobs hbroadcast hp hm
  have hmgroup : m.groupId = group := congrArg TraceKey.group hkey
  have hsame : ¬ (m.groupId.toNat : ℤ) ≠ (s.gateway v).proto.currentGroupId := by
    rw [hmgroup, hgroup]
    simp
  have hready := gatewayReady_update h.gateways (h.gateways v)
  have htest : keepsApart d s (.receive i (.gateway v) recvTime now stray) =
      (!s.relays d x v || s.unmistakable v x.origin) := by
    simp only [keepsApart, hi]
  simp only [arrive, heq]
  by_cases hown : x.data.origin = .ethernet ∧ x.data.src.mac = (s.gateway v).proto.address
  · rw [if_pos (Or.inl hown)] at hout
    obtain ⟨hrx, hframes⟩ := Prod.mk.inj hout
    have hsilent : s.relays d x v = false := by
      rw [haddress] at hown
      simp [State.relays, hown.1, hown.2]
    refine ⟨[], [], [], adds_nothing hready h.components ?_ ?_ ?_ rfl ?_⟩
    · simp [hframes]
    · simp [hrx]
    · simp [hrx]
    · rw [htest, hsilent]
      rfl
  · rw [if_neg (not_or.mpr ⟨hown, hsame⟩)] at hout
    obtain ⟨hrx, hframes⟩ := Prod.mk.inj hout
    rw [haddress] at hown
    have hlines : ∀ msg ∈ relayMessages (d.config v) (s.gateway v) (rxOfMessage m x.data) now,
        traceKey msg = keyOf d group (.gateway v) x.origin := by
      intro msg hmsg
      obtain ⟨time, rfl⟩ := mem_relayMessages hmsg
      exact traceKey_relayed (h.gateways v) hkey time
    have hhop := (hok.hop_of_relay hreach hown).1
    have hattempts := payload_attempts (d.config v) (s.gateway v) (rxOfMessage m x.data) now
    refine ⟨_, _, _, hready, h.components, rfl, rfl, rfl, ?_, ?_, ?_, ?_⟩
    · intro y hy
      obtain ⟨f, hf, rfl⟩ := List.mem_map.mp hy
      rw [hframes] at hf
      have hattempt := (List.mem_filter.mp hf).1
      refine ⟨hok.attempt hreach hown (h.gateways v) hm hkey rfl hattempt, ?_⟩
      -- the frame is one of those tried, so its message has a line
      have hmsg := hattempts ▸
        List.mem_map_of_mem (f := fun f : AsyncCapsule => f.payload) hattempt
      obtain ⟨msg, hmsg, -⟩ := List.mem_map.mp hmsg
      rw [hrx]
      exact ⟨_, List.mem_flatMap.mpr ⟨_, List.mem_singleton_self _, List.mem_map_of_mem hmsg⟩,
        hlines msg hmsg, rfl, rfl⟩
    · intro r hr
      rw [hrx] at hr
      obtain ⟨rx, hmem, hr⟩ := List.mem_flatMap.mp hr
      obtain rfl := List.mem_singleton.mp hmem
      obtain ⟨msg, hmsg, rfl⟩ := List.mem_map.mp hr
      exact ⟨hlines msg hmsg, hhop, fun w port hnode => by cases hnode⟩
    · rw [hrx]
      exact logged_receptions hkey hlogged _ _
    · rw [hrx, hframes]
      exact activity_relay hx hown htest rfl

theorem bump_zero (v : V) (port : UInt16) : s.bump v port 0 = s.count := by
  simp [State.bump]

omit [DecidableEq V] in
/-- A component that is handed a data message makes a call exactly if it is the brake, which
the message is for, and the message is an alarm. -/
theorem calls_eq {x : Sent V} {m : Message} (hp : x.data.payload = buildMessage m)
    (port : UInt16) :
    x.calls port = decide (port = x.data.dst.port ∧ port = BRAKE_PORT ∧
      isAlarm (trim m.body) = true) := by
  rw [Sent.calls, rxOf_onPacket hp, if_pos rfl]
  by_cases hbrake : port = BRAKE_PORT <;> by_cases hdst : port = x.data.dst.port <;>
    simp [hbrake, hdst, rxOfMessage]

/-- A component is handed a frame. -/
theorem adds_component (h : Invariant d group s) {x : Sent V} {i : ℕ}
    (hi : s.frames[i]? = some x) {v : V} {port : UInt16}
    (hreach : reaches d x.item (.component v port) = true) (recvTime : UInt64) (now : ℕ → UInt64)
    (stray : ℤ → ℤ) :
    ∃ fs rs qs, Adds d group s
      (.receive i (.component v port) recvTime now stray)
      (arrive d s x recvTime { now, stray } (.component v port)) fs rs qs := by
  obtain ⟨hok, hlogged⟩ := h.frames x (List.mem_of_getElem? hi)
  obtain ⟨m, hp, hm, hkey⟩ := hok.message
  have hready := h.components v port
  have hport := hok.frameOk.port_of_reaches hreach
  have hgroup : (m.groupId.toNat : ℤ) = (s.component v port).currentGroupId := by
    have hmgroup : m.groupId = group := congrArg TraceKey.group hkey
    rw [hmgroup, hready.2.1]
  obtain ⟨effects, heq, hout⟩ := componentReceive_data { now, stray } (s.nextId v port)
    (ne_anyPort_of_mem hport) hready.2.2 hp hm
  have hupdated := componentReady_update h.components hready
  have htest : keepsApart d s (.receive i (.component v port) recvTime now stray) =
      (!decide (port = x.data.dst.port ∧ port = BRAKE_PORT ∧ isAlarm (trim m.body) = true) ||
        s.countable v port) := by
    simp only [keepsApart, hi, calls_eq hp]
  simp only [arrive, heq]
  by_cases hdst : port = x.data.dst.port
  · rw [if_pos ⟨hgroup, hdst⟩] at hout
    obtain ⟨hrx, hframes⟩ := Prod.mk.inj hout
    have hreceived := logged_receptions hkey hlogged (.component v port) recvTime
    by_cases halarm : port = BRAKE_PORT ∧ isAlarm (trim m.body) = true
    · have hfilter : ((rxs effects).filter fun rx => port = BRAKE_PORT && isAlarm rx.msg.body) =
          [rxOfMessage m x.data] := by
        simp [hrx, rxOfMessage, halarm.1, halarm.2]
      rw [if_pos halarm] at hframes
      refine ⟨[⟨.component v port, acknowledgement (s.component v port) port (s.nextId v port)
        (now 0), .component, s.nextCall v port⟩], [s.callLine v port (now 0)], _, h.gateways,
        hupdated, by simp [hframes], by simp [hfilter], by simp only [hrx], ?_, ?_, hreceived,
        .call v port (now 0) ?_ (by simp [hfilter]) rfl ?_⟩
      · intro y hy
        obtain rfl := List.mem_singleton.mp hy
        exact ⟨sentOk_call hready rfl, _, List.mem_singleton_self _, sendKey_eq hready, rfl, rfl⟩
      · intro r hr
        rw [List.mem_singleton.mp hr]
        exact lineOk_callLine hready hport _
      · rw [htest, decide_eq_true ⟨hdst, halarm⟩]
        rfl
      · intro y hy
        rw [List.mem_singleton.mp hy]
    · have hfilter : ((rxs effects).filter fun rx => port = BRAKE_PORT && isAlarm rx.msg.body) =
          [] := by
        simpa [hrx, rxOfMessage] using halarm
      rw [if_neg halarm] at hframes
      refine ⟨[], [], _, h.gateways, hupdated, by simp [hframes], by simp [hfilter],
        by simp only [hrx], by simp, by simp, hreceived,
        .silent ?_ (by simp [hfilter, bump_zero]) rfl rfl⟩
      rw [htest, decide_eq_false fun hc => halarm hc.2]
      rfl
  · rw [if_neg fun hc => hdst hc.2] at hout
    obtain ⟨hrx, hframes⟩ := Prod.mk.inj hout
    refine ⟨[], [], [], adds_nothing h.gateways hupdated ?_ ?_ ?_ ?_ ?_⟩
    · simp [hframes]
    · simp [hrx]
    · simp [hrx]
    · simp [hrx, bump_zero]
    · rw [htest, decide_eq_false fun hc => hdst hc.1]
      rfl

/-- What a step of the run adds to traffic and logs. -/
theorem step_adds (h : Invariant d group s) (hs : step d group s a = some s') :
    ∃ fs rs qs, Adds d group s a s' fs rs qs := by
  cases a with
  | send v port text time =>
    simp only [step] at hs
    split at hs
    · rename_i hprocess
      split at hs
      · cases hs
      · rename_i effects heq
        cases hs
        have hready := h.components v port
        have hport := (port_of_mem_processes (of_decide_eq_true hprocess)).1
        refine ⟨_, _, [], h.gateways, h.components, rfl, rfl, (List.append_nil _).symm, ?_, ?_,
          by simp, .call v port time rfl rfl rfl ?_⟩
        · intro y hy
          obtain ⟨f, hf, rfl⟩ := List.mem_map.mp hy
          obtain ⟨dst, data, hf⟩ := mem_emitted_sendLocal heq hf
          exact ⟨sentOk_call hready hf, _, List.mem_singleton_self _, sendKey_eq hready, rfl, rfl⟩
        · intro r hr
          rw [List.mem_singleton.mp hr]
          exact lineOk_callLine hready hport time
        · intro y hy
          obtain ⟨f, -, rfl⟩ := List.mem_map.mp hy
          rfl
    · cases hs
  | receive i n recvTime now stray =>
    simp only [step] at hs
    split at hs
    · cases hs
    · rename_i x hx
      rw [Option.ite_none_right_eq_some] at hs
      obtain ⟨hreach, hs⟩ := hs
      cases hs
      cases n with
      | gateway v => exact adds_gateway h hx hreach recvTime now stray
      | component v port => exact adds_component h hx hreach recvTime now stray
  | changeGateway v g =>
    simp only [step, Option.ite_none_right_eq_some] at hs
    obtain ⟨hg, hs⟩ := hs
    cases hs
    exact ⟨[], [], [], adds_nothing (gatewayReady_update h.gateways hg) h.components rfl rfl rfl
      rfl rfl⟩
  | changeComponent v port p =>
    simp only [step, Option.ite_none_right_eq_some] at hs
    obtain ⟨hp, hs⟩ := hs
    cases hs
    exact ⟨[], [], [], adds_nothing h.gateways (componentReady_update h.components hp) rfl rfl
      rfl rfl rfl⟩

theorem invariant_of_reachable {s₀ : State V} (h₀ : Started d group s₀)
    (h : Reachable (step d group) s₀ s) : Invariant d group s := by
  obtain ⟨hframes, hsends, hrecvs⟩ := h₀.silent
  refine h.invariant (Invariant d group) ⟨h₀.gateways, h₀.components, ?_, ?_, ?_⟩ ?_
  · simp [hframes]
  · simp [hsends]
  · simp [hrecvs]
  · intro t a u hinv _ hu
    obtain ⟨fs, rs, qs, hadds⟩ := step_adds hinv hu
    exact hadds.invariant hinv

end Steps

/-! ## The calls behind the lines -/

section Ledger

variable {d group} {s s' : State V} {a : Action V}

/-- The call has been made. -/
def State.made (s : State V) (o : Origin V) : Prop := o.number < s.count o.vm o.port

/-- Lines and frames are about calls that have been made, and every call has a line of its
component. -/
structure Ledger (s : State V) : Prop where
  lines : ∀ r ∈ s.sends, s.made r.origin
  frames : ∀ x ∈ s.frames, s.made x.origin
  own : ∀ r ∈ s.sends, ∀ v port, r.node = .component v port →
    r.origin.vm = v ∧ r.origin.port = port
  calls : ∀ o, s.made o → ∃ r ∈ s.sends, r.node = .component o.vm o.port ∧ r.origin = o

theorem bump_one (v w : V) (port q : UInt16) : s.bump v port 1 w q =
    if w = v ∧ q = port then s.count v port + 1 else s.count w q := by
  unfold State.bump
  by_cases hw : w = v
  · subst hw
    by_cases hq : q = port
    · subst hq
      simp
    · simp [hq]
  · simp [hw]

theorem made_bump {v : V} {port : UInt16} (hcount : s'.count = s.bump v port 1) (o : Origin V) :
    s'.made o ↔ s.made o ∨ o = s.nextCall v port := by
  obtain ⟨w, q, k⟩ := o
  simp only [State.made, State.nextCall, hcount, bump_one, Origin.mk.injEq]
  split
  · rename_i heq
    obtain ⟨rfl, rfl⟩ := heq
    simp only [true_and]
    omega
  · rename_i hne
    have hno : ¬ (w = v ∧ q = port ∧ k = s.count v port) := fun hc => hne ⟨hc.1, hc.2.1⟩
    simp [hno]

omit [DecidableEq V] in
theorem made_congr (hcount : s'.count = s.count) (o : Origin V) : s'.made o ↔ s.made o := by
  rw [State.made, State.made, hcount]

theorem Ledger.step {fs : List (Sent V)} {rs qs : List (Line V)} (h : Ledger s)
    (hadds : Adds d group s a s' fs rs qs) : Ledger s' := by
  have hlift : ∀ {o : Origin V}, (∃ r ∈ s.sends, r.node = .component o.vm o.port ∧ r.origin = o) →
      ∃ r ∈ s'.sends, r.node = .component o.vm o.port ∧ r.origin = o := by
    rintro o ⟨r, hr, hrest⟩
    exact ⟨r, hadds.sends ▸ List.mem_append_left _ hr, hrest⟩
  rcases hadds.activity with ⟨v, port, time, -, hcount, rfl, hfs⟩ |
    ⟨v, x, hx, -, hcount, -, hrs, hfs⟩ | ⟨-, hcount, rfl, rfl⟩
  · have hmade := made_bump hcount
    refine ⟨?_, ?_, ?_, fun o ho => ?_⟩
    · rw [hadds.sends, List.forall_mem_append, List.forall_mem_singleton]
      exact ⟨fun r hr => (hmade _).mpr (Or.inl (h.lines r hr)), (hmade _).mpr (Or.inr rfl)⟩
    · rw [hadds.frames, List.forall_mem_append]
      exact ⟨fun x hx => (hmade _).mpr (Or.inl (h.frames x hx)),
        fun x hx => (hmade _).mpr (Or.inr (hfs x hx))⟩
    · rw [hadds.sends, List.forall_mem_append, List.forall_mem_singleton]
      refine ⟨h.own, fun v port hnode => ?_⟩
      cases hnode
      exact ⟨rfl, rfl⟩
    · rcases (hmade o).mp ho with ho | rfl
      · exact hlift (h.calls o ho)
      · refine ⟨_, hadds.sends ▸ List.mem_append_right _ (List.mem_singleton_self _), rfl, rfl⟩
  · have hmade := made_congr hcount
    refine ⟨?_, ?_, ?_, fun o ho => hlift (h.calls o ((hmade o).mp ho))⟩
    · rw [hadds.sends, List.forall_mem_append]
      refine ⟨fun r hr => (hmade _).mpr (h.lines r hr), fun r hr => (hmade _).mpr ?_⟩
      rw [(hrs r hr).2]
      exact h.frames _ hx
    · rw [hadds.frames, List.forall_mem_append]
      refine ⟨fun x hx => (hmade _).mpr (h.frames x hx), fun y hy => (hmade _).mpr ?_⟩
      rw [hfs y hy]
      exact h.frames _ hx
    · rw [hadds.sends, List.forall_mem_append]
      refine ⟨h.own, fun r hr v port hnode => ?_⟩
      cases (hrs r hr).1.symm.trans hnode
  · have hmade := made_congr hcount
    have hsends : s'.sends = s.sends := hadds.sends.trans (List.append_nil _)
    have hframes : s'.frames = s.frames := hadds.frames.trans (List.append_nil _)
    refine ⟨?_, ?_, hsends ▸ h.own, fun o ho => hlift (h.calls o ((hmade o).mp ho))⟩
    · rw [hsends]
      exact fun r hr => (hmade _).mpr (h.lines r hr)
    · rw [hframes]
      exact fun x hx => (hmade _).mpr (h.frames x hx)

theorem ledger_of_reachable {s₀ : State V} (h₀ : Started d group s₀)
    (h : Reachable (step d group) s₀ s) : Ledger s := by
  obtain ⟨hframes, hsends, -⟩ := h₀.silent
  refine h.invariant_of (Invariant d group) Ledger (fun _ ht => invariant_of_reachable h₀ ht)
    ⟨?_, ?_, ?_, ?_⟩ ?_
  · simp [hsends]
  · simp [hframes]
  · simp [hsends]
  · intro o ho
    rw [State.made, h₀.uncounted] at ho
    exact absurd ho (Nat.not_lt_zero _)
  · intro t a u hinv hledger _ hu
    obtain ⟨fs, rs, qs, hadds⟩ := step_adds hinv hu
    exact hledger.step hadds

/-- No counter has started again, and what a gateway has passed on from the same port and
with the same number is from the same car. -/
structure Distinct (s : State V) : Prop where
  counted : ∀ v port, s.count v port ≤ 2 ^ 64
  passed : ∀ v, ∀ o ∈ s.passedOn v, s.unmistakable v o = true

theorem mem_passedOn {v : V} {o : Origin V} :
    o ∈ s.passedOn v ↔ ∃ r ∈ s.sends, r.node = .gateway v ∧ r.origin = o := by
  simp [State.passedOn, and_assoc]

theorem unmistakable_iff {v : V} {o : Origin V} : s.unmistakable v o = true ↔
    ∀ o' ∈ s.passedOn v, o'.port = o.port → o'.number = o.number → o'.vm = o.vm := by
  simp only [State.unmistakable, List.all_eq_true, decide_eq_true_iff]

/-- A step that neither counts nor passes on anything. -/
theorem distinct_congr (hcount : s'.count = s.count)
    (hpassed : ∀ w, s'.passedOn w = s.passedOn w) : Distinct s' ↔ Distinct s := by
  have hpass (w : V) (o : Origin V) : s'.unmistakable w o = s.unmistakable w o := by
    rw [State.unmistakable, State.unmistakable, hpassed]
  constructor
  · rintro ⟨hcounted, hold⟩
    refine ⟨hcount ▸ hcounted, fun w o ho => ?_⟩
    rw [← hpass]
    exact hold w o ((hpassed w).symm ▸ ho)
  · rintro ⟨hcounted, hold⟩
    refine ⟨hcount ▸ hcounted, fun w o ho => ?_⟩
    rw [hpass]
    exact hold w o (hpassed w ▸ ho)

/-- The counters are in range after a call exactly if they were and the call is countable. -/
theorem counted_bump {v : V} {port : UInt16} :
    (∀ w q, s.bump v port 1 w q ≤ 2 ^ 64) ↔
      (∀ w q, s.count w q ≤ 2 ^ 64) ∧ s.countable v port = true := by
  simp only [bump_one, State.countable, decide_eq_true_iff]
  constructor
  · intro h
    have hlast := h v port
    rw [if_pos ⟨rfl, rfl⟩] at hlast
    refine ⟨fun w q => ?_, hlast⟩
    by_cases heq : w = v ∧ q = port
    · rw [heq.1, heq.2]
      omega
    · have := h w q
      rwa [if_neg heq] at this
  · rintro ⟨h, hlast⟩ w q
    split
    · exact hlast
    · exact h w q

/-- All are alike after one more exactly if they were and the new one is like each of them. -/
theorem forall_alike_insert {α : Type} {P P' : α → Prop} {R : α → α → Prop} {c : α}
    (hrefl : ∀ x, R x x) (hsymm : ∀ x y, R x y → R y x) (hmem : ∀ x, P' x ↔ P x ∨ x = c) :
    (∀ x, P' x → ∀ y, P' y → R y x) ↔ (∀ x, P x → ∀ y, P y → R y x) ∧ ∀ y, P y → R y c := by
  simp only [hmem]
  constructor
  · intro h
    exact ⟨fun x hx y hy => h x (Or.inl hx) y (Or.inl hy),
      fun y hy => h c (Or.inr rfl) y (Or.inl hy)⟩
  · rintro ⟨h, hnew⟩ x hx y hy
    rcases hx with hx | rfl
    · rcases hy with hy | rfl
      · exact h x hx y hy
      · exact hsymm _ _ (hnew x hx)
    · rcases hy with hy | rfl
      · exact hnew y hy
      · exact hrefl y

/-- A gateway passes on a call: what it has passed on stays unmistakable exactly if the call
is. -/
theorem passed_relay {v : V} {o₀ : Origin V}
    (hmem : ∀ o, o ∈ s'.passedOn v ↔ o ∈ s.passedOn v ∨ o = o₀) :
    (∀ o ∈ s'.passedOn v, s'.unmistakable v o = true) ↔
      (∀ o ∈ s.passedOn v, s.unmistakable v o = true) ∧ s.unmistakable v o₀ = true := by
  simp only [unmistakable_iff]
  exact forall_alike_insert (fun _ _ _ => rfl)
    (fun _ _ h hport hnumber => (h hport.symm hnumber.symm).symm) hmem

/-- A step keeps the calls distinct exactly if it passes the test. -/
theorem Adds.distinct_iff {fs : List (Sent V)} {rs qs : List (Line V)}
    (hadds : Adds d group s a s' fs rs qs) :
    Distinct s' ↔ Distinct s ∧ keepsApart d s a = true := by
  have hpassed (w : V) : s'.passedOn w =
      s.passedOn w ++ (rs.filter fun r => r.node = .gateway w).map (·.origin) := by
    rw [State.passedOn, hadds.sends, List.filter_append, List.map_append]
    rfl
  have hkept (w : V) (hnew : (rs.filter fun r => r.node = .gateway w) = []) :
      s'.passedOn w = s.passedOn w := by
    rw [hpassed, hnew, List.map_nil, List.append_nil]
  rcases hadds.activity with ⟨v, port, time, htest, hcount, rfl, -⟩ |
    ⟨v, x, -, htest, hcount, hsome, hrs, -⟩ | ⟨htest, hcount, rfl, -⟩
  · have hsame (w : V) := hkept w rfl
    have hbefore : Distinct { s' with count := s.count } ↔ Distinct s :=
      distinct_congr rfl hsame
    rw [htest, ← hbefore]
    constructor
    · rintro ⟨hcounted, hold⟩
      rw [hcount, counted_bump] at hcounted
      exact ⟨⟨hcounted.1, hold⟩, hcounted.2⟩
    · rintro ⟨⟨hcounted, hold⟩, hnext⟩
      exact ⟨hcount ▸ counted_bump.mpr ⟨hcounted, hnext⟩, hold⟩
  · have hother (w : V) (hw : w ≠ v) : s'.passedOn w = s.passedOn w := by
      refine hkept w (List.filter_eq_nil_iff.mpr fun r hr hnode => ?_)
      rw [(hrs r hr).1, decide_eq_true_iff] at hnode
      exact hw (Node.gateway.inj hnode).symm
    have hmem (o : Origin V) : o ∈ s'.passedOn v ↔ o ∈ s.passedOn v ∨ o = x.origin := by
      rw [hpassed, List.mem_append]
      refine or_congr_right ?_
      have hall : (rs.filter fun r => r.node = .gateway v) = rs :=
        List.filter_eq_self.mpr fun r hr => decide_eq_true (hrs r hr).1
      rw [hall, List.mem_map]
      constructor
      · rintro ⟨r, hr, rfl⟩
        exact (hrs r hr).2
      · rintro rfl
        obtain ⟨r, hr⟩ := List.exists_mem_of_ne_nil rs hsome
        exact ⟨r, hr, (hrs r hr).2⟩
    have hrelay := passed_relay hmem
    have hpass (w : V) (hw : w ≠ v) (o : Origin V) : s'.unmistakable w o = s.unmistakable w o := by
      rw [State.unmistakable, State.unmistakable, hother w hw]
    rw [htest]
    constructor
    · rintro ⟨hcounted, hold⟩
      obtain ⟨hbefore, hnew⟩ := hrelay.mp (hold v)
      refine ⟨⟨hcount ▸ hcounted, fun w o ho => ?_⟩, hnew⟩
      by_cases hw : w = v
      · subst hw
        exact hbefore o ho
      · rw [← hpass w hw]
        exact hold w o ((hother w hw).symm ▸ ho)
    · rintro ⟨⟨hcounted, hold⟩, hnew⟩
      refine ⟨hcount ▸ hcounted, fun w o ho => ?_⟩
      by_cases hw : w = v
      · subst hw
        exact hrelay.mpr ⟨hold w, hnew⟩ o ho
      · rw [hpass w hw]
        exact hold w o (hother w hw ▸ ho)
  · rw [htest, distinct_congr hcount fun w => hkept w rfl]
    exact (and_iff_left rfl).symm

/-- The calls of a run are distinct exactly if each of its steps has passed the test. -/
theorem distinct_iff_reaches {s₀ : State V} (h₀ : Started d group s₀)
    (h : Reachable (step d group) s₀ s) :
    Distinct s ↔ Reaches (step d group) (fun s a => keepsApart d s a = true) s₀ s := by
  obtain ⟨-, hsends, -⟩ := h₀.silent
  have hstart : Distinct s₀ := by
    refine ⟨fun v port => ?_, fun v o ho => ?_⟩
    · rw [h₀.uncounted]
      exact Nat.zero_le _
    · rw [State.passedOn, hsends] at ho
      cases ho
  constructor
  · induction h with
    | refl => exact fun _ => .refl
    | tail hr _ hu ih =>
      intro hdistinct
      obtain ⟨fs, rs, qs, hadds⟩ := step_adds (invariant_of_reachable h₀ hr) hu
      obtain ⟨hbefore, htest⟩ := hadds.distinct_iff.mp hdistinct
      exact (ih hbefore).tail htest hu
  · intro hr
    refine hr.invariant_of (Invariant d group) Distinct
      (fun _ ht => invariant_of_reachable h₀ ht.reachable) hstart ?_
    intro t a u hinv hbefore htest hu
    obtain ⟨fs, rs, qs, hadds⟩ := step_adds hinv hu
    exact hadds.distinct_iff.mpr ⟨hbefore, htest⟩

end Ledger

/-! ## Identity -/

section Identity

variable {d group} {s : State V}

/-- A key tells which process has logged it, if the vehicles have different ids. -/
theorem node_of_key (hdistinct : ∀ v w, (d.mac v).lastOctet = (d.mac w).lastOctet → v = w)
    {r r' : Line V} (hr : LineOk d group r) (hr' : LineOk d group r') (hkey : r.key = r'.key) :
    r.node = r'.node := by
  have hgateway : GATEWAY_PORT ∉ componentPorts := by decide
  rw [hr.key, hr'.key] at hkey
  have hvm : r.node.vm = r'.node.vm := hdistinct _ _ (congrArg TraceKey.vm hkey)
  have hport : processPort r.node = processPort r'.node := congrArg TraceKey.port hkey
  cases hn : r.node with
  | gateway v =>
    cases hn' : r'.node with
    | gateway w =>
      rw [hn, hn'] at hvm
      exact congrArg Node.gateway hvm
    | component w port =>
      rw [hn, hn', processPort, processPort] at hport
      exact (hgateway (hport ▸ hr'.port w port hn')).elim
  | component v port =>
    cases hn' : r'.node with
    | gateway w =>
      rw [hn, hn', processPort, processPort] at hport
      exact (hgateway (hport ▸ hr.port v port hn)).elim
    | component w port' =>
      rw [hn, hn'] at hvm hport
      exact congrArg₂ Node.component hvm hport

theorem int32_ofInt_port_inj {p q : UInt16} (h : Int32.ofInt p.toNat = Int32.ofInt q.toNat) :
    p = q := by
  have hp := UInt16.toNat_lt p
  have hq := UInt16.toNat_lt q
  have hvalue := congrArg Int32.toInt h
  rw [Int32.toInt_ofInt_of_le (by omega) (by omega), Int32.toInt_ofInt_of_le (by omega) (by omega)]
    at hvalue
  exact UInt16.toNat_inj.mp (by omega)

theorem uint64_ofNat_inj {m n : ℕ} (hm : m < 2 ^ 64) (hn : n < 2 ^ 64)
    (h : UInt64.ofNat m = UInt64.ofNat n) : m = n := by
  have hvalue := congrArg UInt64.toNat h
  rwa [UInt64.toNat_ofNat_of_lt' hm, UInt64.toNat_ofNat_of_lt' hn] at hvalue

/-- Lines of one process with the same type and id are about equally numbered calls from the
same port, as long as the counters have not started again. -/
theorem call_of_key (hcounted : ∀ v port, s.count v port ≤ 2 ^ 64) {o o' : Origin V}
    (ho : s.made o) (ho' : s.made o') {n : Node V}
    (hkey : keyOf d group n o = keyOf d group n o') : o.port = o'.port ∧ o.number = o'.number := by
  refine ⟨int32_ofInt_port_inj (congrArg TraceKey.type hkey), ?_⟩
  exact uint64_ofNat_inj (lt_of_lt_of_le ho (hcounted _ _)) (lt_of_lt_of_le ho' (hcounted _ _))
    (congrArg TraceKey.id hkey)

theorem Invariant.identity (h : Invariant d group s) (hl : Ledger s)
    (hdistinct : ∀ v w, (d.mac v).lastOctet = (d.mac w).lastOctet → v = w) (hs : Distinct s) :
    ∀ r ∈ s.sends, ∀ r' ∈ s.sends, r.key = r'.key → SameMessage r r' := by
  intro r hr r' hr' hkey
  have hnode := node_of_key hdistinct (h.sends r hr) (h.sends r' hr') hkey
  have horigin : r.origin = r'.origin := by
    rw [(h.sends r hr).key, (h.sends r' hr').key, hnode] at hkey
    obtain ⟨hport, hnumber⟩ :=
      call_of_key hs.counted (hl.lines r hr) (hl.lines r' hr') hkey
    have hvm : r.origin.vm = r'.origin.vm := by
      cases hn : r.node with
      | component v port =>
        rw [(hl.own r hr v port hn).1, (hl.own r' hr' v port (hnode ▸ hn)).1]
      | gateway v =>
        have hpassed := hs.passed v r'.origin (mem_passedOn.mpr ⟨r', hr', hnode ▸ hn, rfl⟩)
        exact unmistakable_iff.mp hpassed _ (mem_passedOn.mpr ⟨r, hr, hn, rfl⟩) hport hnumber
    cases ho : r.origin with
    | mk vm port number =>
      cases ho' : r'.origin with
      | mk vm' port' number' =>
        rw [ho, ho'] at hport hnumber hvm
        exact congr (congrArg₂ Origin.mk hvm hport) hnumber
  refine ⟨horigin, ?_⟩
  rw [(h.sends r hr).hop, (h.sends r' hr').hop, hnode, horigin]

/-- If lines with equal keys are about the same call, no counter has started again and no
gateway has passed on what it cannot tell apart. -/
theorem Invariant.distinct (h : Invariant d group s) (hl : Ledger s)
    (hidentity : ∀ r ∈ s.sends, ∀ r' ∈ s.sends, r.key = r'.key → SameMessage r r') :
    Distinct s := by
  have hsame : ∀ r ∈ s.sends, ∀ r' ∈ s.sends, r.node = r'.node → r.origin.port = r'.origin.port →
      UInt64.ofNat r.origin.number = UInt64.ofNat r'.origin.number → r.origin = r'.origin := by
    intro r hr r' hr' hnode hport hnumber
    refine (hidentity r hr r' hr' ?_).1
    rw [(h.sends r hr).key, (h.sends r' hr').key, keyOf, keyOf, hnode, hport, hnumber]
  refine ⟨fun v port => ?_, fun v o ho => ?_⟩
  · by_contra hmany
    -- the first call and the one with number `2 ^ 64` have the same id
    obtain ⟨r, hr, hnode, horigin⟩ := hl.calls ⟨v, port, 0⟩ (by simp only [State.made]; omega)
    obtain ⟨r', hr', hnode', horigin'⟩ :=
      hl.calls ⟨v, port, 2 ^ 64⟩ (by simp only [State.made]; omega)
    have hid : UInt64.ofNat 0 = UInt64.ofNat (2 ^ 64) := by decide
    have hcall := hsame r hr r' hr' (hnode.trans hnode'.symm) (by rw [horigin, horigin'])
      (by rw [horigin, horigin']; exact hid)
    rw [horigin, horigin', Origin.mk.injEq] at hcall
    exact absurd hcall.2.2 (by norm_num)
  · obtain ⟨r, hr, hnode, rfl⟩ := mem_passedOn.mp ho
    refine unmistakable_iff.mpr fun o' ho' hport hnumber => ?_
    obtain ⟨r', hr', hnode', rfl⟩ := mem_passedOn.mp ho'
    exact congrArg Origin.vm
      (hsame r' hr' r hr (hnode'.trans hnode.symm) hport (congrArg UInt64.ofNat hnumber))

omit [DecidableEq V] in
/-- The time that the latency tool takes is that of a line with the key. -/
theorem mem_sendTime {sends : List (Line V)} {q : Line V} {t : ℕ} (h : t ∈ sendTime sends q) :
    ∃ r ∈ lookup sends q.key, r.time.toNat = t := by
  have hmem := (List.mem_filter.mp (List.max?_mem (Option.mem_def.mp h))).1
  exact List.mem_map.mp hmem

/-- What the lines of the sends identify, the lines of the receptions are paired with. -/
theorem Invariant.traced (h : Invariant d group s)
    (hidentity : ∀ r ∈ s.sends, ∀ r' ∈ s.sends, r.key = r'.key → SameMessage r r') :
    Traced s := by
  have hpaired : ∀ q ∈ s.recvs, ∀ r ∈ lookup s.sends q.key, SameMessage r q := by
    intro q hq r hr
    obtain ⟨hr, hkey⟩ := List.mem_filter.mp hr
    obtain ⟨r', hr', hkey', hhop, horigin⟩ := h.recvs q hq
    obtain ⟨hsame, hsamehop⟩ :=
      hidentity r hr r' hr' ((of_decide_eq_true hkey).trans hkey'.symm)
    exact ⟨hsame.trans horigin, hsamehop.trans hhop⟩
  refine ⟨hidentity, fun q hq => ?_, hpaired, fun q hq t ht => ?_⟩
  · obtain ⟨r, hr, hkey, -⟩ := h.recvs q hq
    exact List.ne_nil_of_mem (List.mem_filter.mpr ⟨hr, decide_eq_true hkey⟩)
  · obtain ⟨r, hr, rfl⟩ := mem_sendTime ht
    obtain ⟨hmem, hkey⟩ := List.mem_filter.mp hr
    exact ⟨r, hmem, of_decide_eq_true hkey, rfl, hpaired q hq r hr⟩

/-- Distinct calls are enough for the latency tool. -/
theorem traced_of_distinct
    (hdistinct : ∀ v w, (d.mac v).lastOctet = (d.mac w).lastOctet → v = w) {s₀ : State V}
    (h₀ : Started d group s₀) (h : Reachable (step d group) s₀ s) (hs : Distinct s) : Traced s := by
  have hinv := invariant_of_reachable h₀ h
  exact hinv.traced (hinv.identity (ledger_of_reachable h₀ h) hdistinct hs)

/-- Log lines identify messages in exactly the states that are reached without a component
making more than `2 ^ 64` calls and without a gateway passing on equally numbered calls of
the same component of two cars. -/
theorem traced_iff (hdistinct : ∀ v w, (d.mac v).lastOctet = (d.mac w).lastOctet → v = w)
    {s₀ : State V} (h₀ : Started d group s₀) (h : Reachable (step d group) s₀ s) :
    Traced s ↔ Reaches (step d group) (fun s a => keepsApart d s a = true) s₀ s := by
  rw [← distinct_iff_reaches h₀ h]
  constructor
  · intro ht
    exact (invariant_of_reachable h₀ h).distinct (ledger_of_reachable h₀ h) ht.identity
  · exact traced_of_distinct hdistinct h₀ h

end Identity

/-! ## Two cars -/

/-- Two cars of group 0 that have not sent anything. -/
def quiet : State (Fin 2) :=
  ⟨runningGateway RelayOnce.twoCars, runningComponent RelayOnce.twoCars, fun _ _ => 0, [], [], []⟩

theorem started_quiet : Started RelayOnce.twoCars 0 quiet where
  gateways := (RelayOnce.started_quietCars RelayOnce.twoCars).gateways
  components := (RelayOnce.started_quietCars RelayOnce.twoCars).components
  uncounted := rfl
  silent := ⟨rfl, rfl, rfl⟩

def receiveAt (n : Node (Fin 2)) (i : ℕ) (time : ℕ) : Action (Fin 2) :=
  .receive i n (UInt64.ofNat time) (fun k => UInt64.ofNat (time + k)) (fun _ => 0)

/-- One powertrain sends one message, which reaches the powertrain of the other car. -/
theorem single_message_traced :
    ∃ s, Reachable (step RelayOnce.twoCars 0) quiet s ∧ s.sends.length = 4 ∧
      s.recvs.length = 3 ∧ Traced s := by
  have hrun : (runIf (keepsApart RelayOnce.twoCars) (step RelayOnce.twoCars 0) quiet
      [.send 0 POWERTRAIN_PORT (ascii "speed") 1, receiveAt (.gateway 0) 0 2,
        receiveAt (.gateway 1) 1 3, receiveAt (.component 1 POWERTRAIN_PORT) 2 4]).map
      (fun s => (s.sends.length, s.recvs.length)) = some (4, 3) := by
    decide +kernel
  obtain ⟨s, hs, hobs⟩ := exists_reaches_of_runIf
    (fun s a => keepsApart RelayOnce.twoCars s a = true) _ (fun _ _ _ htest => htest) hrun
  obtain ⟨hsends, hrecvs⟩ := Prod.mk.inj hobs
  have hreach := hs.reachable
  exact ⟨s, hreach, hsends, hrecvs, (traced_iff (by decide) started_quiet hreach).mpr hs⟩

/-- Both brakes send their first message. The second gateway forwards its own at 5 and fans out
the other one at 10 and 11, under the same key; when the first gateway receives what was sent
at 5, the latency tool takes it for sent at 11. -/
theorem first_messages_confused :
    ∃ s, Reachable (step RelayOnce.twoCars 0) quiet s ∧ ∃ r ∈ s.sends, ∃ r' ∈ s.sends,
      r.key = r'.key ∧ r.origin ≠ r'.origin ∧ r.hop ≠ r'.hop ∧ ∃ q ∈ s.recvs, q.key = r.key ∧
        SameMessage r q ∧ r.time = 5 ∧ r'.time = 11 ∧ sendTime s.sends q = some 11 := by
  have hrun : (run (step RelayOnce.twoCars 0) quiet [.send 0 BRAKE_PORT (ascii "brake!") 1,
      .send 1 BRAKE_PORT (ascii "brake!") 2, receiveAt (.gateway 0) 0 4, receiveAt (.gateway 1) 1 5,
      receiveAt (.gateway 1) 2 10, receiveAt (.gateway 0) 3 20]).map (fun s =>
        decide (∃ r ∈ s.sends, ∃ r' ∈ s.sends, r.key = r'.key ∧ r.origin ≠ r'.origin ∧
          r.hop ≠ r'.hop ∧ ∃ q ∈ s.recvs, q.key = r.key ∧ SameMessage r q ∧
            r.time = 5 ∧ r'.time = 11 ∧
            sendTime s.sends q = some 11)) = some true := by
    decide +kernel
  obtain ⟨s, hs, hobs⟩ := exists_reachable_of_run _ hrun
  exact ⟨s, hs, of_decide_eq_true hobs⟩

end CarNetwork.TraceIdentity
