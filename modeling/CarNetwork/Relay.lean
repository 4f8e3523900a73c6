import CarNetwork.CarGroups
import CarNetwork.Fleet
import CarNetwork.MessageSizes

/-!
# What one process does with a data message

A data message leaves the protocol state of its receiver alone. The gateway, which
listens on the wildcard port of both channels, gets it once, because each of its two
observers only takes its own channel, and passes it to the other channel. A component
gets it if it is addressed to its port, and only the brake answers, with an
acknowledgement to its gateway. The interface decides by the destination address which
channel a frame takes, and drops what comes back from the Ethernet with its own address.
-/
namespace CarNetwork.Relay

open CarNetwork.ByteText CarNetwork.Conversions CarNetwork.Ethernet CarNetwork.Protocol
open CarNetwork.Car CarNetwork.Fleet CarNetwork.Sizes

/-! ## Components -/

/-- The messages that the brake answers. -/
def isAlarm (body : Bytes) : Bool := body = ascii "brake!" || body = ascii "hazard!"

/-- `BrakeComponent::on_receive`. -/
def brakeOnReceive (p : Instance) (port : UInt16) (rx : Rx) (id time : UInt64) :
    Except CxxException (List Effect) :=
  if isAlarm rx.msg.body then sendLocal p port (ascii "ack-brake") id time else .ok []

/-- `on_receive` of the component at this port; that of the powertrain is empty. -/
def componentOnReceive (p : Instance) (port : UInt16) (rx : Rx) (id time : UInt64) :
    Except CxxException (List Effect) :=
  if port = BRAKE_PORT then brakeOnReceive p port rx id time else .ok []

def componentReact (p : Instance) (port : UInt16) (id : UInt64) (now : ℕ → UInt64) :
    Effect → Except CxxException (List Effect)
  | .onPacket po c => do
    match ← rxOfPacket po c with
    | none => return [.onPacket po c]
    | some rx => return .onPacket po c :: (← componentOnReceive p port rx id (now 0))
  | e => .ok [e]

/-- Reception by a component, given the next message id of its communicator. -/
def componentReceive (env : Env) (p : Instance) (port : UInt16) (id : UInt64) (c : AsyncCapsule) :
    Except CxxException (Instance × List Effect) := do
  let (p, effects) ← update env p c
  let reactions ← effects.mapM (componentReact p port id env.now)
  return (p, reactions.flatten)

/-! ## Interface -/

/-- `NIC::on_eth_frame` ignores frames with the own address; `NIC::on_shm_frame` takes all. -/
def gatewayReceive (env : Env) (cfg : Config) (g : Gateway) (c : AsyncCapsule) :
    Gateway × List Effect :=
  if c.origin = .ethernet ∧ c.src.mac = g.proto.address then (g, []) else g.deliver env cfg c

/-- `NIC::send` and the engines: the frame that an effect puts on a channel. -/
def emit (ethernetEngine : Bool) (mac : Address) : Effect → Option AsyncCapsule
  | .transmit _ src dst payload =>
    if dst.mac = mac then
      if payload.length ≤ SHM_LIMIT then some ⟨src, dst, .sharedMemory, payload⟩ else none
    else if ethernetEngine then some ⟨src, dst, .ethernet, payload⟩ else none
  | _ => none

def emitted (ethernetEngine : Bool) (mac : Address) (effects : List Effect) : List AsyncCapsule :=
  effects.filterMap (emit ethernetEngine mac)

/-- What the owner of the communicator is told. -/
def rxOf : Effect → Option Rx
  | .onPacket po c => (rxOfPacket po c).toOption.join
  | _ => none

def rxs (effects : List Effect) : List Rx := effects.filterMap rxOf

/-- The Rx of a data message. -/
def rxOfMessage (m : Message) (c : AsyncCapsule) : Rx :=
  ⟨{ m with body := trim m.body }, c.src, c.dst, c.origin⟩

/-! ## Attempts to send -/

/-- The frames that a gateway tries to send for an Rx. -/
def attempts (cfg : Config) (g : Gateway) (rx : Rx) (now : ℕ → UInt64) : List AsyncCapsule :=
  match rx.origin with
  | .sharedMemory => [⟨g.localEp, ⟨Address.BROADCAST, GATEWAY_PORT⟩, .ethernet,
      buildMessage (relayed g.proto GATEWAY_PORT cfg.vmId rx.msg (now 0))⟩]
  | .ethernet =>
    g.peerPorts.zipIdx.map fun (peer, i) => ⟨g.localEp, ⟨g.proto.address, peer⟩, .sharedMemory,
    buildMessage (relayed g.proto GATEWAY_PORT cfg.vmId rx.msg (now i))⟩

/-- The acknowledgement of the brake. -/
def acknowledgement (p : Instance) (port : UInt16) (id time : UInt64) : AsyncCapsule :=
  ⟨⟨p.address, port⟩, ⟨p.address, GATEWAY_PORT⟩, .sharedMemory, buildMessage (commMessage p
    ⟨p.address, port⟩ (Int32.ofInt port.toNat) (ascii "ack-brake") id time)⟩

/-- The frame is within the limit of its channel. -/
def fits (c : AsyncCapsule) : Bool :=
  match c.origin with
  | .sharedMemory => c.payload.length ≤ SHM_LIMIT
  | .ethernet => c.payload.length ≤ MTU

section Emit

variable {p : Instance} {localEp dst : Endpoint} {msg : Message} {engine : Bool} {mac : Address}

@[simp] theorem emitted_append (as bs : List Effect) :
    emitted engine mac (as ++ bs) = emitted engine mac as ++ emitted engine mac bs :=
  List.filterMap_append

@[simp] theorem emitted_onPacket (po : PortObserver) (c : AsyncCapsule) (effects : List Effect) :
    emitted engine mac (.onPacket po c :: effects) = emitted engine mac effects := rfl

@[simp] theorem rxs_append (as bs : List Effect) : rxs (as ++ bs) = rxs as ++ rxs bs :=
  List.filterMap_append

theorem rxs_sendMessage : rxs (sendMessage p localEp dst msg) = [] := by
  rw [sendMessage, send]
  split <;> rfl

theorem emitted_shm (hdst : dst.mac = p.address) :
    emitted engine p.address (sendMessage p localEp dst msg) =
      [⟨⟨p.address, localEp.port⟩, dst, .sharedMemory, buildMessage msg⟩].filter fits := by
  rw [sendMessage, send]
  by_cases hlen : (buildMessage msg).length ≤ SHM_LIMIT
  · rw [if_neg (by rw [SHM_LIMIT] at hlen; rw [MTU]; omega)]
    simp [emitted, emit, hdst, hlen, fits]
  · split <;> simp [emitted, emit, hdst, hlen, fits]

theorem emitted_ethernet (hdst : dst.mac ≠ p.address) :
    emitted true p.address (sendMessage p localEp dst msg) =
      [⟨⟨p.address, localEp.port⟩, dst, .ethernet, buildMessage msg⟩].filter fits := by
  rw [sendMessage, send]
  by_cases hlen : (buildMessage msg).length ≤ MTU
  · rw [if_neg (by omega)]
    simp [emitted, emit, hdst, hlen, fits]
  · rw [if_pos (by omega)]
    simp [emitted, hlen, fits]

/-- The interface puts a frame for the own machine on the shared memory, if it fits, and any
other one on the Ethernet, if it has an engine for it. -/
theorem channel_of_mem_emitted {effects : List Effect} {c : AsyncCapsule}
    (hc : c ∈ emitted engine mac effects) :
    c.origin = (if c.dst.mac = mac then .sharedMemory else .ethernet) ∧
      (c.origin = .sharedMemory → fits c = true) ∧ (c.origin = .ethernet → engine = true) := by
  obtain ⟨x, -, hemit⟩ := List.mem_filterMap.mp hc
  cases x with
  | transmit kind src dst payload =>
    rw [emit] at hemit
    split at hemit
    · rename_i hown
      split at hemit
      · rename_i hfits
        cases hemit
        exact ⟨(if_pos hown).symm, fun _ => decide_eq_true hfits, fun h => by cases h⟩
      · cases hemit
    · rename_i hforeign
      split at hemit
      · rename_i hengine
        cases hemit
        exact ⟨(if_neg hforeign).symm, fun h => (by cases h), fun _ => hengine⟩
      · cases hemit
  | _ => cases hemit

/-- The frames are those of the transport: a frame with a message that fits its channel is sent
by the layers below, and what they hand to the protocol of a receiver is that frame. -/
theorem transported {c : AsyncCapsule} (hp : c.payload = buildMessage msg) (hsrc : c.src.mac = mac)
    (horigin : c.origin = if c.dst.mac = mac then .sharedMemory else .ethernet)
    (hengine : c.origin = .ethernet → engine = true) (hfits : fits c = true) (etherType : UInt16)
    {sendto : Bytes → ℤ}
    (hkernel : ∀ packet : Bytes, packet.length ≤ Transport.ETH_FRAME_LEN → 0 ≤ sendto packet) :
    ∃ wire, (Transport.protocolSend ⟨mac, engine⟩ etherType sendto c.src c.dst c.payload).2 =
      some wire ∧
      ∀ receiver beyond, (c.origin = .ethernet → receiver ≠ mac) →
        (Transport.receive receiver etherType beyond wire).map (·.toAsyncCapsule) = some c := by
  obtain ⟨⟨srcMac, srcPort⟩, dst, origin, payload⟩ := c
  obtain rfl : payload = buildMessage msg := hp
  obtain rfl : srcMac = mac := hsrc
  dsimp only at horigin hengine
  have haccepted : accepted etherType sendto ⟨srcMac, engine⟩ ⟨srcMac, srcPort⟩ dst msg = true := by
    by_cases hown : dst.mac = srcMac
    · rw [if_pos hown] at horigin
      subst horigin
      exact (accepted_shm_iff hown).mpr (of_decide_eq_true hfits)
    · rw [if_neg hown] at horigin
      subst horigin
      exact accepted_ethernet hkernel hown (hengine rfl) (of_decide_eq_true hfits)
  obtain ⟨wire, hwire, hwireOrigin, hreceived⟩ :=
    Transport.protocolSend_ok (buildMessage_ne_nil msg) (of_decide_eq_true haccepted)
  refine ⟨wire, hwire, fun receiver beyond hreceiver => ?_⟩
  have hsame : wire.origin = origin := hwireOrigin.trans horigin.symm
  rw [hreceived receiver beyond fun heth => hreceiver (hsame.symm.trans heth), Option.map_some,
    hsame]

end Emit

section Reactions

variable {cfg : Config} {g : Gateway} {rx : Rx} {now : ℕ → UInt64}

theorem rxs_onReceive : rxs (g.onReceive cfg rx now) = [] := by
  unfold Gateway.onReceive
  split
  · exact rxs_sendMessage
  · unfold fanoutMessage
    induction g.peerPorts.zipIdx with
    | nil => rfl
    | cons x rest ih => rw [List.flatMap_cons, rxs_append, ih, rxs_sendMessage, List.append_nil]

/-- A gateway sends what it tries to send, as far as it fits. -/
theorem emitted_onReceive (haddress : g.proto.address ≠ Address.BROADCAST) :
    emitted true g.proto.address
      (g.onReceive cfg rx now) = (attempts cfg g rx now).filter fits := by
  unfold Gateway.onReceive attempts
  cases rx.origin with
  | sharedMemory => exact emitted_ethernet haddress.symm
  | ethernet =>
    dsimp only
    unfold fanoutMessage
    induction g.peerPorts.zipIdx with
    | nil => rfl
    | cons x rest ih =>
      rw [List.flatMap_cons, emitted_append, ih, emitted_shm rfl, List.map_cons,
        ← List.filter_append, List.singleton_append]
      rfl

theorem attempts_sharedMemory (ho : rx.origin = .sharedMemory) :
    attempts cfg g rx now = [⟨g.localEp, ⟨Address.BROADCAST, GATEWAY_PORT⟩, .ethernet,
      buildMessage (relayed g.proto GATEWAY_PORT cfg.vmId rx.msg (now 0))⟩] := by
  rw [attempts, ho]

/-- The frames of an attempt: a forward goes to the Ethernet, a fan-out to the peers on the
shared memory, and all of them carry the message on. -/
theorem mem_attempts {c : AsyncCapsule} (hc : c ∈ attempts cfg g rx now) :
    (∃ time, c.payload = buildMessage (relayed g.proto GATEWAY_PORT cfg.vmId rx.msg time)) ∧
      c.src = g.localEp ∧ (rx.origin = .sharedMemory ∧ c.origin = .ethernet ∧
        c.dst.mac = Address.BROADCAST ∨
        rx.origin = .ethernet ∧ c.origin = .sharedMemory ∧ c.dst.mac = g.proto.address) := by
  unfold attempts at hc
  cases ho : rx.origin with
  | sharedMemory =>
    rw [ho] at hc
    obtain rfl := List.mem_singleton.mp hc
    exact ⟨⟨_, rfl⟩, rfl, Or.inl ⟨rfl, rfl, rfl⟩⟩
  | ethernet =>
    rw [ho] at hc
    obtain ⟨x, -, rfl⟩ := List.mem_map.mp hc
    exact ⟨⟨_, rfl⟩, rfl, Or.inr ⟨rfl, rfl, rfl⟩⟩

end Reactions

/-! ## Receptions of data -/

section Receive

variable {env : Env} {p : Instance} {port : UInt16} {c : AsyncCapsule} {m : Message}

/-- A data message concerns a process that listens on this port. -/
def concerns (p : Instance) (port : UInt16) (m : Message) (c : AsyncCapsule) : Prop :=
  (m.groupId.toNat : ℤ) = p.currentGroupId ∧ (port = c.dst.port ∨ port = ANY_PORT)

instance : Decidable (concerns p port m c) := inferInstanceAs (Decidable (_ ∧ _))

/-- The observers that `set_up_port_observer` attaches. -/
def observers (port : UInt16) : List PortObserver := [⟨.ethernet, port⟩, ⟨.sharedMemory, port⟩]

/-- The protocol tells both observers of a data message that concerns them. -/
theorem update_observers (hobs : p.portObservers = observers port) (hp : c.payload = buildMessage m)
    (hm : m.control = .NONE) :
    update env p c = .ok (p, (if concerns p port m c then observers port
      else []).map (.onPacket · c)) := by
  rw [update_data hp hm]
  by_cases hg : (m.groupId.toNat : ℤ) = p.currentGroupId
  · by_cases hport : port = c.dst.port ∨ port = ANY_PORT <;>
      simp [forwardToObservers, hobs, observers, hm, hg, hport, concerns]
  · simp [forwardToObservers, hobs, observers, hm, hg, concerns]

theorem rxOfPacket_eq (hp : c.payload = buildMessage m) (po : PortObserver) :
    rxOfPacket po c = .ok (if po.origin = c.origin then some (rxOfMessage m c) else none) := by
  rw [rxOfPacket]
  by_cases ho : po.origin = c.origin
  · rw [if_neg (by simpa using ho), if_pos ho, hp, parse_build]
    rfl
  · rw [if_pos ho, if_neg ho]

theorem rxOf_onPacket (hp : c.payload = buildMessage m) (po : PortObserver) :
    rxOf (.onPacket po c) = if po.origin = c.origin then some (rxOfMessage m c) else none := by
  rw [rxOf, rxOfPacket_eq hp]
  split <;> rfl

/-- What an owner does about a packet that both observers are told of: one of them takes it. -/
def reactions (c : AsyncCapsule) (pos : List PortObserver) (answer : List Effect) : List Effect :=
  pos.flatMap fun po => .onPacket po c :: if po.origin = c.origin then answer else []

theorem reactions_eq (port : UInt16) (answer : List Effect) :
    reactions c (observers port) answer = match c.origin with
      | .ethernet =>
        .onPacket ⟨.ethernet, port⟩ c :: (answer ++ [.onPacket ⟨.sharedMemory, port⟩ c])
      | .sharedMemory =>
        .onPacket ⟨.ethernet, port⟩ c :: .onPacket ⟨.sharedMemory, port⟩ c :: answer := by
  cases ho : c.origin <;> simp [reactions, observers, ho]

theorem rxs_reactions (hp : c.payload = buildMessage m) {answer : List Effect}
    (hanswer : rxs answer = []) :
    rxs (reactions c (observers port) answer) = [rxOfMessage m c] := by
  have hcons (po : PortObserver) (rest : List Effect) : rxs (.onPacket po c :: rest) =
      (if po.origin = c.origin then [rxOfMessage m c] else []) ++ rxs rest := by
    by_cases ho : po.origin = c.origin <;> simp [rxs, rxOf_onPacket hp, ho]
  rw [reactions_eq]
  cases ho : c.origin with
  | ethernet =>
    dsimp only
    rw [hcons, rxs_append, hanswer, hcons, ho]
    rfl
  | sharedMemory =>
    dsimp only
    rw [hcons, hcons, hanswer, ho]
    rfl

theorem emitted_reactions {engine : Bool} {mac : Address} (answer : List Effect) :
    emitted engine mac (reactions c (observers port) answer) = emitted engine mac answer := by
  rw [reactions_eq]
  cases c.origin with
  | ethernet =>
    dsimp only
    rw [emitted_onPacket, emitted_append, emitted_onPacket]
    exact List.append_nil _
  | sharedMemory => rfl

theorem mapM_packets {f : Effect → Except CxxException (List Effect)} {answer : List Effect}
    (hf : ∀ po, f (.onPacket po c) =
      .ok (.onPacket po c :: if po.origin = c.origin then answer else []))
    (pos : List PortObserver) :
    ∃ rs, (pos.map (.onPacket · c)).mapM f = .ok rs ∧ rs.flatten = reactions c pos answer := by
  refine ⟨pos.map fun po => .onPacket po c :: if po.origin = c.origin then answer else [], ?_, ?_⟩
  · rw [List.mapM_map]
    exact Gateway.mapM_of_ok fun po _ => hf po
  · rw [← List.flatMap_def]
    rfl

/-! ### The gateway -/

section Gateway

variable {cfg : Config} {g : Gateway}

theorem deliver_packets {pos : List PortObserver} (hh : g.phase.hears = true)
    (hp : c.payload = buildMessage m)
    (hu : update env g.proto c = .ok (g.proto, pos.map (.onPacket · c))) :
    g.deliver env cfg c = (g, reactions c pos (g.onReceive cfg (rxOfMessage m c) env.now)) := by
  have hreact (po : PortObserver) : g.react cfg env.now (.onPacket po c) =
      .ok (.onPacket po c :: if po.origin = c.origin then
        g.onReceive cfg (rxOfMessage m c) env.now else []) := by
    rw [Gateway.react, rxOfPacket_eq hp]
    by_cases ho : po.origin = c.origin
    · rw [if_pos ho, if_pos ho]
      rfl
    · rw [if_neg ho, if_neg ho]
      rfl
  have hquiet : (pos.map (Effect.onPacket · c)).any g.releasedBy = false := by
    rw [List.any_eq_false]
    intro x hx
    obtain ⟨po, -, rfl⟩ := List.mem_map.mp hx
    simp [Gateway.releasedBy]
  obtain ⟨rs, hrs, hflat⟩ := mapM_packets hreact pos
  simp only [Gateway.deliver, hh, if_true, Gateway.receive, hu, bind, Except.bind, hrs, pure,
    Except.pure, hflat, hquiet, Bool.or_false]

/-- What a gateway does with a data message: it hears it once and tries to relay it, unless
the message is its own or from another group. -/
theorem gatewayReceive_data (env : Env) (cfg : Config) (hh : g.phase.hears = true)
    (hobs : g.proto.portObservers = observers ANY_PORT)
    (haddress : g.proto.address ≠ Address.BROADCAST) (hp : c.payload = buildMessage m)
    (hm : m.control = .NONE) :
    ∃ effects, gatewayReceive env cfg g c = (g, effects) ∧
      (rxs effects, emitted true g.proto.address effects) =
        if (c.origin = .ethernet ∧ c.src.mac = g.proto.address) ∨
            (m.groupId.toNat : ℤ) ≠ g.proto.currentGroupId then ([], [])
        else ([rxOfMessage m c], (attempts cfg g (rxOfMessage m c) env.now).filter fits) := by
  unfold gatewayReceive
  by_cases hown : c.origin = .ethernet ∧ c.src.mac = g.proto.address
  · rw [if_pos hown, if_pos (Or.inl hown)]
    exact ⟨[], rfl, rfl⟩
  rw [if_neg hown, deliver_packets hh hp (update_observers hobs hp hm)]
  refine ⟨_, rfl, ?_⟩
  by_cases hgroup : (m.groupId.toNat : ℤ) = g.proto.currentGroupId
  · have hconcerns : concerns g.proto ANY_PORT m c := ⟨hgroup, Or.inr rfl⟩
    have hheard : ¬ ((c.origin = .ethernet ∧ c.src.mac = g.proto.address) ∨
        (m.groupId.toNat : ℤ) ≠ g.proto.currentGroupId) := by simp [hown, hgroup]
    rw [if_pos hconcerns, if_neg hheard, rxs_reactions hp rxs_onReceive, emitted_reactions,
      emitted_onReceive haddress]
  · have hconcerns : ¬ concerns g.proto ANY_PORT m c := fun h => hgroup h.1
    rw [if_pos (Or.inr hgroup), if_neg hconcerns]
    rfl

end Gateway

/-! ### Components -/

theorem componentOnReceive_eq (rx : Rx) (id time : UInt64) :
    componentOnReceive p port rx id time =
      .ok (if port = BRAKE_PORT ∧ isAlarm rx.msg.body = true then
      sendMessage p ⟨p.address, port⟩ ⟨p.address, GATEWAY_PORT⟩ (commMessage p ⟨p.address, port⟩
        (Int32.ofInt port.toNat) (ascii "ack-brake") id time) else []) := by
  have hto : find (ascii "ack-brake") (ascii "TO=") 0 = none := by decide
  by_cases hport : port = BRAKE_PORT
  · by_cases halarm : isAlarm rx.msg.body = true
    · simp [componentOnReceive, brakeOnReceive, hport, halarm, sendLocal, localDestination, hto,
        bind, Except.bind, pure, Except.pure]
    · simp [componentOnReceive, brakeOnReceive, hport, halarm]
  · simp [componentOnReceive, hport]

/-- No component listens on the wildcard port. -/
theorem ne_anyPort_of_mem (hport : port ∈ componentPorts) : port ≠ ANY_PORT := by
  have hnot : ANY_PORT ∉ componentPorts := by decide
  exact fun h => hnot (h ▸ hport)

theorem fits_acknowledgement (id time : UInt64) : fits (acknowledgement p port id time) = true := by
  have hlen := length_buildMessage_le (commMessage p ⟨p.address, port⟩ (Int32.ofInt port.toNat)
    (ascii "ack-brake") id time)
  have hbody : (ascii "ack-brake").length = 9 := by decide
  have hlimit : (buildMessage (commMessage p ⟨p.address, port⟩ (Int32.ofInt port.toNat)
      (ascii "ack-brake") id time)).length ≤ SHM_LIMIT := by
    simp only [commMessage, hbody] at hlen
    rw [SHM_LIMIT]
    exact le_trans hlen (by norm_num)
  exact decide_eq_true hlimit

/-- What a component does with a data message: it hears it if it is from its group and for
its port, and the brake acknowledges an alarm. -/
theorem componentReceive_data (env : Env) (id : UInt64) (hport : port ≠ ANY_PORT)
    (hobs : p.portObservers = observers port) (hp : c.payload = buildMessage m)
    (hm : m.control = .NONE) :
    ∃ effects, componentReceive env p port id c = .ok (p, effects) ∧
      (rxs effects, emitted false p.address effects) =
        if (m.groupId.toNat : ℤ) = p.currentGroupId ∧ port = c.dst.port then
          ([rxOfMessage m c], if port = BRAKE_PORT ∧ isAlarm (trim m.body) = true then
            [acknowledgement p port id (env.now 0)] else [])
        else ([], []) := by
  let answer : List Effect := if port = BRAKE_PORT ∧ isAlarm (trim m.body) = true then
    sendMessage p ⟨p.address, port⟩ ⟨p.address, GATEWAY_PORT⟩ (commMessage p ⟨p.address, port⟩
      (Int32.ofInt port.toNat) (ascii "ack-brake") id (env.now 0)) else []
  have hreact (po : PortObserver) : componentReact p port id env.now (.onPacket po c) =
      .ok (.onPacket po c :: if po.origin = c.origin then answer else []) := by
    rw [componentReact, rxOfPacket_eq hp]
    by_cases ho : po.origin = c.origin
    · rw [if_pos ho, if_pos ho]
      simp only [bind, Except.bind, componentOnReceive_eq]
      rfl
    · rw [if_neg ho, if_neg ho]
      rfl
  have hanswer : rxs answer = [] := by
    unfold answer
    split
    · exact rxs_sendMessage
    · rfl
  have hemitted : emitted false p.address answer = if port = BRAKE_PORT ∧
      isAlarm (trim m.body) = true then
      [acknowledgement p port id (env.now 0)] else [] := by
    unfold answer
    split
    · rw [emitted_shm rfl]
      exact List.filter_eq_self.mpr fun x hx => List.mem_singleton.mp hx ▸ fits_acknowledgement _ _
    · rfl
  obtain ⟨rs, hrs, hflat⟩ :=
    mapM_packets hreact (if concerns p port m c then observers port else [])
  have hreceive : componentReceive env p port id c = .ok (p, rs.flatten) := by
    simp only [componentReceive, update_observers hobs hp hm, bind, Except.bind, hrs]
    rfl
  refine ⟨_, hreceive, ?_⟩
  rw [hflat]
  by_cases hconcerns : concerns p port m c
  · have hdst : port = c.dst.port := hconcerns.2.resolve_right hport
    rw [if_pos hconcerns, if_pos ⟨hconcerns.1, hdst⟩, rxs_reactions hp hanswer, emitted_reactions,
      hemitted]
  · have hnot : ¬ ((m.groupId.toNat : ℤ) = p.currentGroupId ∧ port = c.dst.port) :=
      fun h => hconcerns ⟨h.1, Or.inl h.2⟩
    rw [if_neg hconcerns, if_neg hnot]
    rfl

end Receive

/-! ## Who a frame reaches -/

section Audience

variable {V : Type} [DecidableEq V] (d : Deployment V)

/-- The processes on the shared memory of a machine; a coordinator has no components. -/
def processes (v : V) : List (Node V) :=
  .gateway v :: if d.isCoordinator v then [] else componentPorts.map (.component v)

/-- The other processes that a frame reaches: all of the machine, or the gateways of the
other machines it is addressed to. -/
def audience (node : Node V) (c : AsyncCapsule) : List (Node V) :=
  match c.origin with
  | .sharedMemory => (processes d node.vm).filter (· ≠ node)
  | .ethernet => (d.vms.filter fun w =>
      w ≠ node.vm ∧ (c.dst.mac = Address.BROADCAST ∨ c.dst.mac = d.mac w)).map .gateway

variable {d}

theorem vm_of_mem_processes {v : V} {n : Node V} (h : n ∈ processes d v) : n.vm = v := by
  unfold processes at h
  rcases List.mem_cons.mp h with rfl | h
  · rfl
  · split at h
    · cases h
    · obtain ⟨port, -, rfl⟩ := List.mem_map.mp h
      rfl

theorem mem_processes_of_mem_audience {node n : Node V} {c : AsyncCapsule}
    (h : n ∈ audience d node c) :
    n ∈ processes d n.vm := by
  unfold audience at h
  split at h
  · have hn := (List.mem_filter.mp h).1
    rwa [vm_of_mem_processes hn]
  · obtain ⟨w, -, rfl⟩ := List.mem_map.mp h
    exact List.mem_cons_self

theorem port_of_mem_processes {v : V} {port : UInt16} (h : .component v port ∈ processes d v) :
    port ∈ componentPorts ∧ d.isCoordinator v = false := by
  unfold processes at h
  cases hc : d.isCoordinator v with
  | true => simp [hc] at h
  | false => simpa [hc] using h

variable (d)

/-- A gateway past the barrier, in group 0. -/
def runningGateway (v : V) : Gateway where
  proto := { address := d.mac v, portObservers := observers ANY_PORT }
  phase := .running
  peerPorts := setPeerPorts GATEWAY_PORT componentPorts

/-- A component in group 0. -/
def runningComponent (v : V) (port : UInt16) : Instance :=
  { address := d.mac v, portObservers := observers port }

end Audience

end CarNetwork.Relay
