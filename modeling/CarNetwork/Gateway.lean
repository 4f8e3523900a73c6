import CarNetwork.Protocol

/-!
# Communicator, components and gateway

The processes of one machine. A component owns a protocol instance attached to
shared memory only; the gateway owns the instance attached to both channels, runs
the start barrier and relays data between the two. `Gateway::initialize` is cut
into the steps between which frames can arrive, and the thread that repeats READY
into its test and its send.
-/
namespace CarNetwork.Car

open CarNetwork.ByteText CarNetwork.DecimalText CarNetwork.Conversions CarNetwork.Ethernet
open CarNetwork.Protocol

/-! ## Communicator -/

/-- The message that `Communicator::send` builds. -/
def commMessage (p : Instance) (localEp : Endpoint) (type : Int32) (data : Bytes)
    (id time : UInt64) :
    Message where
  groupId := UInt8.ofInt p.currentGroupId
  origVm := localEp.mac.lastOctet
  origPort := localEp.port
  timestamp := time
  type := type
  msgId := id
  body := data

/-- `Communicator::send_message`. -/
def sendMessage (p : Instance) (localEp dst : Endpoint) (msg : Message) : List Effect :=
  send p .data localEp dst (buildMessage msg)

/-- A data message as the owner of a communicator sees it. -/
structure Rx where
  msg : Message
  src : Endpoint
  dst : Endpoint
  origin : ChannelOrigin

/-- `PortObserverImpl::on_packet` up to the notification of the owner. -/
def rxOfPacket (po : PortObserver) (c : AsyncCapsule) : Except CxxException (Option Rx) :=
  if po.origin ≠ c.origin then .ok none
  else do
    let msg ← parseMessage c.payload
    return some ⟨{ msg with body := trim msg.body }, c.src, c.dst, c.origin⟩

/-- `initialize_communicator`: a fresh instance with one observer for each channel. -/
def initializeCommunicator (mac : Address) (port : UInt16) : Instance :=
  { address := mac, portObservers := [⟨.ethernet, port⟩, ⟨.sharedMemory, port⟩] }

/-! ## Components -/

def POWERTRAIN_PORT : UInt16 := 101
def BRAKE_PORT : UInt16 := 102

/-- The components that the constructor of `Car` creates. -/
def componentPorts : List UInt16 := [POWERTRAIN_PORT, BRAKE_PORT]

/-- A component process; `joined` once `set_current_group` has been executed. -/
structure Component where
  proto : Instance
  joined : Bool := false

/-- The destination and the data of `send_local`: "TO=<port> DATA=<payload>", or
everything to the gateway when one of the two keys is missing. -/
def localDestination (mac : Address) (s : Bytes) : Except CxxException (Endpoint × Bytes) :=
  match find s (ascii "TO=") 0, find s (ascii "DATA=") 0 with
  | some posTo, some posData => do
    -- unsigned arithmetic: a DATA in front of TO gives the rest of the text
    let count := if posTo + 4 ≤ posData then posData - posTo - 4 else s.length
    let port ← stoi (substr s (posTo + 3) count)
    return (⟨mac, UInt16.ofInt port⟩, s.drop (posData + 5))
  | _, _ => .ok (⟨mac, GATEWAY_PORT⟩, s)

def sendLocal (p : Instance) (port : UInt16) (s : Bytes) (id time : UInt64) :
    Except CxxException (List Effect) := do
  let (dst, data) ← localDestination p.address s
  let localEp : Endpoint := ⟨p.address, port⟩
  return sendMessage p localEp dst (commMessage p localEp (Int32.ofInt port.toNat) data id time)

/-- Relayed messages carry the relaying gateway's group, id and port. -/
def relayed (p : Instance) (port : UInt16) (myId : ℤ) (msg : Message) (time : UInt64) : Message :=
  { msg with
    groupId := UInt8.ofInt p.currentGroupId
    origVm := UInt8.ofInt myId
    origPort := port
    timestamp := time }

def forwardMessage (p : Instance) (port : UInt16) (myId : ℤ) (rx : Rx)
    (time : UInt64) : List Effect :=
  sendMessage p ⟨p.address, port⟩ ⟨Address.BROADCAST, GATEWAY_PORT⟩
    (relayed p port myId rx.msg time)

def fanoutMessage (p : Instance) (port : UInt16) (myId : ℤ) (peerPorts : List UInt16) (rx : Rx)
    (now : ℕ → UInt64) : List Effect :=
  peerPorts.zipIdx.flatMap fun (peer, i) =>
    sendMessage p ⟨p.address, port⟩ ⟨p.address, peer⟩ (relayed p port myId rx.msg (now i))

def setPeerPorts (port : UInt16) (ports : List UInt16) : List UInt16 := ports.filter (· ≠ port)

/-- `register_with_coordinator`, which only a node that is not master runs. -/
def registerWithCoordinator (env : Env) (p : Instance) (localEp : Endpoint) (vmId : Int8)
    (isMasterNode : Bool) (time : UInt64) : Except CxxException (List Effect) :=
  if isMasterNode then .ok []
  else do
    let coordinatorEp ← endpointFromVm (coordinatorForGroup env p.currentGroupId) localEp.port
    return sendControl p localEp coordinatorEp .GROUP_REGISTER 0 (ascii "VM_ID=" ++
      intText vmId.toInt) time

/-! ## Gateway -/

/-- What the command line and the network card say about a machine. -/
structure Config where
  mac : Address
  vmId : ℤ
  groupId : ℤ
  isSyncMaster : Bool
  totalSyncVms : ℤ

/-- How far `Gateway::initialize` has got. -/
inductive Phase
  | off
  | listening
  | joined
  | callbackSet
  | masterSet
  | waiting
  | running
  | crashed
  deriving DecidableEq, Repr

namespace Phase

/-- The receiving threads run. -/
def hears : Phase → Bool
  | off | crashed => false
  | _ => true

/-- `set_current_group` has been executed. -/
def hasJoined : Phase → Bool
  | off | listening | crashed => false
  | _ => true

/-- `set_on_sync_done` has been executed. -/
def hasCallback : Phase → Bool
  | callbackSet | masterSet | waiting | running => true
  | _ => false

/-- `set_master` has been executed where it is due. -/
def hasRole : Phase → Bool
  | masterSet | waiting | running => true
  | _ => false

/-- `enable_start_sync` has been executed: the node is at the barrier or past it. -/
def atBarrier : Phase → Bool
  | waiting | running => true
  | _ => false

end Phase

structure Gateway where
  proto : Instance
  phase : Phase := .off
  onSyncDone : Bool := false
  syncDone : Bool := false
  readyChecked : Bool := false
  peerPorts : List UInt16 := []
  didRequest : Bool := false
  lastSyncRequest : UInt64 := 0

namespace Gateway

/-- `_local`, the gateway's own endpoint. -/
def localEp (g : Gateway) : Endpoint := ⟨g.proto.address, GATEWAY_PORT⟩

/-- Relay a data message to the other channel. -/
def onReceive (cfg : Config) (g : Gateway) (rx : Rx) (now : ℕ → UInt64) : List Effect :=
  match rx.origin with
  | .sharedMemory => forwardMessage g.proto GATEWAY_PORT cfg.vmId rx (now 0)
  | .ethernet => fanoutMessage g.proto GATEWAY_PORT cfg.vmId g.peerPorts rx now

/-- An effect of the protocol followed by what the gateway does about it. -/
def react (cfg : Config) (g : Gateway) (now : ℕ → UInt64) :
    Effect → Except CxxException (List Effect)
  | .onPacket po c => do
    match ← rxOfPacket po c with
    | none => return [.onPacket po c]
    | some rx => return .onPacket po c :: g.onReceive cfg rx now
  | e => .ok [e]

/-- The two ways a gateway learns of GO: the protocol's callback, and `on_control`
of an observer once its communicator has a callback too. -/
def releasedBy (g : Gateway) : Effect → Bool
  | .syncDoneCallback => true
  | .onControl _ .GO _ _ => g.onSyncDone
  | _ => false

def receive (env : Env) (cfg : Config) (g : Gateway) (c : AsyncCapsule) :
    Except CxxException (Gateway × List Effect) := do
  let (proto, effects) ← update env g.proto c
  let g := { g with proto }
  let reactions ← effects.mapM (g.react cfg env.now)
  return ({ g with syncDone := g.syncDone || effects.any g.releasedBy }, reactions.flatten)

/-- A frame at the interface. An exception ends the process. -/
def deliver (env : Env) (cfg : Config) (g : Gateway) (c : AsyncCapsule) : Gateway × List Effect :=
  if g.phase.hears then
    match g.receive env cfg c with
    | .ok r => r
    | .error _ => ({ g with phase := .crashed }, [])
  else (g, [])

/-- `on_tick`, with the first clock reading for the time of the tick. -/
def onTick (cfg : Config) (g : Gateway) (now : ℕ → UInt64) : Gateway × List Effect :=
  let nowUs := now 0
  let move := decide (cfg.vmId = 1) && !g.didRequest
  let request := !cfg.isSyncMaster && decide (3000000 ≤ nowUs - g.lastSyncRequest)
  let moveEffects := if move then moveGroup g.proto 3 (now 1) else []
  let g := { g with didRequest := g.didRequest || move }
  if request then
    if g.proto.runningPtp then
      ({ g with proto := { g.proto with probabilisticPtpTimeout := true } }, moveEffects)
    else
      ({ g with
          proto := { g.proto with runningPtp := true, probabilisticPtpTimeout := false }
          lastSyncRequest := nowUs },
        moveEffects ++ sendControl g.proto g.localEp ⟨Address.BROADCAST,
          GATEWAY_PORT⟩ .SYNC_REQ 0 []
          (now 2))
  else (g, moveEffects)

end Gateway

/-- The steps of a gateway's own threads. -/
inductive GatewayAction
  | listen
  | joinGroup (time : UInt64)
  | installCallback
  | setMaster
  | enableStartSync
  | checkReady
  | sendReady (time : UInt64)
  | leaveBarrier
  | tick (now : ℕ → UInt64)

namespace Gateway

def act (cfg : Config) (g : Gateway) : GatewayAction → Option (Gateway × List Effect)
  | .listen =>
    if g.phase = .off then
      some ({ g with
        proto := initializeCommunicator cfg.mac GATEWAY_PORT
        phase := .listening }, [])
    else none
  | .joinGroup time =>
    if g.phase = .listening then
      match setCurrentGroup g.proto cfg.groupId time with
      | .ok (proto, effects) => some ({ g with proto, phase := .joined }, effects)
      | .error _ => some ({ g with phase := .crashed }, [])
    else none
  | .installCallback =>
    if g.phase = .joined then
      some ({ g with onSyncDone := true, phase := .callbackSet }, [])
    else none
  | .setMaster =>
    if g.phase = .callbackSet then
      some ({ g with
        proto := if cfg.isSyncMaster then setMaster g.proto true else g.proto
        phase := .masterSet }, [])
    else none
  | .enableStartSync =>
    if g.phase = .masterSet then
      some ({ g with
        proto := enableStartSync g.proto cfg.totalSyncVms g.localEp true
        phase := .waiting }, [])
    else none
  | .checkReady =>
    if g.phase.atBarrier ∧ cfg.isSyncMaster = false ∧ g.readyChecked = false ∧
        g.syncDone = false then
      some ({ g with readyChecked := true }, [])
    else none
  | .sendReady time =>
    if g.phase.atBarrier ∧ g.readyChecked then
      some ({ g with readyChecked := false },
        sendControl g.proto g.localEp ⟨Address.BROADCAST, GATEWAY_PORT⟩ .READY 0 [] time)
    else none
  | .leaveBarrier =>
    if g.phase = .waiting ∧ g.syncDone then
      some ({ g with phase := .running, peerPorts := setPeerPorts GATEWAY_PORT componentPorts }, [])
    else none
  | .tick now => if g.phase = .running then some (g.onTick cfg now) else none

end Gateway

end CarNetwork.Car
