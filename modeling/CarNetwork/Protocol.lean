import CarNetwork.MessageCodec
import CarNetwork.Authentication
import CarNetwork.ClockSyncer
import CarNetwork.GroupTable

/-!
# The protocol instance

State and operations of one `Protocol` object. An operation returns the new state
and the effects it had, in order: frames given to the network interface, calls of
the observers and of the owner's callback, and clock corrections. The tag check,
the key and what the environment decides are in `Env`; the clock is read through
`now`, where `now i` is the result of the `i`-th reading of one operation.
-/
namespace CarNetwork.Protocol

open CarNetwork.ByteText CarNetwork.DecimalText CarNetwork.Conversions CarNetwork.Ethernet
open CarNetwork.ClockSync

/-- Largest payload: the data of an Ethernet frame minus the protocol header. -/
def MTU : ℕ := 1500 - 6

structure PortObserver where
  origin : ChannelOrigin
  port : UInt16
  deriving DecidableEq, Repr

/-- A received payload with its endpoints and the channel it came on. -/
structure AsyncCapsule where
  src : Endpoint
  dst : Endpoint
  origin : ChannelOrigin
  payload : Bytes
  deriving DecidableEq, Repr

structure Instance where
  address : Address
  currentGroupId : ℤ := 0
  groups : GroupTable := []
  syncTotalVms : ℤ := 0
  controlLocal : Endpoint := {}
  syncReadyNodes : Finset Bytes := ∅
  syncDoneCallback : Bool := false
  syncGoSent : Bool := false
  syncGoReceived : Bool := false
  isMaster : Bool := false
  portObservers : List PortObserver := []
  clockSyncer : ClockSyncer := {}
  runningPtp : Bool := false
  probabilisticPtpTimeout : Bool := false
  deriving DecidableEq

/-- Which function of the program produced a frame. -/
inductive SendKind
  | data
  | control (type : ControlType)
  | groupInfo
  deriving DecidableEq

inductive Effect
  | transmit (kind : SendKind) (src dst : Endpoint) (payload : Bytes)
  | syncDoneCallback
  | ptpSample (offset delay : ℤ)
  | adjustTime (offsetUs : ℤ)
  | onPacket (po : PortObserver) (c : AsyncCapsule)
  | onControl (po : PortObserver) (type : ControlType) (src dst : Endpoint)
  deriving DecidableEq

/-- What an operation takes from outside: the shared key, the decision of the tag
check, the clock readings, and the results of reading the coordinator array outside
its bounds. -/
structure Env where
  key : Key := SECRET_KEY
  accepts : UInt8 → Bytes → Bool := verifyMsgac key
  now : ℕ → UInt64
  stray : ℤ → ℤ

/-- `Protocol::send`. The frame carries the interface's address, whatever the
address of the sending endpoint. -/
def send (p : Instance) (kind : SendKind) (src dst : Endpoint) (payload : Bytes) : List Effect :=
  if MTU < payload.length then [] else [.transmit kind ⟨p.address, src.port⟩ dst payload]

def controlMessage (p : Instance) (src : Endpoint) (ctype : ControlType) (msgac : UInt8)
    (payload : Bytes) (time : UInt64) : Message where
  control := ctype
  msgac := msgac
  groupId := UInt8.ofInt p.currentGroupId
  origVm := UInt8.ofInt (vmIdFromMac src.mac)
  origPort := src.port
  timestamp := time
  body := payload

def sendControl (p : Instance) (src dst : Endpoint) (ctype : ControlType) (msgac : UInt8)
    (payload : Bytes) (time : UInt64) : List Effect :=
  send p (.control ctype) src dst (buildMessage (controlMessage p src ctype msgac payload time))

/-- The broadcast endpoint of an instance's control port. -/
def broadcastEndpoint (p : Instance) : Endpoint := ⟨Address.BROADCAST, p.controlLocal.port⟩

def GROUP_COORDINATORS : List ℤ := [0, 10, 20, 30]

/-- The unguarded array access. -/
def coordinatorForGroup (env : Env) (gid : ℤ) : ℤ :=
  if 0 ≤ gid ∧ gid < 4 then GROUP_COORDINATORS.getD gid.toNat 0 else env.stray gid

/-- The guarded access: `-1` for a group without coordinator. -/
def knownCoordinator (gid : ℤ) : ℤ :=
  if 0 ≤ gid ∧ gid < 4 then GROUP_COORDINATORS.getD gid.toNat 0 else -1

/-- `broadcast_group_info`: the one frame that is not a protocol message. -/
def groupInfoText (p : Instance) (gid : ℤ) : Bytes :=
  ascii "GROUP_INFO " ++ intText gid ++ ascii " MEMBERS:" ++
    (p.groups.membersOf gid).flatMap fun m => space :: intText m

def broadcastGroupInfo (p : Instance) (gid : ℤ) : List Effect :=
  send p .groupInfo p.controlLocal (broadcastEndpoint p) (groupInfoText p gid)

/-- The body of a move notification: vehicle, old group, new group. -/
def notifyBody (vmId oldGid newGid : ℤ) : Bytes :=
  intText vmId ++ [space] ++ intText oldGid ++ [space] ++ intText newGid

def setCurrentGroup (p : Instance) (gid : ℤ) (time : UInt64) :
    Except CxxException (Instance × List Effect) := do
  let myVm := vmIdFromMac p.address
  let p := { p with
    currentGroupId := gid
    groups := p.groups.update gid fun g => { g with groupId := gid }.insertMember myVm }
  let coordVm := knownCoordinator gid
  if 0 ≤ coordVm ∧ coordVm ≠ myVm then
    let coordEp ← endpointFromVm coordVm p.controlLocal.port
    return (p, sendControl p p.controlLocal coordEp .GROUP_MOVE_NOTIFY 0
      (notifyBody myVm (-1) gid) time)
  else
    return (p, broadcastGroupInfo p gid)

def isMessageInternal (p : Instance) (msg : Message) : Bool :=
  (msg.groupId.toNat : ℤ) = p.currentGroupId

def moveGroup (p : Instance) (newGid : ℤ) (time : UInt64) : List Effect :=
  sendControl p p.controlLocal (broadcastEndpoint p) .GROUP_MOVE_REQUEST 0 (intText newGid) time

def enableStartSync (p : Instance) (totalVms : ℤ) (localEp : Endpoint) (cb : Bool) : Instance :=
  { p with
    syncTotalVms := totalVms
    controlLocal := localEp
    syncReadyNodes := if p.isMaster then ∅ else {localEp.mac.str}
    syncDoneCallback := cb }

def setMaster (p : Instance) (m : Bool) : Instance := { p with isMaster := m }

/-! ## Control handlers -/

/-- Result of a handler; `forward` is false where the source returns before the
observers are reached. -/
structure Handled where
  inst : Instance
  effects : List Effect := []
  forward : Bool := true

/-- What `snprintf` leaves in a buffer of the given size. -/
def snprintf (size : ℕ) (s : Bytes) : Bytes := s.take (size - 1)

/-- The value of an unsigned word converted to `int64_t`. -/
def asInt64 (w : UInt64) : ℤ := (w.toNat : ℤ).bmod (2 ^ 64)

def onReady (env : Env) (p : Instance) (c : AsyncCapsule) : Handled :=
  let ready := insert c.src.mac.str p.syncReadyNodes
  let p := { p with syncReadyNodes := ready }
  if p.syncGoSent = false ∧ (ready.card : ℤ) = p.syncTotalVms then
    { inst := { p with syncGoSent := true }
      effects := sendControl p p.controlLocal (broadcastEndpoint p) .GO 0 [] (env.now 0) }
  else { inst := p }

def onGo (p : Instance) : Handled :=
  if p.syncGoReceived then { inst := p }
  else
    { inst := { p with syncGoReceived := true }
      effects := if p.syncDoneCallback then [.syncDoneCallback] else [] }

def onSyncReq (env : Env) (p : Instance) (c : AsyncCapsule) : Handled :=
  if p.isMaster then
    let buf := snprintf 128 (decimal (env.now 0).toNat)
    { inst := p
      effects := sendControl p p.controlLocal c.src .SYNC_RESP (generateMac env.key buf) buf
        (env.now 1) }
  else { inst := p }

/-- The body of a delay request. -/
def delayReqText (t1 t2 t3 : UInt64) : Bytes :=
  decimal t1.toNat ++ [space] ++ decimal t2.toNat ++ [space] ++ decimal t3.toNat

def onSyncResp (env : Env) (p : Instance) (msg : Message) (c : AsyncCapsule) : Handled :=
  let t1 := ((scanUnsignedLong msg.body).map Prod.fst).getD 0
  let t2 := env.now 0
  let buf := snprintf 256 (delayReqText t1 t2 t2)
  { inst := p
    effects := sendControl p p.controlLocal c.src .DELAY_REQ (generateMac env.key buf) buf
      (env.now 1) }

/-- `sscanf(body, "%lu %lu %lu", ...) == 3`. -/
def scanDelayReq (body : Bytes) : Option (UInt64 × UInt64 × UInt64) := do
  let (t1, s) ← scanUnsignedLong body
  let (t2, s) ← scanUnsignedLong s
  let (t3, _) ← scanUnsignedLong s
  some (t1, t2, t3)

/-- The offset of the sender's clock, with the source's casts and division. -/
def ptpOffset (t1 t2 t3 t4 : UInt64) : ℤ :=
  (toLongLong (asInt64 (t2 - t1) + asInt64 (t3 - t4))).tdiv 2

def ptpRtt (t1 t2 t3 t4 : UInt64) : ℤ := asInt64 ((t4 - t1) - (t3 - t2))

/-- The body of a delay response. -/
def delayRespText (offset rtt : ℤ) : Bytes := intText offset ++ [space] ++ intText rtt

def onDelayReq (env : Env) (p : Instance) (msg : Message) (c : AsyncCapsule) : Handled :=
  match scanDelayReq msg.body with
  | none => { inst := p, forward := false }
  | some (t1, t2, t3) =>
    let t4 := env.now 0
    let buf := snprintf 128 (delayRespText (ptpOffset t1 t2 t3 t4) (ptpRtt t1 t2 t3 t4))
    { inst := p
      effects := sendControl p p.controlLocal c.src .DELAY_RESP (generateMac env.key buf) buf
        (env.now 1) }

/-- `sscanf(body, "%lld %lld", ...)`: what is not scanned keeps its initial zero. -/
def scanDelayResp (body : Bytes) : ℤ × ℤ :=
  match scanLongLong body with
  | none => (0, 0)
  | some (offset, s) => (offset, ((scanLongLong s).map Prod.fst).getD 0)

def onDelayResp (p : Instance) (msg : Message) : Handled :=
  let (offset, delay) := scanDelayResp msg.body
  let syncer := p.clockSyncer.addPtpSample offset delay
  { inst := { p with clockSyncer := syncer, runningPtp := false }
    effects := [.ptpSample offset delay, .adjustTime syncer.applySync] }

/-- One notification to every coordinator but this one, in table order; the clock
is read once for each. -/
def notifyCoordinators (env : Env) (p : Instance) (body : Bytes) :
    List ℤ → ℕ → Except CxxException (List Effect)
  | [], _ => .ok []
  | coordVm :: rest, i =>
    if coordVm = vmIdFromMac p.address then notifyCoordinators env p body rest i
    else do
      let coordEp ← endpointFromVm coordVm p.controlLocal.port
      let later ← notifyCoordinators env p body rest (i + 1)
      return sendControl p p.controlLocal coordEp .GROUP_MOVE_NOTIFY 0 body (env.now i) ++ later

def onGroupMoveRequest (env : Env) (p : Instance) (msg : Message) :
    Except CxxException Handled := do
  let requesterId : ℤ := msg.origVm.toNat
  let newGid ← stoi msg.body
  let p := { p with groups := p.groups.setGroupForVm requesterId newGid }
  let requestedGid := newGid
  match p.groups.getGroupOf requesterId with
  | none => return { inst := p, forward := false }
  | some senderGid =>
    let myVm := vmIdFromMac p.address
    if myVm ≠ knownCoordinator senderGid then return { inst := p, forward := false }
    else
      let groups := p.groups.update requestedGid fun g => { g with groupId := requestedGid }
      let groups := if groups.any fun e => e.1 = senderGid
        then groups.update senderGid (GroupInfo.eraseMember requesterId) else groups
      let groups := groups.update requestedGid (GroupInfo.insertMember requesterId)
      let p := { p with groups }
      let notes ← notifyCoordinators env p (notifyBody requesterId senderGid requestedGid)
        GROUP_COORDINATORS 0
      let requesterEp ← endpointFromVm requesterId p.controlLocal.port
      return { inst := p
               effects := notes ++ sendControl p p.controlLocal requesterEp .GROUP_ASSIGN 0
                 (intText requestedGid) (env.now 3) }

/-- Three extractions from one stream; a failed one fails them all. -/
def scanNotify (body : Bytes) : Option (ℤ × ℤ × ℤ) := do
  let (vmId, s) ← extractInt body
  let (oldGid, s) ← extractInt s
  let (newGid, _) ← extractInt s
  some (vmId, oldGid, newGid)

def onGroupMoveNotify (env : Env) (p : Instance) (msg : Message) : Handled :=
  match scanNotify msg.body with
  | none => { inst := p, forward := false }
  | some (vmId, oldGid, newGid) =>
    let myVm := vmIdFromMac p.address
    if myVm = coordinatorForGroup env oldGid ∨ myVm = coordinatorForGroup env newGid then
      let groups := p.groups.update oldGid fun g => { g with groupId := oldGid }
      let groups := groups.update newGid fun g => { g with groupId := newGid }
      let groups := groups.update oldGid (GroupInfo.eraseMember vmId)
      let groups := groups.update newGid (GroupInfo.insertMember vmId)
      { inst := { p with groups } }
    else { inst := p, forward := false }

def onGroupAssign (env : Env) (p : Instance) (msg : Message) : Except CxxException Handled :=
  match stoi msg.body with
  | .error _ => .ok { inst := p, forward := false }
  | .ok targetGid => do
    let (p, effects) ← setCurrentGroup p targetGid (env.now 0)
    return { inst := p, effects }

def onGroupRegister (env : Env) (p : Instance) (msg : Message) : Except CxxException Handled := do
  let senderVm : ℤ := msg.origVm.toNat
  let targetGid := (p.groups.getGroupOf senderVm).getD p.currentGroupId
  if vmIdFromMac p.address ≠ coordinatorForGroup env targetGid then
    return { inst := p, forward := false }
  else
    let p := { p with
      groups := p.groups.update targetGid fun g =>
        { g with groupId := targetGid }.insertMember senderVm }
    let senderEp ← endpointFromVm senderVm p.controlLocal.port
    return { inst := p
             effects := sendControl p p.controlLocal senderEp .GROUP_ASSIGN 0 (intText targetGid)
               (env.now 0) }

/-- The branch of `notify_by_port` that a message takes. -/
def handle (env : Env) (p : Instance) (msg : Message) (c : AsyncCapsule) :
    Except CxxException Handled :=
  match msg.control with
  | .READY =>
    .ok (if isMessageInternal p msg ∧ 0 < p.syncTotalVms then onReady env p c else { inst := p })
  | .GO => .ok (if isMessageInternal p msg then onGo p else { inst := p })
  | .SYNC_REQ => .ok (if isMessageInternal p msg then onSyncReq env p c else { inst := p })
  | .SYNC_RESP =>
    .ok (if isMessageInternal p msg ∧ p.isMaster = false then onSyncResp env p msg c
      else { inst := p })
  | .DELAY_REQ =>
    .ok (if isMessageInternal p msg ∧ p.isMaster then onDelayReq env p msg c else { inst := p })
  | .DELAY_RESP =>
    .ok (if isMessageInternal p msg ∧ p.isMaster = false then onDelayResp p msg else { inst := p })
  | .GROUP_MOVE_REQUEST => onGroupMoveRequest env p msg
  | .GROUP_MOVE_NOTIFY => .ok (onGroupMoveNotify env p msg)
  | .GROUP_ASSIGN => onGroupAssign env p msg
  | .GROUP_REGISTER => onGroupRegister env p msg
  | .NONE => .ok { inst := p }
  | .unnamed _ => .ok { inst := p }

/-- Whether observers are told of a control message. -/
def forwardsControl (p : Instance) (msg : Message) : Bool :=
  msg.control = .GROUP_REGISTER || msg.control = .GROUP_ASSIGN || p.isMaster ||
    p.groups.getGroupOf msg.origVm.toNat = some p.currentGroupId

/-- The final loop of `notify_by_port` over the port observers. -/
def forwardToObservers (p : Instance) (msg : Message) (c : AsyncCapsule) : List Effect :=
  p.portObservers.flatMap fun po =>
    if msg.control ≠ .NONE then
      if forwardsControl p msg then [.onControl po msg.control c.src c.dst] else []
    else if (msg.groupId.toNat : ℤ) ≠ p.currentGroupId then []
    else if po.port = c.dst.port ∨ po.port = ANY_PORT then [.onPacket po c]
    else []

/-- The body the handlers see: cut at the first NUL, then trimmed. -/
def cleanBody (body : Bytes) : Bytes := trim (cString body)

def notifyByPort (env : Env) (p : Instance) (c : AsyncCapsule) :
    Except CxxException (Instance × List Effect) := do
  let msg ← parseMessage c.payload
  if msg.control ≠ .NONE ∧ env.accepts msg.msgac msg.body = false then return (p, [])
  else
    let msg := { msg with body := cleanBody msg.body }
    let h ← handle env p msg c
    return (h.inst, h.effects ++ if h.forward then forwardToObservers h.inst msg c else [])

/-- `Protocol::update` from the payload on: a frame without payload is dropped. -/
def update (env : Env) (p : Instance) (c : AsyncCapsule) :
    Except CxxException (Instance × List Effect) :=
  if c.payload.isEmpty then .ok (p, []) else notifyByPort env p c

end CarNetwork.Protocol
