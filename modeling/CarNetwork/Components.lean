import CarNetwork.Cascade
import CarNetwork.RelayContent

/-!
# All classes of components

The constructor of `Car` creates a powertrain and a brake. Three more classes are
written, and their creation is commented out there: steering, transmission and airbag. Here
a car has any of the five, at ports of its own. The gateway and the protocol stay as they
are; what is new is what a component answers. The brake and the airbag answer to a few
texts, and steering and transmission answer to whatever they are sent.
-/
namespace CarNetwork.Components

open CarNetwork.ByteText CarNetwork.DecimalText CarNetwork.Conversions CarNetwork.Ethernet
  CarNetwork.Protocol
open CarNetwork.Car CarNetwork.Fleet CarNetwork.Relay CarNetwork.Runs
open CarNetwork.RelayOnce (fits_of_body BODY_LIMIT)
open CarNetwork.Cascade (Copy)

def STEERING_PORT : UInt16 := 103
def TRANSMISSION_PORT : UInt16 := 104
def AIRBAG_PORT : UInt16 := 105

/-! ## One component -/

inductive ComponentKind
  | powertrain
  | brake
  | steering
  | transmission
  | airbag
  deriving DecidableEq, Repr

/-- `_angle` of a steering component after `on_receive`. -/
def turned (kind : ComponentKind) (angle : ℤ) (body : Bytes) : ℤ :=
  match kind with
  | .steering =>
    if body = ascii "steer-left" then (angle + 350).tmod 360
    else if body = ascii "steer-right" then (angle + 10).tmod 360
    else angle
  | _ => angle

/-- The text that `on_receive` gives to `send_local`, if it calls it. -/
def answerText (kind : ComponentKind) (body : Bytes) : Option Bytes :=
  match kind with
  | .powertrain => none
  | .brake => if isAlarm body then some (ascii "ack-brake") else none
  | .steering => some (ascii "ack-steering")
  | .transmission => some (ascii "ack-gear")
  | .airbag =>
    if body = ascii "collision!" then some (ascii "airbag_deployed")
    else if body = ascii "diagnostic?" then some (ascii "airbag_diag_ok")
    else none

def onReceive (kind : ComponentKind) (p : Instance) (port : UInt16) (rx : Rx) (id time : UInt64) :
    Except CxxException (List Effect) :=
  match answerText kind rx.msg.body with
  | none => .ok []
  | some text => sendLocal p port text id time

/-- `on_tick`: the angle of a steering component, and what is sent. -/
def onTick (kind : ComponentKind) (p : Instance) (port : UInt16) (angle : ℤ) (id time : UInt64) :
    ℤ × Except CxxException (List Effect) :=
  match kind with
  | .powertrain => (angle, .ok [])
  | .brake => (angle, sendLocal p port (ascii "brake!") id time)
  | .steering =>
    let angle := (angle + 5).tmod 360
    (angle, sendLocal p port (ascii "Steering angle " ++ intText angle) id time)
  | .transmission => (angle, sendLocal p port (ascii "transmission_ok") id time)
  | .airbag => (angle, sendLocal p port (ascii "airbag_diag_ok") id time)

def react (kind : ComponentKind) (p : Instance) (port : UInt16) (id : UInt64) (now : ℕ → UInt64) :
    Effect → Except CxxException (List Effect)
  | .onPacket po c => do
    match ← rxOfPacket po c with
    | none => return [.onPacket po c]
    | some rx => return .onPacket po c :: (← onReceive kind p port rx id (now 0))
  | e => .ok [e]

/-- Reception by a component of this kind. -/
def receive (env : Env) (kind : ComponentKind) (p : Instance) (port : UInt16) (id : UInt64)
    (c : AsyncCapsule) :
    Except CxxException (Instance × List Effect) := do
  let (p, effects) ← update env p c
  let reactions ← effects.mapM (react kind p port id env.now)
  return (p, reactions.flatten)

/-! ## Answers -/

/-- All that components answer. -/
def answers : List Bytes :=
  [ascii "ack-brake", ascii "ack-steering", ascii "ack-gear", ascii "airbag_deployed",
    ascii "airbag_diag_ok"]

/-- The texts that are answered by the brake or the airbag. -/
def trigger (body : Bytes) : Bool :=
  isAlarm body || body = ascii "collision!" || body = ascii "diagnostic?"

/-- The kinds that answer to whatever they are sent. -/
def talkative : ComponentKind → Bool
  | .steering | .transmission => true
  | _ => false

theorem mem_answers {kind : ComponentKind} {body text : Bytes}
    (h : answerText kind body = some text) : text ∈ answers := by
  cases kind <;> simp only [answerText] at h
  case powertrain => cases h
  case brake =>
    split at h
    · cases h; decide
    · cases h
  case steering => cases h; decide
  case transmission => cases h; decide
  case airbag =>
    split at h
    · cases h; decide
    · split at h
      · cases h; decide
      · cases h

/-- A kind that is not talkative answers to the texts of `trigger` only. -/
theorem trigger_of_answer {kind : ComponentKind} {body text : Bytes}
    (h : answerText kind body = some text) (hkind : talkative kind = false) :
    trigger body = true := by
  cases kind <;> simp only [answerText] at h
  case powertrain => cases h
  case brake =>
    split at h
    · rename_i halarm
      simp [trigger, halarm]
    · cases h
  case steering => cases hkind
  case transmission => cases hkind
  case airbag =>
    split at h
    · rename_i hbody
      simp [trigger, hbody]
    · split at h
      · rename_i hbody
        simp [trigger, hbody]
      · cases h

/-- A talkative one always answers. -/
theorem answer_of_talkative {kind : ComponentKind} (h : talkative kind = true) (body : Bytes) :
    ∃ text, answerText kind body = some text := by
  cases kind with
  | steering => exact ⟨_, rfl⟩
  | transmission => exact ⟨_, rfl⟩
  | _ => cases h

theorem trigger_answers : ∀ text ∈ answers, trigger (trim text) = false := by decide

theorem find_answers : ∀ text ∈ answers, find text (ascii "TO=") 0 = none := by decide

theorem length_answers : ∀ text ∈ answers, text.length ≤ BODY_LIMIT := by decide

section Receive

variable {p : Instance} {port : UInt16} {c : AsyncCapsule} {m : Message}

/-- The frame of an answer. -/
def answerFrame (p : Instance) (port : UInt16) (text : Bytes) (id time : UInt64) : AsyncCapsule :=
  ⟨⟨p.address, port⟩, ⟨p.address, GATEWAY_PORT⟩, .sharedMemory, buildMessage (commMessage p
    ⟨p.address, port⟩ (Int32.ofInt port.toNat) text id time)⟩

/-- What a component that concerns a message sends about it. -/
def answerFrames (kind : ComponentKind) (p : Instance) (port : UInt16) (body : Bytes)
    (id time : UInt64) : List AsyncCapsule :=
  match answerText kind body with
  | none => []
  | some text => [answerFrame p port text id time]

theorem onReceive_eq (kind : ComponentKind) (p : Instance) (port : UInt16) (rx : Rx)
    (id time : UInt64) : ∃ effects, onReceive kind p port rx id time = .ok effects ∧
    rxs effects = [] ∧ emitted false p.address effects =
      answerFrames kind p port rx.msg.body id time := by
  unfold onReceive answerFrames
  cases htext : answerText kind rx.msg.body with
  | none => exact ⟨[], rfl, rfl, rfl⟩
  | some text =>
    have hmem := mem_answers htext
    have hto := find_answers text hmem
    refine ⟨sendMessage p ⟨p.address, port⟩ ⟨p.address, GATEWAY_PORT⟩
      (commMessage p ⟨p.address, port⟩
      (Int32.ofInt port.toNat) text id time), ?_, rxs_sendMessage, ?_⟩
    · simp [sendLocal, localDestination, hto, bind, Except.bind, pure, Except.pure]
    · rw [emitted_shm rfl]
      refine List.filter_eq_self.mpr fun x hx => ?_
      obtain rfl := List.mem_singleton.mp hx
      exact fits_of_body rfl (length_answers text hmem)

/-- What a component does with a data message: it hears it if it is from its group and for its
port, and may answer. -/
theorem receive_data (kind : ComponentKind) (env : Env) (id : UInt64) (hport : port ≠ ANY_PORT)
    (hobs : p.portObservers = observers port) (hp : c.payload = buildMessage m)
    (hm : m.control = .NONE) :
    ∃ effects, receive env kind p port id c = .ok (p, effects) ∧
      (rxs effects, emitted false p.address effects) =
        if (m.groupId.toNat : ℤ) = p.currentGroupId ∧ port = c.dst.port then
          ([rxOfMessage m c], answerFrames kind p port (trim m.body) id (env.now 0))
        else ([], []) := by
  obtain ⟨answer, hanswer, hrxs, hemitted⟩ :=
    onReceive_eq kind p port (rxOfMessage m c) id (env.now 0)
  have hreact (po : PortObserver) : react kind p port id env.now (.onPacket po c) =
      .ok (.onPacket po c :: if po.origin = c.origin then answer else []) := by
    rw [react, rxOfPacket_eq hp]
    by_cases ho : po.origin = c.origin
    · rw [if_pos ho, if_pos ho]
      simp only [bind, Except.bind, hanswer]
      rfl
    · rw [if_neg ho, if_neg ho]
      rfl
  obtain ⟨rs, hrs, hflat⟩ :=
    mapM_packets hreact (if concerns p port m c then observers port else [])
  have hreceive : receive env kind p port id c = .ok (p, rs.flatten) := by
    simp only [receive, update_observers hobs hp hm, bind, Except.bind, hrs]
    rfl
  refine ⟨_, hreceive, ?_⟩
  rw [hflat]
  by_cases hconcerns : concerns p port m c
  · have hdst : port = c.dst.port := hconcerns.2.resolve_right hport
    rw [if_pos hconcerns, if_pos ⟨hconcerns.1, hdst⟩, rxs_reactions hp hrxs, emitted_reactions,
      hemitted]
    rfl
  · have hnot : ¬ ((m.groupId.toNat : ℤ) = p.currentGroupId ∧ port = c.dst.port) :=
      fun h => hconcerns ⟨h.1, Or.inl h.2⟩
    rw [if_neg hconcerns, if_neg hnot]
    rfl

end Receive

/-! ## A fleet -/

/-- The components of each car, at ports of their own. -/
structure Equipment (V : Type) where
  ports : V → List UInt16
  kind : V → UInt16 → ComponentKind
  nodup : ∀ v, (ports v).Nodup
  ne_any : ∀ v, ∀ port ∈ ports v, port ≠ ANY_PORT

structure State (V : Type) where
  gateway : V → Gateway
  component : V → UInt16 → Instance
  angle : V → UInt16 → ℤ
  copies : List (Copy V)

inductive Action (V : Type)
  | deliver (i : ℕ) (now : ℕ → UInt64) (stray : ℤ → ℤ) (id : UInt64)
  | lose (i : ℕ)
  | tick (v : V) (port : UInt16) (id time : UInt64)

variable {V : Type} [DecidableEq V] (d : Deployment V) (e : Equipment V)

/-- The processes on the shared memory of a machine; a coordinator has no components. -/
def processes (v : V) : List (Node V) :=
  .gateway v :: if d.isCoordinator v then [] else (e.ports v).map (.component v)

/-- The other processes that a frame reaches. -/
def audience (node : Node V) (c : AsyncCapsule) : List (Node V) :=
  match c.origin with
  | .sharedMemory => (processes d e node.vm).filter (· ≠ node)
  | .ethernet => (d.vms.filter fun w =>
      w ≠ node.vm ∧ (c.dst.mac = Address.BROADCAST ∨ c.dst.mac = d.mac w)).map .gateway

/-- One copy for each of them. -/
def copies (node : Node V) (c : AsyncCapsule) : List (Copy V) := (audience d e node c).map (⟨·, c⟩)

/-- What a component has sent is put in flight; one that throws is gone. -/
def putInFlight (s : State V) (v : V) (port : UInt16) : Except CxxException (List Effect) → State V
  | .error _ => s
  | .ok effects => { s with
      copies := s.copies ++ (emitted false (s.component v port).address effects).flatMap
        (copies d e (.component v port)) }

/-- A copy reaches its receiver. -/
def arrive (s : State V) (x : Copy V) (env : Env) (id : UInt64) : State V :=
  match x.receiver with
  | .gateway v =>
    let (g, effects) := gatewayReceive env (d.config v) (s.gateway v) x.capsule
    { s with
      gateway := Function.update s.gateway v g
      copies := s.copies ++ (emitted true g.proto.address effects).flatMap (copies d e x.receiver) }
  | .component v port =>
    match receive env (e.kind v port) (s.component v port) port id x.capsule with
    | .error _ => s
    | .ok (p, effects) =>
      putInFlight d e { s with
        component := Function.update s.component v (Function.update (s.component v) port p)
        angle := Function.update s.angle v (Function.update (s.angle v) port
          ((rxs effects).foldl (fun angle rx => turned (e.kind v port) angle rx.msg.body)
            (s.angle v port))) }
        v port (.ok effects)

def step (s : State V) : Action V → Option (State V)
  | .deliver i now stray id =>
    s.copies[i]?.map fun x =>
      arrive d e { s with copies := s.copies.eraseIdx i } x { now, stray } id
  | .lose i => if i < s.copies.length then some { s with copies := s.copies.eraseIdx i } else none
  | .tick v port id time =>
    if (processes d e v).contains (.component v port) then
      let (angle, sent) := onTick (e.kind v port) (s.component v port) port (s.angle v port) id time
      some (putInFlight d e
        { s with angle := Function.update s.angle v (Function.update (s.angle v) port angle) } v
        port sent)
    else none

end CarNetwork.Components
