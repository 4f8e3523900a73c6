import CarNetwork.Emissions
import CarNetwork.Runs
import Mathlib.Data.Finset.Card

/-!
# A fleet on one shared network

All machines together. Frames in flight are copies, one for each receiver, and may
be delivered in any order, lost or duplicated. A copy remembers who sent it, from
which group and through which function; this and the log of effects are there for
the statements only, no transition reads them. What the Ethernet carries is what
the gateways give to it; components reach the other processes of their own machine.
-/
namespace CarNetwork.Fleet

open CarNetwork.ByteText CarNetwork.Ethernet CarNetwork.Protocol CarNetwork.Car
open CarNetwork.Conversions

/-- The machines of a run, told apart by their addresses. -/
structure Deployment (V : Type) [DecidableEq V] where
  vms : List V
  complete : ∀ v, v ∈ vms
  nodup : vms.Nodup
  mac : V → Address
  mac_injective : Function.Injective mac
  individual : ∀ v, mac v ≠ Address.BROADCAST
  group : V → UInt8
  isCoordinator : V → Bool
  totalSyncVms : ℤ

inductive Node (V : Type)
  | gateway (v : V)
  | component (v : V) (port : UInt16)
  deriving DecidableEq

namespace Node

variable {V : Type}

/-- The machine a process runs on. -/
def vm : Node V → V
  | gateway v => v
  | component v _ => v

end Node

/-- A copy of a frame on its way to one receiver. -/
structure Flight (V : Type) where
  sender : Node V
  senderGroup : ℤ
  kind : SendKind
  receiver : Node V
  capsule : AsyncCapsule

/-- An effect, the process that had it, that process's group at the time, and the
copy whose delivery caused it. -/
structure Event (V : Type) where
  node : Node V
  group : ℤ
  cause : Option (Flight V)
  effect : Effect

structure State (V : Type) where
  gateways : V → Gateway
  components : V → UInt16 → Option Component
  inFlight : List (Flight V)
  log : List (Event V)

inductive Action (V : Type)
  | gateway (v : V) (a : GatewayAction)
  | forkComponent (v : V) (port : UInt16)
  | joinComponent (v : V) (port : UInt16) (time : UInt64)
  | sendLocal (v : V) (port : UInt16) (s : Bytes) (id time : UInt64)
  | deliver (i : ℕ) (now : ℕ → UInt64) (stray : ℤ → ℤ)
  | lose (i : ℕ)
  | duplicate (i : ℕ)

variable {V : Type} [DecidableEq V] (d : Deployment V)

namespace Deployment

def config (v : V) : Config where
  mac := d.mac v
  vmId := vmIdFromMac (d.mac v)
  groupId := (d.group v).toNat
  isSyncMaster := d.isCoordinator v
  totalSyncVms := d.totalSyncVms

/-- The cars of a group. -/
def cars (g : UInt8) : Finset V :=
  (d.vms.filter fun v => d.group v = g ∧ d.isCoordinator v = false).toFinset

/-- Every group has exactly the number of cars that its barrier waits for. -/
def Balanced : Prop := ∀ v, ((d.cars (d.group v)).card : ℤ) = d.totalSyncVms

/-- Every group has exactly one coordinator. -/
def Coordinated : Prop := ∀ v, ∃! c, d.isCoordinator c = true ∧ d.group c = d.group v

/-- The address that `run_vms.sh` gives a machine. -/
def vmMac (id : UInt8) : Address := ⟨#v[0x52, 0x54, 0x00, 0x12, 0x34, id]⟩

theorem vmMac_ne_broadcast (id : UInt8) : vmMac id ≠ Address.BROADCAST := by
  intro h
  have h0 := congrArg (fun a : Address => a.addr[0]) h
  simp [vmMac, Address.BROADCAST] at h0

/-- The deployment that command lines with these ids start: `main` divides the id by
ten to get the group, and `Car::start` makes the multiples of ten coordinators. -/
def ofVmIds {n : ℕ} (ids : Fin n → UInt8) (hids : ∀ v w, ids v = ids w → v = w) (total : ℤ) :
    Deployment (Fin n) where
  vms := List.finRange n
  complete := List.mem_finRange
  nodup := List.nodup_finRange n
  mac v := vmMac (ids v)
  mac_injective v w h := hids v w (congrArg Address.lastOctet h)
  individual v := vmMac_ne_broadcast (ids v)
  group v := ids v / 10
  isCoordinator v := ids v % 10 == 0
  totalSyncVms := total

@[simp] theorem mem_cars (g : UInt8) (v : V) :
    v ∈ d.cars g ↔ d.group v = g ∧ d.isCoordinator v = false := by
  simp [cars, d.complete]

end Deployment

def initial : State V where
  gateways v := { proto := { address := d.mac v } }
  components _ _ := none
  inFlight := []
  log := []

/-- The processes that `NIC::send` lets a frame reach, and the channel. A frame to the
own address goes to shared memory, any other to the Ethernet, which only the
gateway is connected to. -/
def receivers (node : Node V) (dst : Address) : List (Node V × ChannelOrigin) :=
  if dst = d.mac node.vm then
    ((.gateway node.vm :: componentPorts.map (.component node.vm)).filter (· ≠ node)).map
      (·, .sharedMemory)
  else match node with
    | .component _ _ => []
    | .gateway v =>
      (d.vms.filter fun w => w ≠ v ∧ (dst = Address.BROADCAST ∨ dst = d.mac w)).map
        fun w => (.gateway w, .ethernet)

/-- The copies that an effect puts in flight. -/
def copies (node : Node V) (group : ℤ) : Effect → List (Flight V)
  | .transmit kind src dst payload =>
    (receivers d node dst.mac).map fun r => ⟨node, group, kind, r.1, src, dst, r.2, payload⟩
  | _ => []

/-- Carry out the effects of a process. -/
def perform (s : State V) (node : Node V) (group : ℤ) (cause : Option (Flight V))
    (effects : List Effect) : State V :=
  { s with
    inFlight := s.inFlight ++ effects.flatMap (copies d node group)
    log := s.log ++ effects.map (⟨node, group, cause, ·⟩) }

def setGateway (s : State V) (v : V) (g : Gateway) : State V :=
  { s with gateways := Function.update s.gateways v g }

def setComponent (s : State V) (v : V) (port : UInt16) (p : Option Component) : State V :=
  { s with components := Function.update s.components v (Function.update (s.components v) port p) }

/-- A copy reaches its receiver. -/
def arrive (s : State V) (f : Flight V) (env : Env) : State V :=
  match f.receiver with
  | .gateway v =>
    let (g, effects) := (s.gateways v).deliver env (d.config v) f.capsule
    perform d (setGateway s v g) f.receiver g.proto.currentGroupId (some f) effects
  | .component v port =>
    match s.components v port with
    | none => s
    | some p =>
      match update env p.proto f.capsule with
      | .error _ => setComponent s v port none
      | .ok (proto, effects) =>
        perform d (setComponent s v port (some { p with proto })) f.receiver proto.currentGroupId
          (some f) effects

def step (s : State V) : Action V → Option (State V)
  | .gateway v a =>
    ((s.gateways v).act (d.config v) a).map fun (g, effects) =>
      perform d (setGateway s v g) (.gateway v) g.proto.currentGroupId none effects
  | .forkComponent v port =>
    if (s.gateways v).phase = .running ∧ d.isCoordinator v = false ∧ port ∈ componentPorts ∧
        s.components v port = none then
      some (setComponent s v port (some { proto := initializeCommunicator (d.mac v) port }))
    else none
  | .joinComponent v port time =>
    match s.components v port with
    | none => none
    | some p =>
      if p.joined then none
      else match setCurrentGroup p.proto (d.group v).toNat time with
        | .error _ => some (setComponent s v port none)
        | .ok (proto, effects) =>
          some (perform d (setComponent s v port (some { proto, joined := true }))
            (.component v port)
            proto.currentGroupId none effects)
  | .sendLocal v port text id time =>
    match s.components v port with
    | none => none
    | some p =>
      if p.joined then
        match Car.sendLocal p.proto port text id time with
        | .error _ => some (setComponent s v port none)
        | .ok effects => some (perform d s (.component v port) p.proto.currentGroupId none effects)
      else none
  | .deliver i now stray =>
    match s.inFlight[i]? with
    | none => none
    | some f => some (arrive d { s with inFlight := s.inFlight.eraseIdx i } f { now, stray })
  | .lose i =>
    if i < s.inFlight.length then some { s with inFlight := s.inFlight.eraseIdx i } else none
  | .duplicate i =>
    match s.inFlight[i]? with
    | none => none
    | some f => some { s with inFlight := s.inFlight ++ [f] }

/-- The steps of `Gateway::initialize` up to the barrier. -/
def reachBarrier {n : ℕ} (v : Fin n) : List (Action (Fin n)) :=
  [.gateway v .listen, .gateway v (.joinGroup 0), .gateway v .installCallback,
    .gateway v .setMaster, .gateway v .enableStartSync]

/-- All come to the barrier, each car sends one READY, and the given number of copies is
delivered. -/
def barrierRun (n k : ℕ) : List (Action (Fin (n + 1))) :=
  (List.finRange (n + 1)).flatMap reachBarrier ++
    (List.finRange n).flatMap (fun v => [.gateway v.succ .checkReady,
      .gateway v.succ (.sendReady 0)]) ++
    List.replicate k (.deliver 0 (fun _ => 0) (fun _ => 0))

/-- One coordinator with one car. -/
def oneCar : Deployment (Fin 2) := .ofVmIds ![0, 1] (by decide) 1

/-- Two groups of one coordinator and one car each. -/
def twoGroups : Deployment (Fin 4) := .ofVmIds ![0, 1, 10, 11] (by decide) 1

end CarNetwork.Fleet
