import CarNetwork.ByteText
import CarNetwork.Runs
import Mathlib.Data.Fintype.Card
import Mathlib.Logic.Function.Basic

/-!
# The shared-memory bus

The threads of all processes of a machine on one `SharedData`: a receiver for each
node, and the threads that call `send_msg`. A step is one operation on a mutex, the
condition variable, the barrier or a flag, or one copy. The primitives behave as
POSIX says: a waiter on the condition variable may wake at any time, and the barrier
lets all its threads go when the last of them arrives.
-/
namespace CarNetwork.SharedBus

open CarNetwork.ByteText

def PAYLOAD : ℕ := 1500

/-- An argument of `send_msg`: the callers check that it fits the bus. -/
structure BusMessage where
  bytes : Bytes
  fits : bytes.length ≤ PAYLOAD

/-- The next operation of a thread in `send_msg`, or waiting in the barrier. -/
inductive TxPc
  | idle
  | lockBus
  | setUsing
  | clearBus
  | writeBus
  | writeLen
  | lockCond
  | setAvailable
  | broadcast
  | unlockCond
  | enterBarrier
  | inBarrier
  | relockCond
  | clearAvailable
  | reunlockCond
  | clearUsing
  | unlockBus
  deriving DecidableEq, Repr

/-- The same in `receive_msg_routine`; `handling` is the body of `on_receive_msg`. -/
inductive RxPc
  | lock
  | test
  | sleep
  | relock
  | unlock
  | checkUsing
  | alloc
  | copy
  | enterBarrier
  | inBarrier
  | handOver
  | handling
  deriving DecidableEq, Repr

structure Sender where
  pc : TxPc := .idle
  msg : BusMessage := ⟨[], Nat.zero_le _⟩

/-- The receiver of a node, with the size and the content of its `msg`. -/
structure Receiver where
  pc : RxPc := .lock
  size : ℕ := 0
  msg : Bytes := []

/-- Shared memory, the nodes' flags and all threads. The last three fields record the
order of the messages on the bus, how many `send_msg` have returned, and what each
node's `on_receive_msg` was called with. -/
structure State (V T : Type) where
  busMtx : Option T := none
  condMtx : Option (V ⊕ T) := none
  bus : Bytes := List.replicate PAYLOAD 0
  msgAvailable : Bool := false
  msgLen : ℕ := 0
  arrived : ℕ := 0
  usingBus : V → Bool := fun _ => false
  senders : T → Sender := fun _ => {}
  receivers : V → Receiver := fun _ => {}
  sent : List (V × Bytes) := []
  returned : ℕ := 0
  received : V → List (ℕ × Bytes) := fun _ => []

/-- A thread calls `send_msg`, or a thread executes its next operation. -/
inductive Action (V T : Type)
  | call (t : T) (m : BusMessage)
  | sender (t : T)
  | receiver (i : V)

variable {V T : Type} [DecidableEq V] [DecidableEq T]

namespace State

def setSender (s : State V T) (t : T) (pc : TxPc) : State V T :=
  { s with senders := Function.update s.senders t { s.senders t with pc } }

def setReceiver (s : State V T) (i : V) (r : Receiver) : State V T :=
  { s with receivers := Function.update s.receivers i r }

/-- The barrier opens: who waits in it goes on. -/
def release (s : State V T) : State V T :=
  { s with
    arrived := 0
    senders := fun t =>
      if (s.senders t).pc = .inBarrier then { s.senders t with pc := .relockCond } else s.senders t
    receivers := fun i =>
      if (s.receivers i).pc = .inBarrier then
        { s.receivers i with pc := .handOver }
      else s.receivers i }

/-- `pthread_barrier_wait` by a thread that is now counted as waiting, on a barrier for
`nodesCount + 1` threads. -/
def barrierWait (nodesCount : ℕ) (s : State V T) : State V T :=
  if s.arrived = nodesCount then s.release else { s with arrived := s.arrived + 1 }

end State

section Steps

variable (owner : T → V) (nodesCount : ℕ)

/-- `ShmNode::send_msg`. -/
def sendMsg (s : State V T) (t : T) : Option (State V T) :=
  let msg := (s.senders t).msg.bytes
  match (s.senders t).pc with
  | .idle => none
  | .lockBus =>
    if s.busMtx = none then
      some { s.setSender t .setUsing with busMtx := some t, sent := s.sent ++ [(owner t, msg)] }
    else none
  | .setUsing =>
    some { s.setSender t .clearBus with usingBus := Function.update s.usingBus (owner t) true }
  | .clearBus => some { s.setSender t .writeBus with bus := List.replicate PAYLOAD 0 }
  | .writeBus => some { s.setSender t .writeLen with bus := msg ++ s.bus.drop msg.length }
  | .writeLen => some { s.setSender t .lockCond with msgLen := msg.length }
  | .lockCond =>
    if s.condMtx = none then
      some { s.setSender t .setAvailable with condMtx := some (.inr t) }
    else none
  | .setAvailable => some { s.setSender t .broadcast with msgAvailable := true }
  -- the sleepers it wakes up could have woken up by themselves
  | .broadcast => some (s.setSender t .unlockCond)
  | .unlockCond => some { s.setSender t .enterBarrier with condMtx := none }
  | .enterBarrier => some ((s.setSender t .inBarrier).barrierWait nodesCount)
  | .inBarrier => none
  | .relockCond =>
    if s.condMtx = none then some { s.setSender t .clearAvailable with condMtx := some (.inr t) }
    else none
  | .clearAvailable => some { s.setSender t .reunlockCond with msgAvailable := false }
  | .reunlockCond => some { s.setSender t .clearUsing with condMtx := none }
  | .clearUsing =>
    some { s.setSender t .unlockBus with usingBus := Function.update s.usingBus (owner t) false }
  | .unlockBus => some { s.setSender t .idle with busMtx := none, returned := s.returned + 1 }

/-- `receive_msg_routine`. The length is read three times: for the buffer, for the copy,
and for the call after the barrier. -/
def receiveMsgRoutine (s : State V T) (i : V) : Option (State V T) :=
  let r := s.receivers i
  match r.pc with
  | .lock =>
    if s.condMtx = none then
      some { s.setReceiver i { r with pc := .test } with condMtx := some (.inl i) }
    else none
  | .test =>
    if s.msgAvailable then some (s.setReceiver i { r with pc := .unlock })
    else some { s.setReceiver i { r with pc := .sleep } with condMtx := none }
  | .sleep => some (s.setReceiver i { r with pc := .relock })
  | .relock =>
    if s.condMtx = none then
      some { s.setReceiver i { r with pc := .test } with condMtx := some (.inl i) }
    else none
  | .unlock => some { s.setReceiver i { r with pc := .checkUsing } with condMtx := none }
  | .checkUsing =>
    if s.usingBus i then some (s.setReceiver i { r with pc := .lock })
    else some (s.setReceiver i { r with pc := .alloc })
  | .alloc => some (s.setReceiver i { r with pc := .copy, size := s.msgLen })
  | .copy => some (s.setReceiver i { r with pc := .enterBarrier, msg := s.bus.take s.msgLen })
  | .enterBarrier => some ((s.setReceiver i { r with pc := .inBarrier }).barrierWait nodesCount)
  | .inBarrier => none
  | .handOver =>
    some { s.setReceiver i { r with pc := .handling } with
      received := Function.update s.received i (s.received i ++ [(s.msgLen, r.msg)]) }
  | .handling => some (s.setReceiver i { r with pc := .lock })

def step (s : State V T) : Action V T → Option (State V T)
  | .call t m =>
    if (s.senders t).pc = .idle then
      some { s with senders := Function.update s.senders t { pc := .lockBus, msg := m } }
    else none
  | .sender t => sendMsg owner nodesCount s t
  | .receiver i => receiveMsgRoutine nodesCount s i

end Steps

/-! ## What a node should be handed -/

/-- The messages of others, with their lengths. -/
def expected (i : V) (sent : List (V × Bytes)) : List (ℕ × Bytes) :=
  (sent.filter (·.1 ≠ i)).map fun m => (m.2.length, m.2)

/-- The call of `on_receive_msg` that a receiver is about to make. -/
def inHand (s : State V T) (i : V) : List (ℕ × Bytes) :=
  if (s.receivers i).pc = .handOver then [(s.msgLen, (s.receivers i).msg)] else []

/-- Exactly-once delivery in bus order: a node has been handed the messages of others up
to some point, and has been or is just being handed all whose `send_msg` has
returned. -/
def ExactlyOnce (s : State V T) : Prop :=
  ∀ i, s.received i <+: expected i s.sent ∧
    expected i (s.sent.take s.returned) <+: s.received i ++ inHand s i

end CarNetwork.SharedBus
