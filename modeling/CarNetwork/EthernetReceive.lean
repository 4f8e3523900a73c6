import CarNetwork.Progress
import CarNetwork.Transport

/-!
# The receive thread of the Ethernet engine

The engine asks the kernel for a `SIGIO` when packets come in; the handler only posts a
semaphore, on which the receive thread waits before it empties the socket. A signal that
is already pending is not delivered twice, and one post may stand for many packets.
`sem_wait` is called without a look at its result, so a handler that runs on the
receive thread can end the wait without taking a token.
-/
namespace CarNetwork.Transport

open CarNetwork.ByteText CarNetwork.Ethernet CarNetwork.Runs
open CarNetwork.Fleet.Deployment (vmMac)

/-- Where the receive thread is: not yet created, in `sem_wait`, or inside `on_packet`. -/
inductive RxThread
  | notStarted
  | waiting
  | draining
  deriving DecidableEq

/-- The engine, the socket and the signal. `arrived` records what the socket ever took, and
`early` how much of it came before `O_ASYNC` was set. -/
structure EthernetEngine where
  async : Bool
  rxThread : RxThread
  packetSem : ℕ
  sigio : Bool
  socket : List Bytes
  handed : List Capsule
  arrived : List Bytes
  early : ℕ

namespace EthernetEngine

/-- A socket just opened. -/
def opened : EthernetEngine := ⟨false, .notStarted, 0, false, [], [], [], 0⟩

inductive Action
  /-- The last `fcntl` of the constructor. -/
  | setAsync
  /-- `EngineEthernet::start`. -/
  | start
  /-- The kernel queues a packet. -/
  | arrive (packet : Bytes)
  /-- A signal for another reason, such as room to write. -/
  | otherSignal
  /-- `sigio_handler`; it may end a wait of the receive thread. -/
  | sigioHandler (interrupts : Bool)
  | semWait
  | recvfrom

variable (mac : Address) (etherType : UInt16)

/-- What the layers above make of one packet. -/
def capsuleOf (packet : Bytes) : Option Capsule :=
  receive mac etherType (fun _ => 0) (.ethernet packet)

/-- One step of the thread, the handler or the kernel. -/
def step (s : EthernetEngine) : Action → Option EthernetEngine
  | .setAsync => if s.async then none else some { s with async := true }
  | .start =>
    if s.async ∧ s.rxThread = .notStarted then some { s with rxThread := .waiting } else none
  | .arrive packet => some { s with
      socket := s.socket ++ [packet]
      arrived := s.arrived ++ [packet]
      sigio := s.sigio || s.async
      early := if s.async then s.early else s.early + 1 }
  | .otherSignal => if s.async then some { s with sigio := true } else none
  | .sigioHandler interrupts =>
    if s.sigio then some { s with
      sigio := false
      packetSem := s.packetSem + 1
      rxThread := if interrupts ∧ s.rxThread = .waiting then .draining else s.rxThread }
    else none
  | .semWait =>
    if s.rxThread = .waiting ∧ 0 < s.packetSem then
      some { s with packetSem := s.packetSem - 1, rxThread := .draining }
    else none
  | .recvfrom =>
    if s.rxThread = .draining then
      match s.socket with
      | [] => some { s with rxThread := .waiting }
      | packet :: rest => some { s with
          socket := rest
          handed := s.handed ++ (capsuleOf mac etherType packet).toList }
    else none

/-- The engine's own steps: no packet comes in and nothing else raises the signal. -/
def Action.own : Action → Bool
  | .sigioHandler _ | .semWait | .recvfrom => true
  | _ => false

/-! ## What the thread hands up, and when it is woken -/

/-- `taken` is what the thread has read so far. -/
structure Inv (s : EthernetEngine) (taken : List Bytes) : Prop where
  arrived : s.arrived = taken ++ s.socket
  handed : s.handed = taken.filterMap (capsuleOf mac etherType)
  early : s.async = false → s.arrived.length = s.early
  started : s.rxThread ≠ .notStarted → s.async = true
  woken : s.rxThread ≠ .draining → s.socket ≠ [] → s.early < s.arrived.length →
    s.sigio = true ∨ 0 < s.packetSem

variable {mac etherType} {s t : EthernetEngine} {taken : List Bytes} {a : Action}

theorem inv_opened : Inv mac etherType opened [] :=
  ⟨rfl, rfl, fun _ => rfl, fun h => absurd rfl h, fun _ h => absurd rfl h⟩

theorem Inv.next (h : Inv mac etherType s taken) (hstep : step mac etherType s a = some t) :
    ∃ taken', Inv mac etherType t taken' := by
  obtain ⟨harrived, hhanded, hearly, hstarted, hwoken⟩ := h
  cases a with
  | setAsync =>
    simp only [EthernetEngine.step] at hstep
    split at hstep
    · cases hstep
    · rename_i hasync
      obtain rfl := Option.some.inj hstep
      refine ⟨taken, harrived, hhanded, fun h => by simp at h, fun _ => rfl, fun _ _ hlt => ?_⟩
      have : s.arrived.length = s.early := hearly (by simpa using hasync)
      exact absurd hlt (by simp only; omega)
  | start =>
    simp only [EthernetEngine.step, Option.ite_none_right_eq_some, Option.some.injEq] at hstep
    obtain ⟨⟨hasync, hns⟩, rfl⟩ := hstep
    exact ⟨taken, harrived, hhanded, hearly, fun _ => hasync, fun _ => hwoken (by simp [hns])⟩
  | arrive packet =>
    obtain rfl := Option.some.inj hstep
    refine ⟨taken, by simp [harrived], hhanded, fun hasync => ?_, hstarted, fun _ _ hlt => ?_⟩
    · simp only at hasync
      simp [hasync, hearly hasync]
    · -- a packet that is not early raises the signal
      cases hasync : s.async with
      | true => simp
      | false => simp [hasync, hearly hasync] at hlt
  | otherSignal =>
    simp only [EthernetEngine.step, Option.ite_none_right_eq_some, Option.some.injEq] at hstep
    obtain ⟨-, rfl⟩ := hstep
    exact ⟨taken, harrived, hhanded, hearly, hstarted, fun _ _ _ => .inl rfl⟩
  | sigioHandler interrupts =>
    simp only [EthernetEngine.step, Option.ite_none_right_eq_some, Option.some.injEq] at hstep
    obtain ⟨-, rfl⟩ := hstep
    refine ⟨taken, harrived, hhanded, hearly, fun hne => hstarted fun hns => hne ?_,
      fun _ _ _ => .inr (Nat.succ_pos _)⟩
    simp [hns]
  | semWait =>
    simp only [EthernetEngine.step, Option.ite_none_right_eq_some, Option.some.injEq] at hstep
    obtain ⟨⟨hw, -⟩, rfl⟩ := hstep
    exact ⟨taken, harrived, hhanded, hearly, fun _ => hstarted (by simp [hw]),
      fun hne => absurd rfl hne⟩
  | recvfrom =>
    simp only [EthernetEngine.step, Option.ite_none_right_eq_some] at hstep
    obtain ⟨hdrain, hstep⟩ := hstep
    have hasync := hstarted (by simp [hdrain])
    split at hstep
    · rename_i hempty
      obtain rfl := Option.some.inj hstep
      exact ⟨taken, harrived, hhanded, hearly, fun _ => hasync, fun _ hne => absurd hempty hne⟩
    · rename_i packet rest hsocket
      obtain rfl := Option.some.inj hstep
      refine ⟨taken ++ [packet], by simp [harrived, hsocket], ?_, hearly, fun _ => hasync,
        fun hne => absurd hdrain hne⟩
      cases hc : capsuleOf mac etherType packet <;> simp [hhanded, hc]

theorem inv_of_reachable (h : Reachable (step mac etherType) opened s) :
    ∃ taken, Inv mac etherType s taken :=
  h.invariant (fun s => ∃ taken, Inv mac etherType s taken) ⟨[], inv_opened⟩
    fun _ _ _ ⟨_, hI⟩ _ hu => hI.next hu

/-! ## The thread always empties the socket -/

/-- What is left to do. A pending signal is worth a post and the round that a handler on the
receive thread may start at once. -/
def pending (s : EthernetEngine) : ℕ :=
  (if s.sigio then 4 else 0) + 2 * s.packetSem + (if s.rxThread = .draining then 1 else 0) +
    s.socket.length

theorem pending_lt (hown : a.own = true) (hstep : step mac etherType s a = some t) :
    t.pending < s.pending := by
  cases a with
  | sigioHandler interrupts =>
    simp only [EthernetEngine.step, Option.ite_none_right_eq_some, Option.some.injEq] at hstep
    obtain ⟨hsig, rfl⟩ := hstep
    simp only [pending, hsig, if_true, Bool.false_eq_true, if_false]
    split_ifs <;> omega
  | semWait =>
    simp only [EthernetEngine.step, Option.ite_none_right_eq_some, Option.some.injEq] at hstep
    obtain ⟨⟨hw, hsem⟩, rfl⟩ := hstep
    simp only [pending, hw, if_true, reduceCtorEq, if_false]
    omega
  | recvfrom =>
    simp only [EthernetEngine.step, Option.ite_none_right_eq_some] at hstep
    obtain ⟨hdrain, hstep⟩ := hstep
    split at hstep
    · rename_i hempty
      obtain rfl := Option.some.inj hstep
      simp [pending, hdrain, hempty]
    · rename_i packet rest hsocket
      obtain rfl := Option.some.inj hstep
      simp [pending, hdrain, hsocket]
  | setAsync | start | arrive | otherSignal => simp [Action.own] at hown

/-- An engine with nothing left to do has read everything, if any packet came after the
signal was asked for. -/
theorem Inv.socket_eq_nil (h : Inv mac etherType s taken)
    (hset : Settled Action.own (step mac etherType) s) (hrun : s.rxThread ≠ .notStarted)
    (hlate : s.early < s.arrived.length) : s.socket = [] := by
  have hsig : s.sigio ≠ true := fun hsig => by
    simpa [EthernetEngine.step, hsig] using hset (.sigioHandler false) rfl
  have hnot : s.rxThread ≠ .draining := fun hdrain => by
    have := hset .recvfrom rfl
    simp only [EthernetEngine.step, hdrain, if_true] at this
    split at this <;> cases this
  have hw : s.rxThread = .waiting := by
    cases hthread : s.rxThread <;> simp_all
  have hsem : ¬ 0 < s.packetSem := fun hsem => by
    simpa [EthernetEngine.step, hw, hsem] using hset .semWait rfl
  by_contra hne
  exact (h.woken hnot hne hlate).elim hsig hsem

/-- The engine's own steps take nothing in and leave a started thread started. -/
theorem own_frame (hown : a.own = true) (hstep : step mac etherType s a = some t) :
    t.arrived = s.arrived ∧ t.early = s.early ∧
      (s.rxThread ≠ .notStarted → t.rxThread ≠ .notStarted) := by
  cases a with
  | sigioHandler interrupts =>
    simp only [EthernetEngine.step, Option.ite_none_right_eq_some, Option.some.injEq] at hstep
    obtain ⟨-, rfl⟩ := hstep
    refine ⟨rfl, rfl, fun hrun => ?_⟩
    dsimp only
    split
    · simp
    · exact hrun
  | semWait =>
    simp only [EthernetEngine.step, Option.ite_none_right_eq_some, Option.some.injEq] at hstep
    obtain ⟨-, rfl⟩ := hstep
    simp
  | recvfrom =>
    simp only [EthernetEngine.step, Option.ite_none_right_eq_some] at hstep
    obtain ⟨hdrain, hstep⟩ := hstep
    split at hstep <;> obtain rfl := Option.some.inj hstep <;> simp [hdrain]
  | setAsync | start | arrive | otherSignal => simp [Action.own] at hown

/-- The receive thread neither loses nor repeats nor reorders a packet, and never sleeps on
one that raised the signal: whatever came in, and however the handler and the thread have
been interleaved, the two come to rest after finitely many steps, and the protocol has then
been given exactly what the packets hold, in the order of their arrival. -/
theorem receives_everything (hreach : Reachable (step mac etherType) opened s)
    (hrun : s.rxThread ≠ .notStarted) (hlate : s.early < s.arrived.length) :
    (∃ n, s.handed = (s.arrived.take n).filterMap (capsuleOf mac etherType) ∧
      s.socket = s.arrived.drop n) ∧
    (∀ as t, run (only Action.own (step mac etherType)) s as = some t → as.length ≤ s.pending) ∧
    (∃ t, Reachable (only Action.own (step mac etherType)) s t ∧
      Settled Action.own (step mac etherType) t) ∧
    ∀ t, Reachable (only Action.own (step mac etherType)) s t → Settled Action.own
      (step mac etherType) t →
      t.handed = s.arrived.filterMap (capsuleOf mac etherType) := by
  have hinv := inv_of_reachable hreach
  have hless : ∀ t a u, (∃ taken, Inv mac etherType t taken) → Action.own a = true →
      step mac etherType t a = some u → (∃ taken, Inv mac etherType u taken) ∧
        u.pending < t.pending :=
    fun t a u ⟨_, hI⟩ hown hu => ⟨hI.next hu, pending_lt hown hu⟩
  obtain ⟨hbound, hsettles⟩ := settles _ pending hless hinv
  refine ⟨?_, fun as t has => (hbound as t has).1, hsettles, fun t hr hset => ?_⟩
  · obtain ⟨taken, hI⟩ := hinv
    exact ⟨taken.length, by simp [hI.arrived, hI.handed]⟩
  · have hkept : (∃ taken, Inv mac etherType t taken) ∧ t.arrived = s.arrived ∧ t.early = s.early ∧
        t.rxThread ≠ .notStarted := by
      refine hr.invariant (fun t => (∃ taken, Inv mac etherType t taken) ∧ t.arrived = s.arrived ∧
        t.early = s.early ∧ t.rxThread ≠ .notStarted) ⟨hinv, rfl, rfl, hrun⟩ ?_
      rintro t a u ⟨⟨_, hI⟩, harr, hearly, hst⟩ - hu
      obtain ⟨hown, hu⟩ := only_eq_some.mp hu
      obtain ⟨harr', hearly', hst'⟩ := own_frame hown hu
      exact ⟨hI.next hu, harr'.trans harr, hearly'.trans hearly, hst' hst⟩
    obtain ⟨⟨taken, hI⟩, harr, hearly, hst⟩ := hkept
    have hempty := hI.socket_eq_nil hset hst (by rw [hearly, harr]; exact hlate)
    rw [hI.handed, ← harr, hI.arrived, hempty, List.append_nil]

/-- A packet for the machine 1 from machine 20. -/
def aPacket : Bytes := addressBytes (vmMac 1) ++ (addressBytes (vmMac 20) ++
  ([0x88, 0xb5] ++ packetBytes ⟨vmMac 20, 1⟩ ⟨vmMac 1, 2⟩ [72, 105]))

/-- Two packets and a signal that stands for both. -/
def twoArrived : EthernetEngine :=
  ⟨true, .waiting, 0, true, [aPacket, aPacket], [], [aPacket, aPacket], 0⟩

theorem two_packets_one_signal : twoArrived.pending = 6 ∧
    ∀ t, Reachable (only Action.own (step (vmMac 1) 0x88b5)) twoArrived t →
      Settled Action.own (step (vmMac 1) 0x88b5) t →
      t.handed = [aPacket, aPacket].filterMap (capsuleOf (vmMac 1) 0x88b5) :=
  ⟨rfl, (receives_everything (reachable_of_run [.setAsync, .start, .arrive aPacket,
    .arrive aPacket] rfl)
    (by decide) (by decide)).2.2.2⟩

/-- The condition on late packets is needed: those queued before `O_ASYNC` was set raise no
signal, and the thread, once started, sleeps on them until something else comes in. -/
theorem early_packets_wait (packets : List Bytes) :
    ∃ s, Reachable (step mac etherType) opened s ∧ s.rxThread ≠ .notStarted ∧ s.socket = packets ∧
      Settled Action.own (step mac etherType) s := by
  have hearly : Reachable (step mac etherType) opened
      ⟨false, .notStarted, 0, false, packets, [], packets, packets.length⟩ := by
    induction packets using List.reverseRecOn with
    | nil => exact .refl
    | append_singleton packets packet ih =>
      exact ih.tail (a := .arrive packet) trivial (by simp [EthernetEngine.step])
  refine ⟨⟨true, .waiting, 0, false, packets, [], packets, packets.length⟩, ?_, by simp, rfl, ?_⟩
  · exact (hearly.tail (a := .setAsync) trivial rfl).tail (a := .start) trivial rfl
  · intro a hown
    cases a with
    | sigioHandler | semWait | recvfrom => simp [EthernetEngine.step]
    | setAsync | start | arrive | otherSignal => simp [Action.own] at hown

end EthernetEngine

end CarNetwork.Transport
