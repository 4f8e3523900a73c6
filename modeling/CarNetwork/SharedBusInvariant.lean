import CarNetwork.SharedBus
import Mathlib.Tactic

/-!
# Exactly-once delivery on the shared-memory bus

The bus mutex makes one sender at a time the holder of the bus, and what a receiver may
do depends on how far the holder has got. The message is live from the moment it
is announced until the barrier opens. Two races break the protocol, and without
them it is right: a receiver that passes its `using_bus` test when no message is
live, and a sender that stores its length before a receiver that has left the
barrier has read the old one.
-/
namespace CarNetwork.SharedBus

open CarNetwork.ByteText CarNetwork.Runs

namespace TxPc

/-- The thread owns `bus_mtx`. -/
def holds : TxPc → Bool
  | idle | lockBus => false
  | _ => true

/-- `using_bus` is set. -/
def usesBus : TxPc → Bool
  | idle | lockBus | setUsing | unlockBus => false
  | _ => true

/-- The bus holds the message. -/
def stored : TxPc → Bool
  | idle | lockBus | setUsing | clearBus | writeBus => false
  | _ => true

/-- And `msg_len` its length. -/
def written : TxPc → Bool
  | idle | lockBus | setUsing | clearBus | writeBus | writeLen => false
  | _ => true

/-- The message has been announced and not been released by the barrier. -/
def live : TxPc → Bool
  | broadcast | unlockCond | enterBarrier | inBarrier => true
  | _ => false

/-- The barrier has opened for the message. -/
def released : TxPc → Bool
  | relockCond | clearAvailable | reunlockCond | clearUsing | unlockBus => true
  | _ => false

end TxPc

namespace RxPc

/-- Past the `using_bus` test and not yet out of the barrier. -/
def reading : RxPc → Bool
  | alloc | copy | enterBarrier | inBarrier => true
  | _ => false

/-- The copy has been made. -/
def copied : RxPc → Bool
  | enterBarrier | inBarrier => true
  | _ => false

end RxPc

/-- The holder of the bus as the receivers see it. -/
structure Holder (V : Type) where
  node : V
  pc : TxPc
  msg : Bytes

variable {V T : Type}

def Holder.entry (h : Holder V) : V × Bytes := (h.node, h.msg)

/-- The holder of the bus mutex. -/
def view (owner : T → V) (s : State V T) : Option (Holder V) :=
  s.busMtx.map fun t => ⟨owner t, (s.senders t).pc, (s.senders t).msg.bytes⟩

/-- Exactly the holder of the mutex is inside `send_msg` past its lock. -/
def Owned (s : State V T) : Prop := ∀ t, (s.senders t).pc.holds = true ↔ s.busMtx = some t

theorem view_of_holds (owner : T → V) {s : State V T} (ho : Owned s) {t : T}
    (ht : (s.senders t).pc.holds = true) :
    view owner s = some ⟨owner t, (s.senders t).pc, (s.senders t).msg.bytes⟩ := by
  rw [view, (ho t).mp ht]
  rfl

/-- A step of one sender that leaves the mutex, the receivers and the barrier alone. -/
structure SenderMoves [DecidableEq T] (s s' : State V T) (t : T) (pc : TxPc) : Prop where
  busMtx : s'.busMtx = s.busMtx := by rfl
  senders : s'.senders = Function.update s.senders t { s.senders t with pc } := by rfl
  receivers : s'.receivers = s.receivers := by rfl
  arrived : s'.arrived = s.arrived := by rfl

/-- The holder moves on and stays the holder. -/
theorem owned_of_move [DecidableEq T] (owner : T → V) {s s' : State V T} {t : T} {pc : TxPc}
    (ho : Owned s) (ht : (s.senders t).pc.holds = true) (hpc : pc.holds = true)
    (hm : SenderMoves s s' t pc) :
    Owned s' ∧ view owner s' = some ⟨owner t, pc, (s.senders t).msg.bytes⟩ := by
  obtain ⟨hmtx, hsenders, -, -⟩ := hm
  have howned : Owned s' := by
    intro u
    by_cases hu : u = t
    · subst hu
      simpa [hsenders, hmtx, hpc] using (ho u).mp ht
    · simpa [hsenders, hmtx, hu] using ho u
  refine ⟨howned, ?_⟩
  have hpc' : (s'.senders t).pc.holds = true := by simpa [hsenders] using hpc
  rw [view_of_holds owner howned hpc']
  simp [hsenders]

/-- The messages that the barrier has released: `past`, and the holder's when it has. -/
def done (past : List (V × Bytes)) : Option (Holder V) → List (V × Bytes)
  | none => past
  | some h => if h.pc.released then past ++ [h.entry] else past

/-- The holder in the barrier, as a number of threads. -/
def waiting : Option (Holder V) → ℕ
  | none => 0
  | some h => if h.pc = .inBarrier then 1 else 0

variable [DecidableEq V]

/-- The receivers, the bus and the history agree with the holder. -/
structure BusInv (s : State V T) (holder : Option (Holder V)) (past : List (V × Bytes)) : Prop where
  usingBus : ∀ i, s.usingBus i = true ↔ ∃ h ∈ holder, h.pc.usesBus = true ∧ h.node = i
  stored : ∀ h ∈ holder, h.pc.stored = true → s.bus.take h.msg.length = h.msg
  length : ∀ h ∈ holder, h.pc.written = true → s.msgLen = h.msg.length
  reading : ∀ i, (s.receivers i).pc.reading = true → ∃ h ∈ holder, h.pc.live = true ∧ h.node ≠ i
  copied : ∀ h ∈ holder, ∀ i, (s.receivers i).pc.copied = true → (s.receivers i).msg = h.msg
  sent : s.sent = past ++ (holder.map Holder.entry).toList
  returned : s.returned = past.length
  history : ∀ i, expected i (done past holder) = s.received i ++ inHand s i

section Expected

theorem expected_append (i : V) (l₁ l₂ : List (V × Bytes)) :
    expected i (l₁ ++ l₂) = expected i l₁ ++ expected i l₂ := by
  simp [expected]

theorem expected_mono (i : V) {l₁ l₂ : List (V × Bytes)} (h : l₁ <+: l₂) :
    expected i l₁ <+: expected i l₂ := by
  obtain ⟨l, rfl⟩ := h
  rw [expected_append]
  exact List.prefix_append _ _

/-- The invariant is what exactly-once delivery asks for. -/
theorem BusInv.exactlyOnce {s : State V T} {holder : Option (Holder V)} {past : List (V × Bytes)}
    (hi : BusInv s holder past) : ExactlyOnce s := by
  have hdone : done past holder <+: s.sent := by
    rw [hi.sent]
    cases holder with
    | none => simp [done]
    | some h =>
      simp only [done, Option.map_some, Option.toList_some]
      split
      · exact List.prefix_rfl
      · exact List.prefix_append _ _
  have hpast : past <+: done past holder := by
    cases holder with
    | none => exact List.prefix_rfl
    | some h =>
      simp only [done]
      split
      · exact List.prefix_append _ _
      · exact List.prefix_rfl
  intro i
  constructor
  · have hreceived : s.received i <+: expected i (done past holder) := by
      rw [hi.history i]
      exact List.prefix_append _ _
    exact hreceived.trans (expected_mono i hdone)
  · rw [hi.sent, hi.returned, List.take_left, ← hi.history i]
    exact expected_mono i hpast

end Expected

/-! ## Steps of the holder -/

section Holder

variable {s s' : State V T} {h : Holder V} {past : List (V × Bytes)} {pc : TxPc}

/-- The receivers and the records of what was sent and handed over have not changed. -/
structure SameHistory (s s' : State V T) : Prop where
  receivers : s'.receivers = s.receivers := by rfl
  sent : s'.sent = s.sent := by rfl
  returned : s'.returned = s.returned := by rfl
  received : s'.received = s.received := by rfl

/-- Nothing that the invariant speaks of has changed but the holder. -/
structure SameBus (s s' : State V T) : Prop extends SameHistory s s' where
  usingBus : s'.usingBus = s.usingBus := by rfl
  bus : s'.bus = s.bus := by rfl
  msgLen : s'.msgLen = s.msgLen := by rfl

/-- Going from `p` to `pc` needs no operation on the bus. -/
structure TxPc.Silent (p pc : TxPc) : Prop where
  usesBus : pc.usesBus = p.usesBus := by rfl
  stored : pc.stored = true → p.stored = true := by decide
  written : pc.written = true → p.written = true := by decide
  live : p.live = true → pc.live = true := by decide
  released : pc.released = p.released := by rfl

/-- The holder goes on without touching the bus. -/
theorem BusInv.advance (hi : BusInv s (some h) past) (hs : SameBus s s') (hpcs : h.pc.Silent pc) :
    BusInv s' (some { h with pc }) past where
  usingBus i := by simpa [hs.usingBus, hpcs.usesBus] using hi.usingBus i
  stored := by
    rintro _ ⟨⟩ hpc
    rw [hs.bus]
    exact hi.stored h rfl (hpcs.stored hpc)
  length := by
    rintro _ ⟨⟩ hpc
    rw [hs.msgLen]
    exact hi.length h rfl (hpcs.written hpc)
  reading i hr := by
    rw [hs.receivers] at hr
    obtain ⟨_, ⟨⟩, hl, hne⟩ := hi.reading i hr
    exact ⟨_, rfl, hpcs.live hl, hne⟩
  copied := by
    rintro _ ⟨⟩ i hr
    rw [hs.receivers] at hr ⊢
    exact hi.copied h rfl i hr
  sent := by rw [hs.sent]; exact hi.sent
  returned := by rw [hs.returned]; exact hi.returned
  history i := by
    have := hi.history i
    simp only [done, inHand, hpcs.released, hs.received, hs.receivers, hs.msgLen] at this ⊢
    exact this

/-- While the holder's message is not live nobody is past the `using_bus` test. -/
theorem BusInv.not_reading (hi : BusInv s (some h) past) (hlive : h.pc.live = false) (i : V) :
    (s.receivers i).pc.reading = false := by
  by_contra hr
  obtain ⟨_, ⟨⟩, hl, -⟩ := hi.reading i (by simpa using hr)
  rw [hlive] at hl
  cases hl

theorem reading_of_copied {r : RxPc} (h : r.copied = true) : r.reading = true := by
  cases r <;> first | rfl | cases h

/-- The holder writes to the bus, or to its flag, while nobody reads. -/
theorem BusInv.write (hi : BusInv s (some h) past) (hlive : h.pc.live = false)
    (hs : SameHistory s s') (hreleased : pc.released = h.pc.released)
    (husing : ∀ i, s'.usingBus i = true ↔ pc.usesBus = true ∧ h.node = i)
    (hstored : pc.stored = true → s'.bus.take h.msg.length = h.msg)
    (hlength : pc.written = true → s'.msgLen = h.msg.length)
    (hhand : ∀ i, inHand s' i = inHand s i) : BusInv s' (some { h with pc }) past where
  usingBus i := by simpa using husing i
  stored := by
    rintro _ ⟨⟩
    exact hstored
  length := by
    rintro _ ⟨⟩
    exact hlength
  reading i hr := by
    rw [hs.receivers, hi.not_reading hlive i] at hr
    cases hr
  copied := by
    rintro _ ⟨⟩ i hr
    have hr := reading_of_copied hr
    rw [hs.receivers, hi.not_reading hlive i] at hr
    cases hr
  sent := by rw [hs.sent]; exact hi.sent
  returned := by rw [hs.returned]; exact hi.returned
  history i := by
    rw [hs.received, hhand, ← hi.history i]
    simp only [done, hreleased]
    rfl

/-- The bus is taken. -/
theorem BusInv.lock (hi : BusInv s none past) (hreceivers : s'.receivers = s.receivers)
    (husing : s'.usingBus = s.usingBus) (hlen : s'.msgLen = s.msgLen)
    (hsent : s'.sent = s.sent ++ [h.entry]) (hreturned : s'.returned = s.returned)
    (hreceived : s'.received = s.received) (hpc : h.pc = .setUsing) : BusInv s' (some h) past where
  usingBus i := by
    rw [husing]
    simpa [hpc, TxPc.usesBus] using hi.usingBus i
  stored := by
    rintro _ ⟨⟩ hst
    rw [hpc] at hst
    cases hst
  length := by
    rintro _ ⟨⟩ hst
    rw [hpc] at hst
    cases hst
  reading i hr := by
    rw [hreceivers] at hr
    obtain ⟨_, ⟨⟩, -⟩ := hi.reading i hr
  copied := by
    rintro _ ⟨⟩ i hr
    have hr := reading_of_copied hr
    rw [hreceivers] at hr
    obtain ⟨_, ⟨⟩, -⟩ := hi.reading i hr
  sent := by
    rw [hsent, hi.sent]
    simp
  returned := by rw [hreturned]; exact hi.returned
  history i := by
    have := hi.history i
    simp only [done, inHand, hreceived, hreceivers, hlen, hpc, TxPc.released] at this ⊢
    exact this

/-- The bus is given back. -/
theorem BusInv.unlock (hi : BusInv s (some h) past) (hreceivers : s'.receivers = s.receivers)
    (husing : s'.usingBus = s.usingBus) (hlen : s'.msgLen = s.msgLen) (hsent : s'.sent = s.sent)
    (hreturned : s'.returned = s.returned + 1) (hreceived : s'.received = s.received)
    (hpc : h.pc = .unlockBus) : BusInv s' none (past ++ [h.entry]) where
  usingBus i := by
    rw [husing]
    simpa [hpc, TxPc.usesBus] using hi.usingBus i
  stored := by simp
  length := by simp
  reading i hr := by
    rw [hreceivers, hi.not_reading (by rw [hpc]; rfl) i] at hr
    cases hr
  copied := by simp
  sent := by
    rw [hsent, hi.sent]
    simp
  returned := by
    rw [hreturned, hi.returned]
    simp
  history i := by
    have := hi.history i
    simp only [done, inHand, hreceived, hreceivers, hlen, hpc, TxPc.released] at this ⊢
    exact this

end Holder

/-! ## Steps of a receiver, and the barrier -/

section Receiver

variable {s s' : State V T} {holder : Option (Holder V)} {past : List (V × Bytes)}
  {i : V} {r : Receiver}

/-- A step of one receiver that leaves the bus and the senders alone. -/
structure ReceiverMoves (s s' : State V T) (i : V) (r : Receiver) : Prop where
  receivers : s'.receivers = Function.update s.receivers i r := by rfl
  busMtx : s'.busMtx = s.busMtx := by rfl
  senders : s'.senders = s.senders := by rfl
  arrived : s'.arrived = s.arrived := by rfl
  usingBus : s'.usingBus = s.usingBus := by rfl
  bus : s'.bus = s.bus := by rfl
  msgLen : s'.msgLen = s.msgLen := by rfl
  sent : s'.sent = s.sent := by rfl
  returned : s'.returned = s.returned := by rfl

/-- What is asked of the new state of the receiver. -/
theorem BusInv.receive (hi : BusInv s holder past) (hm : ReceiverMoves s s' i r)
    (hreceived : ∀ j, j ≠ i → s'.received j = s.received j)
    (hreading : r.pc.reading = true → ∃ h ∈ holder, h.pc.live = true ∧ h.node ≠ i)
    (hcopied : ∀ h ∈ holder, r.pc.copied = true → r.msg = h.msg)
    (hhand : s'.received i ++ inHand s' i = s.received i ++ inHand s i) :
    BusInv s' holder past where
  usingBus := by rw [hm.usingBus]; exact hi.usingBus
  stored := by rw [hm.bus]; exact hi.stored
  length := by rw [hm.msgLen]; exact hi.length
  reading j := by
    by_cases hj : j = i
    · subst hj
      simpa [hm.receivers] using hreading
    · simpa [hm.receivers, hj] using hi.reading j
  copied h hh j := by
    by_cases hj : j = i
    · subst hj
      simpa [hm.receivers] using hcopied h hh
    · simpa [hm.receivers, hj] using hi.copied h hh j
  sent := by rw [hm.sent]; exact hi.sent
  returned := by rw [hm.returned]; exact hi.returned
  history j := by
    by_cases hj : j = i
    · subst hj
      rw [hhand]
      exact hi.history j
    · have := hi.history j
      simp only [inHand, hreceived j hj, hm.receivers, Function.update_of_ne hj,
        hm.msgLen] at this ⊢
      exact this

/-- A receiver between the hand-over of a message and the `using_bus` test of the next. -/
def RxPc.quiet : RxPc → Bool
  | .lock | .test | .sleep | .relock | .unlock | .checkUsing | .handling => true
  | _ => false

theorem RxPc.of_quiet {p : RxPc} (h : p.quiet = true) :
    p.reading = false ∧ p.copied = false ∧ p ≠ .handOver ∧ p ≠ .inBarrier := by
  cases p <;> first | (cases h; done) | exact ⟨rfl, rfl, by simp, by simp⟩

theorem BusInv.quiet (hi : BusInv s holder past) (hm : ReceiverMoves s s' i r)
    (hreceived : s'.received = s.received) (hpc : (s.receivers i).pc.quiet = true)
    (hpc' : r.pc.quiet = true) : BusInv s' holder past := by
  obtain ⟨-, -, hno, -⟩ := RxPc.of_quiet hpc
  obtain ⟨hreading, hcopied, hno', -⟩ := RxPc.of_quiet hpc'
  refine hi.receive hm (fun _ _ => by rw [hreceived]) (by simp [hreading]) (by simp [hcopied]) ?_
  simp [inHand, hreceived, hm.receivers, hno, hno']

variable [Fintype V]

/-- The receivers in the barrier. -/
def inside (s : State V T) : Finset V := Finset.univ.filter fun i => (s.receivers i).pc = .inBarrier

omit [DecidableEq V] in
@[simp]
theorem mem_inside {i : V} : i ∈ inside s ↔ (s.receivers i).pc = .inBarrier := by
  simp [inside]

/-- The barrier counts the threads that wait in it. -/
def Counted (s : State V T) (holder : Option (Holder V)) : Prop :=
  s.arrived = (inside s).card + waiting holder

/-- The barrier is full when the holder and all other nodes are in it. -/
theorem full_barrier {h : Holder V} (hi : BusInv s (some h) past)
    (hfull : (inside s).card + waiting (some h) = Fintype.card V) :
    h.pc = .inBarrier ∧ ∀ i, (s.receivers i).pc = .inBarrier ↔ i ≠ h.node := by
  have hsub : inside s ⊆ Finset.univ.erase h.node := by
    intro i hin
    obtain ⟨_, ⟨⟩, -, hne⟩ := hi.reading i (by rw [mem_inside.mp hin]; rfl)
    exact Finset.mem_erase.mpr ⟨hne.symm, Finset.mem_univ i⟩
  have hcard : (Finset.univ.erase h.node).card + 1 = Fintype.card V :=
    Finset.card_erase_add_one (Finset.mem_univ _)
  have hle := Finset.card_le_card hsub
  have hwaiting : waiting (some h) ≤ 1 := by
    simp only [waiting]
    split <;> omega
  have hin : h.pc = .inBarrier := by
    by_contra hno
    simp only [waiting, if_neg hno] at hfull
    omega
  have heq : inside s = Finset.univ.erase h.node := Finset.eq_of_subset_of_card_le hsub (by omega)
  refine ⟨hin, fun i => ?_⟩
  have : i ∈ inside s ↔ i ∈ Finset.univ.erase h.node := by rw [heq]
  simpa using this

/-- The barrier opens: every node but the sender's has the message in hand. -/
theorem BusInv.release {h : Holder V} (hi : BusInv s (some h) past)
    (hfull : (inside s).card + waiting (some h) = Fintype.card V) :
    BusInv s.release (some { h with pc := .relockCond }) past ∧
    Counted s.release (some { h with pc := .relockCond }) := by
  obtain ⟨hpc, hall⟩ := full_barrier hi hfull
  have hpcs : ∀ i, (s.release.receivers i).pc ≠ .inBarrier ∧
      (s.release.receivers i).pc.reading = false := by
    intro i
    by_cases hin : (s.receivers i).pc = .inBarrier
    · simp [State.release, hin, RxPc.reading]
    · have hnode : i = h.node := by
        by_contra hne
        exact hin ((hall i).mpr hne)
      have hno : (s.receivers i).pc.reading = false := by
        by_contra hr
        obtain ⟨_, ⟨⟩, -, hne⟩ := hi.reading i (by simpa using hr)
        exact hne hnode.symm
      simp [State.release, hin, hno]
  refine ⟨?_, ?_⟩
  · refine ⟨fun i => ?_, ?_, ?_, fun i hr => ?_, ?_, hi.sent, hi.returned, fun i => ?_⟩
    · have := hi.usingBus i
      simpa [State.release, hpc, TxPc.usesBus] using this
    · rintro _ ⟨⟩ -
      exact hi.stored h rfl (by rw [hpc]; rfl)
    · rintro _ ⟨⟩ -
      exact hi.length h rfl (by rw [hpc]; rfl)
    · rw [(hpcs i).2] at hr
      cases hr
    · rintro _ ⟨⟩ i hr
      have hr := reading_of_copied hr
      rw [(hpcs i).2] at hr
      cases hr
    · have hbefore := hi.history i
      simp only [done, hpc, TxPc.released, Bool.false_eq_true, if_false] at hbefore
      simp only [done, TxPc.released, if_true, expected_append, hbefore]
      by_cases hnode : i = h.node
      · -- the sender's own node: nothing is added and nothing comes into its hand
        subst hnode
        have hin : (s.receivers h.node).pc ≠ .inBarrier := fun hin => (hall _).mp hin rfl
        simp [State.release, inHand, hin, expected, Holder.entry]
      · have hin := (hall i).mpr hnode
        have hmsg := hi.copied h rfl i (by rw [hin]; rfl)
        have hlen := hi.length h rfl (by rw [hpc]; rfl)
        simp [State.release, inHand, hin, expected, Holder.entry, Ne.symm hnode, hmsg, hlen]
  · have hnone : inside s.release = ∅ :=
      Finset.filter_eq_empty_iff.mpr fun i _ => (hpcs i).1
    rw [Counted, hnone]
    rfl

end Receiver

/-! ## The invariant of the bus -/

section Invariant

variable [Fintype V] {owner : T → V} {nodesCount : ℕ} {s s' : State V T}

structure Inv (owner : T → V) (s : State V T) : Prop where
  owned : Owned s
  bus : ∃ past, BusInv s (view owner s) past
  counted : Counted s (view owner s)

/-- A thread joins the barrier. -/
theorem inv_barrierWait {past : List (V × Bytes)} {h : Holder V}
    (hcard : Fintype.card V = nodesCount + 1) (ho : Owned s) (hview : view owner s = some h)
    (hb : BusInv s (some h) past)
    (hcount : s.arrived + 1 = (inside s).card + waiting (some h)) :
    Inv owner (s.barrierWait nodesCount) := by
  unfold State.barrierWait
  split
  · rename_i hfull
    have hfull' : (inside s).card + waiting (some h) = Fintype.card V := by omega
    obtain ⟨hb', hcounted⟩ := hb.release hfull'
    obtain ⟨t, hmtx, rfl⟩ : ∃ t, s.busMtx = some t ∧
        (⟨owner t, (s.senders t).pc, (s.senders t).msg.bytes⟩ : Holder V) = h := by
      simpa [view] using hview
    have hin : (s.senders t).pc = .inBarrier := (full_barrier hb hfull').1
    have howned : Owned s.release := by
      intro u
      by_cases hu : (s.senders u).pc = .inBarrier
      · have := (ho u).mp (by rw [hu]; rfl)
        simp [State.release, hu, this, TxPc.holds]
      · simpa [State.release, hu] using ho u
    have hview' : view owner s.release =
        some ⟨owner t, .relockCond, (s.senders t).msg.bytes⟩ := by
      simp [view, State.release, hmtx, hin]
    exact ⟨howned, ⟨past, hview' ▸ hb'⟩, hview' ▸ hcounted⟩
  · refine ⟨ho, ⟨past, ?_⟩, ?_⟩
    · rw [show view owner { s with arrived := s.arrived + 1 } = some h from hview]
      exact ⟨hb.usingBus, hb.stored, hb.length, hb.reading, hb.copied, hb.sent, hb.returned,
        hb.history⟩
    · rw [show view owner { s with arrived := s.arrived + 1 } = some h from hview]
      exact hcount

variable [DecidableEq T]

/-- Both are places of the holder outside the barrier. -/
structure TxPc.Inside (p pc : TxPc) : Prop where
  holds : p.holds = true := by rfl
  holds_next : pc.holds = true := by rfl
  outside : p ≠ .inBarrier := by decide
  outside_next : pc ≠ .inBarrier := by decide

/-- The holder moves on outside the barrier. -/
theorem inv_of_move {t : T} {p : TxPc} (pc : TxPc) (hinv : Inv owner s) (hp : (s.senders t).pc = p)
    (hpcs : p.Inside pc) (hm : SenderMoves s s' t pc)
    (hbus : ∀ past, BusInv s (some ⟨owner t, p, (s.senders t).msg.bytes⟩) past →
      BusInv s' (some ⟨owner t, pc, (s.senders t).msg.bytes⟩) past) : Inv owner s' := by
  subst hp
  obtain ⟨howned, hview'⟩ := owned_of_move owner hinv.owned hpcs.holds hpcs.holds_next hm
  have hview := view_of_holds owner hinv.owned hpcs.holds
  obtain ⟨past, hb⟩ := hinv.bus
  refine ⟨howned, ⟨past, ?_⟩, ?_⟩
  · rw [hview']
    exact hbus past (hview ▸ hb)
  · have hcounted := hinv.counted
    simp only [Counted, hview, hview', waiting, hpcs.outside, hpcs.outside_next, inside,
      hm.receivers, hm.arrived, if_false] at hcounted ⊢
    exact hcounted

end Invariant

end CarNetwork.SharedBus
