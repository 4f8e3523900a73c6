import CarNetwork.Mutex
import CarNetwork.Progress
import CarNetwork.SharedBusDelivery

/-!
# The shared-memory bus does not block

From every state that a run without a race can reach, some continuation without a race
lets every `send_msg` return and hands every message to all its readers. Two more facts
about the bus are needed for it: who owns the mutex of the condition variable, and when
`msg_available` is set.
-/
namespace CarNetwork.SharedBus

open CarNetwork.ByteText CarNetwork.Mutex CarNetwork.Runs
open scoped BigOperators

/-- The thread owns `new_msg_cond_mtx`. -/
def TxPc.holdsCond : TxPc → Bool
  | setAvailable | broadcast | unlockCond | clearAvailable | reunlockCond => true
  | _ => false

/-- `msg_available` is set. -/
def TxPc.announced : TxPc → Bool
  | broadcast | unlockCond | enterBarrier | inBarrier | relockCond | clearAvailable => true
  | _ => false

def RxPc.holdsCond : RxPc → Bool
  | test | unlock => true
  | _ => false

theorem TxPc.holds_of_announced {p : TxPc} (h : p.announced = true) : p.holds = true := by
  cases p <;> first | rfl | cases h

variable {V T : Type}

/-- A thread in a section that `new_msg_cond_mtx` protects. -/
def insideCond (s : State V T) : V ⊕ T → Prop
  | .inl i => (s.receivers i).pc.holdsCond = true
  | .inr t => (s.senders t).pc.holdsCond = true

structure CondInv (nodesCount : ℕ) (s : State V T) : Prop where
  mutex : Exclusive (insideCond s) s.condMtx
  available : s.msgAvailable = true ↔ ∃ t, (s.senders t).pc.announced = true
  arrived : s.arrived ≤ nodesCount

section Steps

variable [DecidableEq T] {nodesCount : ℕ} {owner : T → V} {s s' : State V T}

/-! ## Senders -/

section Sender

variable {t : T} {x : Sender}

/-- One sender moves, and the barrier is not entered. -/
structure TxMoves (s s' : State V T) (t : T) (x : Sender) : Prop where
  senders : s'.senders = Function.update s.senders t x := by rfl
  receivers : s'.receivers = s.receivers := by rfl
  arrived : s'.arrived = s.arrived := by rfl

/-- Only the sender that moves enters or leaves. -/
theorem TxMoves.insideCond_of_ne (hm : TxMoves s s' t x) {u : V ⊕ T} (hu : u ≠ .inr t) :
    insideCond s' u ↔ insideCond s u := by
  cases u with
  | inl i => simp [insideCond, hm.receivers]
  | inr u =>
    have : u ≠ t := fun h => hu (by rw [h])
    simp [insideCond, hm.senders, this]

theorem TxMoves.insideCond_self (hm : TxMoves s s' t x) :
    insideCond s' (.inr t) ↔ x.pc.holdsCond = true := by
  simp [insideCond, hm.senders]

/-- `msg_available` has not been written, and the sender has not passed such a place. -/
theorem CondInv.available_of_move (h : CondInv nodesCount s) (hm : TxMoves s s' t x)
    (havailable : s'.msgAvailable = s.msgAvailable)
    (hannounced : x.pc.announced = (s.senders t).pc.announced) :
    s'.msgAvailable = true ↔ ∃ t, (s'.senders t).pc.announced = true := by
  have hsame : ∀ u, (s'.senders u).pc.announced = (s.senders u).pc.announced := by
    intro u
    by_cases hu : u = t
    · subst hu
      simp [hm.senders, hannounced]
    · simp [hm.senders, hu]
  simpa only [havailable, hsame] using h.available

theorem CondInv.mutex_of_move (h : CondInv nodesCount s) (hm : TxMoves s s' t x)
    (hcond : s'.condMtx = s.condMtx) (hholds : x.pc.holdsCond = (s.senders t).pc.holdsCond) :
    Exclusive (insideCond s') s'.condMtx := by
  rw [hcond]
  refine h.mutex.congr fun u => ?_
  by_cases hu : u = .inr t
  · subst hu
    rw [hm.insideCond_self, hholds]
    rfl
  · exact hm.insideCond_of_ne hu

/-- The sender neither takes nor gives back the mutex. -/
theorem CondInv.advance (h : CondInv nodesCount s) (hm : TxMoves s s' t x)
    (hcond : s'.condMtx = s.condMtx) (havailable : s'.msgAvailable = s.msgAvailable)
    (hholds : x.pc.holdsCond = (s.senders t).pc.holdsCond)
    (hannounced : x.pc.announced = (s.senders t).pc.announced) : CondInv nodesCount s' where
  mutex := h.mutex_of_move hm hcond hholds
  available := h.available_of_move hm havailable hannounced
  arrived := hm.arrived ▸ h.arrived

theorem CondInv.senderLock (h : CondInv nodesCount s) (hm : TxMoves s s' t x)
    (hnone : s.condMtx = none) (hcond : s'.condMtx = some (.inr t))
    (havailable : s'.msgAvailable = s.msgAvailable)
    (hholds : x.pc.holdsCond = true) (hannounced : x.pc.announced = (s.senders t).pc.announced) :
    CondInv nodesCount s' where
  mutex := by
    rw [hcond]
    exact Exclusive.lock (hnone ▸ h.mutex) (fun _ => hm.insideCond_of_ne)
      (hm.insideCond_self.mpr hholds)
  available := h.available_of_move hm havailable hannounced
  arrived := hm.arrived ▸ h.arrived

theorem CondInv.senderUnlock (h : CondInv nodesCount s) (hm : TxMoves s s' t x)
    (hcond : s'.condMtx = none) (havailable : s'.msgAvailable = s.msgAvailable)
    (hin : (s.senders t).pc.holdsCond = true) (hholds : x.pc.holdsCond = false)
    (hannounced : x.pc.announced = (s.senders t).pc.announced) : CondInv nodesCount s' where
  mutex := by
    rw [hcond]
    refine h.mutex.unlock (t := .inr t) hin (fun _ => hm.insideCond_of_ne) fun hin' => ?_
    rw [hm.insideCond_self, hholds] at hin'
    cases hin'
  available := h.available_of_move hm havailable hannounced
  arrived := hm.arrived ▸ h.arrived

/-- The flag is written under the mutex, which the sender keeps. -/
theorem CondInv.write (h : CondInv nodesCount s) (hm : TxMoves s s' t x)
    (hcond : s'.condMtx = s.condMtx) (hholds : x.pc.holdsCond = (s.senders t).pc.holdsCond)
    (havailable : s'.msgAvailable = true ↔ ∃ u, (s'.senders u).pc.announced = true) :
    CondInv nodesCount s' where
  mutex := h.mutex_of_move hm hcond hholds
  available := havailable
  arrived := hm.arrived ▸ h.arrived

end Sender

omit [DecidableEq T] in
/-- The barrier opens for threads that own nothing. -/
theorem CondInv.release (h : CondInv nodesCount s) : CondInv nodesCount s.release where
  mutex := by
    refine h.mutex.congr fun u => ?_
    cases u with
    | inl i =>
      simp only [insideCond, State.release]
      split
      · rename_i hin
        simp [hin, RxPc.holdsCond]
      · rfl
    | inr t =>
      simp only [insideCond, State.release]
      split
      · rename_i hin
        simp [hin, TxPc.holdsCond]
      · rfl
  available := by
    have hsame : ∀ t, (s.release.senders t).pc.announced = (s.senders t).pc.announced := by
      intro t
      simp only [State.release]
      split
      · rename_i hin
        simp [hin, TxPc.announced]
      · rfl
    simp only [hsame]
    exact h.available
  arrived := Nat.zero_le _

omit [DecidableEq T] in
theorem CondInv.barrierWait (h : CondInv nodesCount s) :
    CondInv nodesCount (s.barrierWait nodesCount) := by
  unfold State.barrierWait
  split
  · exact h.release
  · rename_i hlt
    have := h.arrived
    exact ⟨h.mutex, h.available, by simp only; omega⟩

variable [DecidableEq V]

theorem CondInv.sendMsg {t : T} (h : CondInv nodesCount s) (ho : Owned s)
    (hstep : sendMsg owner nodesCount s t = some s') : CondInv nodesCount s' := by
  unfold SharedBus.sendMsg at hstep
  cases hpc : (s.senders t).pc with
  | idle | inBarrier => simp [hpc] at hstep
  | lockBus =>
    simp only [hpc, Option.ite_none_right_eq_some, Option.some.injEq] at hstep
    obtain ⟨-, rfl⟩ := hstep
    exact h.advance {} rfl rfl (by rw [hpc]; rfl) (by rw [hpc]; rfl)
  | setUsing | clearBus | writeBus | writeLen | broadcast | clearUsing | unlockBus =>
    simp only [hpc, Option.some.injEq] at hstep
    subst hstep
    exact h.advance {} rfl rfl (by rw [hpc]; rfl) (by rw [hpc]; rfl)
  | lockCond | relockCond =>
    simp only [hpc, Option.ite_none_right_eq_some, Option.some.injEq] at hstep
    obtain ⟨hnone, rfl⟩ := hstep
    exact h.senderLock {} hnone rfl rfl rfl (by rw [hpc]; rfl)
  | unlockCond | reunlockCond =>
    simp only [hpc, Option.some.injEq] at hstep
    subst hstep
    exact h.senderUnlock {} rfl rfl (by rw [hpc]; rfl) rfl (by rw [hpc]; rfl)
  | setAvailable =>
    simp only [hpc, Option.some.injEq] at hstep
    subst hstep
    exact h.write {} rfl (by rw [hpc]; rfl) (iff_of_true rfl ⟨t,
      by simp [State.setSender, TxPc.announced]⟩)
  | clearAvailable =>
    simp only [hpc, Option.some.injEq] at hstep
    subst hstep
    refine h.write {} rfl (by rw [hpc]; rfl) (iff_of_false (by simp) ?_)
    -- a second sender that has announced a message would also own the bus
    rintro ⟨u, hu⟩
    by_cases hut : u = t
    · subst hut
      simp [State.setSender, TxPc.announced] at hu
    · have hann : (s.senders u).pc.announced = true := by simpa [State.setSender, hut] using hu
      have hbus := (ho u).mp (TxPc.holds_of_announced hann)
      rw [(ho t).mp (by rw [hpc]; rfl)] at hbus
      exact hut (Option.some.inj hbus).symm
  | enterBarrier =>
    simp only [hpc, Option.some.injEq] at hstep
    subst hstep
    have hin : CondInv nodesCount (s.setSender t .inBarrier) :=
      h.advance {} rfl rfl (by rw [hpc]; rfl) (by rw [hpc]; rfl)
    exact hin.barrierWait

/-! ## Receivers -/

section Receiver

variable {i : V} {r : Receiver}

/-- One receiver moves, and the barrier is not entered. -/
structure RxMoves (s s' : State V T) (i : V) (r : Receiver) : Prop where
  senders : s'.senders = s.senders := by rfl
  receivers : s'.receivers = Function.update s.receivers i r := by rfl
  msgAvailable : s'.msgAvailable = s.msgAvailable := by rfl
  arrived : s'.arrived = s.arrived := by rfl

omit [DecidableEq T] in
theorem RxMoves.insideCond_of_ne (hm : RxMoves s s' i r) {u : V ⊕ T} (hu : u ≠ .inl i) :
    insideCond s' u ↔ insideCond s u := by
  cases u with
  | inl j =>
    have : j ≠ i := fun h => hu (by rw [h])
    simp [insideCond, hm.receivers, this]
  | inr u => simp [insideCond, hm.senders]

omit [DecidableEq T] in
theorem RxMoves.insideCond_self (hm : RxMoves s s' i r) :
    insideCond s' (.inl i) ↔ r.pc.holdsCond = true := by
  simp [insideCond, hm.receivers]

omit [DecidableEq T] in
/-- A receiver writes neither the flag nor the count of the barrier. -/
theorem CondInv.of_receiver (h : CondInv nodesCount s) (hm : RxMoves s s' i r)
    (hmutex : Exclusive (insideCond s') s'.condMtx) : CondInv nodesCount s' where
  mutex := hmutex
  available := by
    rw [hm.msgAvailable, hm.senders]
    exact h.available
  arrived := hm.arrived ▸ h.arrived

theorem CondInv.receiver (h : CondInv nodesCount s) (hm : RxMoves s s' i r)
    (hcond : s'.condMtx = s.condMtx) (hholds : r.pc.holdsCond = (s.receivers i).pc.holdsCond) :
    CondInv nodesCount s' := by
  refine h.of_receiver hm ?_
  rw [hcond]
  refine h.mutex.congr fun u => ?_
  by_cases hu : u = .inl i
  · subst hu
    rw [hm.insideCond_self, hholds]
    rfl
  · exact hm.insideCond_of_ne hu

omit [DecidableEq T] in
theorem CondInv.receiverLock (h : CondInv nodesCount s) (hm : RxMoves s s' i r)
    (hnone : s.condMtx = none) (hcond : s'.condMtx = some (.inl i))
    (hholds : r.pc.holdsCond = true) : CondInv nodesCount s' := by
  refine h.of_receiver hm ?_
  rw [hcond]
  exact Exclusive.lock (hnone ▸ h.mutex) (fun _ => hm.insideCond_of_ne)
    (hm.insideCond_self.mpr hholds)

omit [DecidableEq T] in
theorem CondInv.receiverUnlock (h : CondInv nodesCount s) (hm : RxMoves s s' i r)
    (hcond : s'.condMtx = none) (hin : (s.receivers i).pc.holdsCond = true)
    (hholds : r.pc.holdsCond = false) : CondInv nodesCount s' := by
  refine h.of_receiver hm ?_
  rw [hcond]
  refine h.mutex.unlock (t := .inl i) hin (fun _ => hm.insideCond_of_ne) fun hin' => ?_
  rw [hm.insideCond_self, hholds] at hin'
  cases hin'

end Receiver

theorem CondInv.receiveMsgRoutine {i : V} (h : CondInv nodesCount s)
    (hstep : receiveMsgRoutine nodesCount s i = some s') : CondInv nodesCount s' := by
  unfold SharedBus.receiveMsgRoutine at hstep
  cases hpc : (s.receivers i).pc with
  | inBarrier => simp [hpc] at hstep
  | lock | relock =>
    simp only [hpc, Option.ite_none_right_eq_some, Option.some.injEq] at hstep
    obtain ⟨hnone, rfl⟩ := hstep
    exact h.receiverLock {} hnone rfl rfl
  | test =>
    simp only [hpc] at hstep
    split at hstep <;> obtain rfl := Option.some.inj hstep
    · exact h.receiver {} rfl (by rw [hpc]; rfl)
    · exact h.receiverUnlock {} rfl (by rw [hpc]; rfl) rfl
  | unlock =>
    simp only [hpc, Option.some.injEq] at hstep
    subst hstep
    exact h.receiverUnlock {} rfl (by rw [hpc]; rfl) rfl
  | sleep | alloc | copy | handOver | handling =>
    simp only [hpc, Option.some.injEq] at hstep
    subst hstep
    exact h.receiver {} rfl (by rw [hpc]; rfl)
  | checkUsing =>
    simp only [hpc] at hstep
    split at hstep <;> obtain rfl := Option.some.inj hstep <;>
      exact h.receiver {} rfl (by rw [hpc]; rfl)
  | enterBarrier =>
    simp only [hpc, Option.some.injEq] at hstep
    subst hstep
    have hin : CondInv nodesCount (s.setReceiver i { s.receivers i with pc := .inBarrier }) :=
      h.receiver {} rfl (by rw [hpc]; rfl)
    exact hin.barrierWait

omit [DecidableEq V] [DecidableEq T] in
theorem condInv_initial : CondInv nodesCount ({} : State V T) where
  mutex u := by cases u <;> simp [insideCond, RxPc.holdsCond, TxPc.holdsCond]
  available := by simp [TxPc.announced]
  arrived := Nat.zero_le _

theorem CondInv.kept {a : Action V T} (h : CondInv nodesCount s) (ho : Owned s)
    (hstep : step owner nodesCount s a = some s') : CondInv nodesCount s' := by
  cases a with
  | call t m =>
    simp only [step, Option.ite_none_right_eq_some, Option.some.injEq] at hstep
    obtain ⟨hidle, rfl⟩ := hstep
    exact h.advance {} rfl rfl (by rw [hidle]; rfl) (by rw [hidle]; rfl)
  | sender t => exact h.sendMsg ho hstep
  | receiver i => exact h.receiveMsgRoutine hstep

end Steps

/-! ## What is left to do -/

/-- Operations up to the end of `send_msg`. -/
def TxPc.rank : TxPc → ℕ
  | lockBus => 16
  | setUsing => 15
  | clearBus => 14
  | writeBus => 13
  | writeLen => 12
  | lockCond => 11
  | setAvailable => 10
  | broadcast => 9
  | unlockCond => 8
  | enterBarrier => 7
  | inBarrier => 6
  | relockCond => 5
  | clearAvailable => 4
  | reunlockCond => 3
  | clearUsing => 2
  | unlockBus => 1
  | idle => 0

/-- Operations of a receiver up to the barrier. One that sleeps is done until a message is
announced. -/
def RxPc.rank (available : Bool) : RxPc → ℕ
  | handOver => 12
  | handling => 11
  | sleep => if available then 10 else 5
  | lock | relock => 9
  | test => 8
  | unlock => 7
  | checkUsing => 6
  | alloc => 5
  | copy => 4
  | enterBarrier => 3
  | inBarrier => 0

theorem RxPc.rank_le (available : Bool) (p : RxPc) : p.rank available ≤ 12 := by
  cases p <;> cases available <;> decide

section Measure

variable {V T : Type} [Fintype V] [Fintype T]

namespace State

def sending (s : State V T) : ℕ := ∑ t, (s.senders t).pc.rank

def listening (s : State V T) : ℕ := ∑ i, (s.receivers i).pc.rank s.msgAvailable

/-- An operation of a sender outweighs all that it gives the receivers to do. -/
def remaining (s : State V T) : ℕ := (12 * Fintype.card V + 1) * s.sending + s.listening

end State

variable {s s' : State V T}

omit [Fintype T] in
theorem listening_le (s : State V T) : s.listening ≤ 12 * Fintype.card V := by
  have := Finset.sum_le_card_nsmul Finset.univ (fun i => (s.receivers i).pc.rank s.msgAvailable) 12
    fun i _ => RxPc.rank_le _ _
  simpa [State.listening, Nat.mul_comm] using this

theorem remaining_lt_of_sending (h : s'.sending < s.sending) : s'.remaining < s.remaining := by
  have hle := listening_le s'
  have hmul : (12 * Fintype.card V + 1) * (s'.sending + 1) ≤
      (12 * Fintype.card V + 1) * s.sending :=
    Nat.mul_le_mul_left _ h
  simp only [State.remaining, Nat.mul_add, Nat.mul_one] at hmul ⊢
  omega

omit [Fintype V] in
theorem sending_release_le : s.release.sending ≤ s.sending := by
  refine Finset.sum_le_sum fun t _ => ?_
  simp only [State.release]
  split
  · rename_i hin
    simp [hin, TxPc.rank]
  · exact le_rfl

omit [Fintype V] in
/-- The barrier lets a sender go on. -/
theorem sending_release_lt {t : T} (ht : (s.senders t).pc = .inBarrier) :
    s.release.sending < s.sending := by
  refine Finset.sum_lt_sum (fun u _ => ?_) ⟨t, Finset.mem_univ t, ?_⟩
  · simp only [State.release]
    split
    · rename_i hin
      simp [hin, TxPc.rank]
    · exact le_rfl
  · simp [State.release, ht, TxPc.rank]

variable [DecidableEq T]

omit [Fintype V] in
theorem sending_lt_of_move {t : T} {x : Sender} (hm : TxMoves s s' t x)
    (hx : x.pc.rank < (s.senders t).pc.rank) : s'.sending < s.sending := by
  have := sum_update_add (fun y : Sender => y.pc.rank) s.senders t x
  simp only [State.sending, hm.senders]
  omega

variable [DecidableEq V] {owner : T → V} {nodesCount : ℕ}

omit [Fintype V] in
theorem sending_lt {t : T} (hstep : sendMsg owner nodesCount s t = some s') :
    s'.sending < s.sending := by
  unfold SharedBus.sendMsg at hstep
  cases hpc : (s.senders t).pc with
  | idle | inBarrier => simp [hpc] at hstep
  | lockBus | lockCond | relockCond =>
    simp only [hpc, Option.ite_none_right_eq_some, Option.some.injEq] at hstep
    obtain ⟨-, rfl⟩ := hstep
    exact sending_lt_of_move {} (by simp [hpc, TxPc.rank])
  | setUsing | clearBus | writeBus | writeLen | broadcast | clearUsing | unlockBus | unlockCond
  | reunlockCond | setAvailable | clearAvailable =>
    simp only [hpc, Option.some.injEq] at hstep
    subst hstep
    exact sending_lt_of_move {} (by simp [hpc, TxPc.rank])
  | enterBarrier =>
    simp only [hpc, Option.some.injEq] at hstep
    subst hstep
    have hlt : (s.setSender t .inBarrier).sending < s.sending :=
      sending_lt_of_move {} (by simp [hpc, TxPc.rank])
    unfold State.barrierWait
    split
    · exact lt_of_le_of_lt sending_release_le hlt
    · exact hlt

omit [DecidableEq T] in
theorem remaining_lt_of_receiver {i : V} {r : Receiver} (hm : RxMoves s s' i r)
    (hr : r.pc.rank s.msgAvailable < (s.receivers i).pc.rank s.msgAvailable) :
    s'.remaining < s.remaining := by
  have := sum_update_add (fun y : Receiver => y.pc.rank s.msgAvailable) s.receivers i r
  simp only [State.remaining, State.sending, State.listening, hm.senders, hm.receivers,
    hm.msgAvailable]
  omega

omit [DecidableEq T] in
/-- A receiver comes nearer to the barrier, unless it wakes up too early or finds its own
node sending. -/
theorem remaining_lt_of_receive {i : V} (hstep : receiveMsgRoutine nodesCount s i = some s')
    (hsleep : (s.receivers i).pc = .sleep → s.msgAvailable = true)
    (husing : (s.receivers i).pc = .checkUsing → s.usingBus i = false)
    (hbarrier : (s.receivers i).pc = .enterBarrier → ∃ t, (s.senders t).pc = .inBarrier) :
    s'.remaining < s.remaining := by
  unfold receiveMsgRoutine at hstep
  cases hpc : (s.receivers i).pc with
  | inBarrier => simp [hpc] at hstep
  | lock | relock =>
    simp only [hpc, Option.ite_none_right_eq_some, Option.some.injEq] at hstep
    obtain ⟨-, rfl⟩ := hstep
    exact remaining_lt_of_receiver {} (by simp [hpc, RxPc.rank])
  | test =>
    simp only [hpc] at hstep
    split at hstep <;> rename_i hav <;> obtain rfl := Option.some.inj hstep <;>
      exact remaining_lt_of_receiver {} (by simp [hpc, hav, RxPc.rank])
  | sleep =>
    simp only [hpc, Option.some.injEq] at hstep
    subst hstep
    exact remaining_lt_of_receiver {} (by simp [hpc, hsleep hpc, RxPc.rank])
  | unlock | alloc | copy | handOver | handling =>
    simp only [hpc, Option.some.injEq] at hstep
    subst hstep
    exact remaining_lt_of_receiver {} (by simp [hpc, RxPc.rank])
  | checkUsing =>
    simp only [hpc, husing hpc, Bool.false_eq_true, if_false, Option.some.injEq] at hstep
    subst hstep
    exact remaining_lt_of_receiver {} (by simp [hpc, RxPc.rank])
  | enterBarrier =>
    simp only [hpc, Option.some.injEq] at hstep
    subst hstep
    obtain ⟨t, ht⟩ := hbarrier hpc
    have hin : (s.setReceiver i { s.receivers i with pc := .inBarrier }).remaining < s.remaining :=
      remaining_lt_of_receiver {} (by simp [hpc, RxPc.rank])
    unfold State.barrierWait
    split
    · refine (remaining_lt_of_sending ?_).trans hin
      exact sending_release_lt (t := t) ht
    · exact hin

/-! ## Some thread can always go on -/

/-- The action starts a new `send_msg`. -/
def Action.isCall : Action V T → Bool
  | .call _ _ => true
  | _ => false

/-- Some operation that is no race brings the calls under way nearer to their end. -/
def Advances (owner : T → V) (nodesCount : ℕ) (s : State V T) : Prop :=
  ∃ a s', (races owner s a = false ∧ a.isCall = false) ∧ step owner nodesCount s a = some s' ∧
    s'.remaining < s.remaining

theorem advances_of_sender {t : T} (henabled : sendMsg owner nodesCount s t ≠ none)
    (hrace : (s.senders t).pc = .writeLen → ∀ i, (s.receivers i).pc ≠ .handOver) :
    Advances owner nodesCount s := by
  obtain ⟨s', hstep⟩ := Option.ne_none_iff_exists'.mp henabled
  refine ⟨.sender t, s', ⟨?_, rfl⟩, hstep, remaining_lt_of_sending (sending_lt hstep)⟩
  by_cases hpc : (s.senders t).pc = .writeLen
  · simpa [races, hpc] using hrace hpc
  · simp [races, hpc]

theorem advances_of_receiver {i : V} (henabled : receiveMsgRoutine nodesCount s i ≠ none)
    (hsleep : (s.receivers i).pc = .sleep → s.msgAvailable = true)
    (husing : (s.receivers i).pc = .checkUsing → s.usingBus i = false ∧
      (view owner s).any (·.pc.live) = true) (hbarrier :
        (s.receivers i).pc = .enterBarrier → ∃ t, (s.senders t).pc = .inBarrier) :
    Advances owner nodesCount s := by
  obtain ⟨s', hstep⟩ := Option.ne_none_iff_exists'.mp henabled
  refine ⟨.receiver i, s', ⟨?_, rfl⟩, hstep,
    remaining_lt_of_receive hstep hsleep (fun hpc => (husing hpc).1) hbarrier⟩
  by_cases hpc : (s.receivers i).pc = .checkUsing
  · simp [races, (husing hpc).2]
  · simp [races, hpc]

/-- A receiver in its critical section goes on. -/
theorem advances_of_condMtx {i : V} (hcond : CondInv nodesCount s)
    (hi : s.condMtx = some (.inl i)) :
    Advances owner nodesCount s := by
  have hin : (s.receivers i).pc.holdsCond = true := (hcond.mutex (.inl i)).mpr hi
  cases hpc : (s.receivers i).pc with
  | test =>
    refine advances_of_receiver (i := i) ?_ (by simp [hpc]) (by simp [hpc]) (by simp [hpc])
    simp only [receiveMsgRoutine, hpc]
    split <;> simp
  | unlock =>
    exact advances_of_receiver (i := i) (by simp [receiveMsgRoutine, hpc]) (by simp [hpc])
      (by simp [hpc])
      (by simp [hpc])
  | lock | sleep | relock | checkUsing | alloc | copy | enterBarrier | inBarrier |
    handOver | handling =>
    simp [hpc, RxPc.holdsCond] at hin

/-- A message that has left the barrier is handed over. -/
theorem advances_of_handOver {i : V} (hpc : (s.receivers i).pc = .handOver) :
    Advances owner nodesCount s :=
  advances_of_receiver (i := i) (by simp [receiveMsgRoutine, hpc]) (by simp [hpc]) (by simp [hpc])
    (by simp [hpc])

omit [Fintype V] [Fintype T] [DecidableEq T] [DecidableEq V] in
/-- While the bus is held outside a critical section of the condition variable, only a
receiver can be inside one. -/
theorem condMtx_of_holder {t : T} (hcond : CondInv nodesCount s) (ho : Owned s)
    (ht : (s.senders t).pc.holds = true) (hout : (s.senders t).pc.holdsCond = false) :
    s.condMtx = none ∨ ∃ i, s.condMtx = some (.inl i) := by
  cases hmtx : s.condMtx with
  | none => exact .inl rfl
  | some u =>
    cases u with
    | inl i => exact .inr ⟨i, rfl⟩
    | inr u =>
      have hin : (s.senders u).pc.holdsCond = true := (hcond.mutex (.inr u)).mpr hmtx
      have hholds : (s.senders u).pc.holds = true := by
        cases hpc : (s.senders u).pc <;> simp [hpc, TxPc.holdsCond] at hin <;> rfl
      have hut : t = u := Option.some.inj (((ho t).mp ht).symm.trans ((ho u).mp hholds))
      rw [← hut, hout] at hin
      cases hin

/-- A receiver can be waited for in the barrier: it gets nearer, or one that is in its way
does. -/
theorem advances_to_barrier {i : V} {t : T} (hcond : CondInv nodesCount s) (ho : Owned s)
    (ht : (s.senders t).pc = .inBarrier) (hi : (s.receivers i).pc ≠ .inBarrier)
    (husing : s.usingBus i = false) :
    Advances owner nodesCount s := by
  have hlive : (view owner s).any (·.pc.live) = true := by
    rw [view_of_holds owner ho (by rw [ht]; rfl)]
    simp [ht, TxPc.live]
  have havailable : s.msgAvailable = true := hcond.available.mpr ⟨t, by rw [ht]; rfl⟩
  rcases condMtx_of_holder hcond ho (by rw [ht]; rfl) (by rw [ht]; rfl) with hfree | ⟨j, hj⟩
  · refine advances_of_receiver (i := i) ?_ (fun _ => havailable) (fun _ => ⟨husing, hlive⟩)
      fun _ => ⟨t, ht⟩
    cases hpc : (s.receivers i).pc with
    | inBarrier => exact absurd hpc hi
    | lock | relock | test | sleep | unlock | checkUsing | alloc | copy | enterBarrier |
      handOver | handling =>
      simp [receiveMsgRoutine, hpc, hfree, havailable, husing]
  · exact advances_of_condMtx hcond hj

omit [Fintype T] [DecidableEq T] in
/-- While the holder waits in the barrier, some reader of its message is not there yet. -/
theorem exists_not_inBarrier {t : T} (hcard : Fintype.card V = nodesCount + 1) (hinv : Inv owner s)
    (hcond : CondInv nodesCount s) (ht : (s.senders t).pc = .inBarrier) :
    ∃ i, i ≠ owner t ∧ (s.receivers i).pc ≠ .inBarrier := by
  by_contra hall
  push Not at hall
  have hsub : Finset.univ.erase (owner t) ⊆ inside s := fun i hi =>
    mem_inside.mpr (hall i (Finset.ne_of_mem_erase hi))
  have hle := Finset.card_le_card hsub
  have hcounted := hinv.counted
  rw [Counted, view_of_holds owner hinv.owned (by rw [ht]; rfl)] at hcounted
  simp only [waiting, ht, if_true] at hcounted
  have herase : (Finset.univ.erase (owner t)).card + 1 = Fintype.card V :=
    Finset.card_erase_add_one (Finset.mem_univ _)
  have := hcond.arrived
  omega

theorem advances_of_holder {t : T} (hcard : Fintype.card V = nodesCount + 1) (hinv : Inv owner s)
    (hcond : CondInv nodesCount s) (ht : s.busMtx = some t) : Advances owner nodesCount s := by
  have hholds := (hinv.owned t).mpr ht
  cases hpc : (s.senders t).pc with
  | idle | lockBus => simp [hpc, TxPc.holds] at hholds
  | inBarrier =>
    obtain ⟨i, hne, hout⟩ := exists_not_inBarrier hcard hinv hcond hpc
    obtain ⟨past, hb⟩ := hinv.bus
    refine advances_to_barrier hcond hinv.owned hpc hout ?_
    by_contra husing
    obtain ⟨h, hview, -, hnode⟩ := (hb.usingBus i).mp (by simpa using husing)
    rw [view_of_holds owner hinv.owned hholds] at hview
    cases hview
    exact hne hnode.symm
  | lockCond | relockCond =>
    rcases condMtx_of_holder hcond hinv.owned hholds (by rw [hpc]; rfl) with hfree | ⟨j, hj⟩
    · exact advances_of_sender (t := t) (by simp [sendMsg, hpc, hfree]) (by simp [hpc])
    · exact advances_of_condMtx hcond hj
  | writeLen =>
    by_cases hhand : ∃ i, (s.receivers i).pc = .handOver
    · obtain ⟨i, hi⟩ := hhand
      exact advances_of_handOver hi
    · exact advances_of_sender (t := t) (by simp [sendMsg, hpc]) fun _ i hi => hhand ⟨i, hi⟩
  | setUsing | clearBus | writeBus | setAvailable | broadcast | unlockCond |
    enterBarrier | clearAvailable
  | reunlockCond | clearUsing | unlockBus =>
    exact advances_of_sender (t := t) (by simp [sendMsg, hpc]) (by simp [hpc])

/-- Nobody sends, and every message has been handed over. -/
def Quiet (s : State V T) : Prop :=
  (∀ t, (s.senders t).pc = .idle) ∧ ∀ i, (s.receivers i).pc ≠ .handOver

theorem quiet_or_advances (hcard : Fintype.card V = nodesCount + 1) (hinv : Inv owner s)
    (hcond : CondInv nodesCount s) : Quiet s ∨ Advances owner nodesCount s := by
  by_cases hidle : ∀ t, (s.senders t).pc = .idle
  · by_cases hhand : ∃ i, (s.receivers i).pc = .handOver
    · obtain ⟨i, hi⟩ := hhand
      exact .inr (advances_of_handOver hi)
    · exact .inl ⟨hidle, fun i hi => hhand ⟨i, hi⟩⟩
  · right
    simp only [not_forall] at hidle
    obtain ⟨t, ht⟩ := hidle
    cases hmtx : s.busMtx with
    | some u => exact advances_of_holder hcard hinv hcond hmtx
    | none =>
      have hlock : (s.senders t).pc = .lockBus := by
        have hout : ¬ (s.senders t).pc.holds = true := fun h => by
          simpa [hmtx] using (hinv.owned t).mp h
        cases hpc : (s.senders t).pc <;> simp_all [TxPc.holds]
      exact advances_of_sender (t := t) (by simp [sendMsg, hlock, hmtx]) (by simp [hlock])

omit [Fintype T] [DecidableEq T] in
/-- A quiet bus has delivered everything. -/
theorem Quiet.delivered (hq : Quiet s) (hinv : Inv owner s) :
    s.returned = s.sent.length ∧ ∀ i, s.received i = expected i s.sent := by
  have hmtx : s.busMtx = none := by
    by_contra hsome
    obtain ⟨t, ht⟩ := Option.ne_none_iff_exists'.mp hsome
    have := (hinv.owned t).mpr ht
    rw [hq.1 t] at this
    cases this
  obtain ⟨past, hb⟩ := hinv.bus
  have hview : view owner s = none := by simp [view, hmtx]
  rw [hview] at hb
  have hsent : s.sent = past := by simpa using hb.sent
  refine ⟨by rw [hb.returned, hsent], fun i => ?_⟩
  have := hb.history i
  rw [done, inHand, if_neg (hq.2 i), List.append_nil] at this
  rw [hsent, this]

/-- However far the threads have got without a race, none of them is stuck: without further
calls and without a race, every `send_msg` that is under way can return, and all messages
are handed to all nodes but their senders. -/
theorem every_send_can_return (hcard : Fintype.card V = nodesCount + 1)
    (h : Reaches (step owner nodesCount) (fun s a => races owner s a = false) {} s) :
    ∃ t : State V T, Reaches (step owner nodesCount) (fun s a => races owner s a = false ∧
      a.isCall = false) s t ∧
      (∀ u, (t.senders u).pc = .idle) ∧ t.returned = t.sent.length ∧
        ∀ i, t.received i = expected i t.sent := by
  have hinv : Inv owner s ∧ CondInv nodesCount s :=
    h.invariant (fun s => Inv owner s ∧ CondInv nodesCount s) ⟨inv_initial owner, condInv_initial⟩
      fun _ _ _ hi hrace hu => ⟨inv_step hcard hi.1 hrace hu, hi.2.kept hi.1.owned hu⟩
  have hnext : ∀ t : State V T, Inv owner t ∧ CondInv nodesCount t → Quiet t ∨
      ∃ a u, (races owner t a = false ∧ a.isCall = false) ∧ step owner nodesCount t a = some u ∧
        (Inv owner u ∧ CondInv nodesCount u) ∧ u.remaining < t.remaining := by
    intro t hi
    refine (quiet_or_advances hcard hi.1 hi.2).imp_right ?_
    rintro ⟨a, u, hok, hu, hlt⟩
    exact ⟨a, u, hok, hu, ⟨inv_step hcard hi.1 hok.1 hu, hi.2.kept hi.1.owned hu⟩, hlt⟩
  obtain ⟨t, hr, hi, hq⟩ := exists_reaches_of_measure _ Quiet State.remaining hnext hinv
  obtain ⟨hreturned, hreceived⟩ := hq.delivered hi.1
  exact ⟨t, hr, hq.1, hreturned, hreceived⟩

end Measure

/-- The sender waits in the barrier and the reader sleeps. -/
theorem announced_send_can_return :
    ∃ s : State Bool Unit, s.returned = 0 ∧ (s.senders ()).pc = .inBarrier ∧
      ∃ t : State Bool Unit, (∀ u, (t.senders u).pc = .idle) ∧ t.returned = t.sent.length ∧
        ∀ i, t.received i = expected i t.sent := by
  have hrun : ((runIf (fun s a => !races (fun _ => false) s a) (step (fun _ => false) 1) {}
      (.receiver true :: .receiver true :: announce (oneByte 97))).map fun s =>
        (s.returned, (s.senders ()).pc)) =
      some (0, .inBarrier) := by decide +kernel
  obtain ⟨s, hs, hout⟩ := exists_reaches_of_runIf
    (fun s a => races (fun _ => false) s a = false) _ (by simp) hrun
  obtain ⟨hreturned, hpc⟩ := Prod.mk.inj hout
  obtain ⟨t, -, ht⟩ := every_send_can_return rfl hs
  exact ⟨s, hreturned, hpc, t, ht⟩

end CarNetwork.SharedBus
