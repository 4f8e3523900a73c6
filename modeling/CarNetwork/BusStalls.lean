import CarNetwork.BusProgress

/-!
# A node that does not come to the barrier

The barrier opens when every node has come to it: the sender's thread, and the receive
threads of all others. So a node whose receive thread stays away, because its process has
died or because the thread waits for something else, holds up whoever has the bus; and
whoever has the bus holds up everybody.
-/
namespace CarNetwork.SharedBus

open CarNetwork.ByteText CarNetwork.Runs

variable {V T : Type} [DecidableEq V] [DecidableEq T] {owner : T → V} {nodesCount : ℕ}
  {s s' : State V T} {i : V} {t : T}

/-! ## Frames -/

omit [DecidableEq V] [DecidableEq T] in
theorem barrierWait_of_ne (h : s.arrived ≠ nodesCount) :
    s.barrierWait nodesCount = { s with arrived := s.arrived + 1 } := if_neg h

omit [DecidableEq V] [DecidableEq T] in
/-- The barrier changes only those who are in it, and only when it opens. -/
theorem barrierWait_frame (nodesCount : ℕ) (s : State V T) :
    (s.barrierWait nodesCount).busMtx = s.busMtx ∧
    (s.barrierWait nodesCount).sent = s.sent ∧ (s.barrierWait nodesCount).returned = s.returned ∧
    (∀ i, (s.receivers i).pc ≠ .inBarrier → (s.barrierWait nodesCount).receivers i =
      s.receivers i) ∧
    ∀ t, (s.senders t).pc ≠ .inBarrier ∨ s.arrived ≠ nodesCount →
      (s.barrierWait nodesCount).senders t = s.senders t := by
  unfold State.barrierWait
  split
  · rename_i hfull
    exact ⟨rfl, rfl, rfl, fun i hi => if_neg hi,
      fun t ht => if_neg (ht.resolve_right (not_not.mpr hfull))⟩
  · exact ⟨rfl, rfl, rfl, fun _ _ => rfl, fun _ _ => rfl⟩

omit [DecidableEq T] in
/-- A receiver touches neither the mutex of the bus nor the history of the messages. -/
theorem receive_frame {j : V} (h : receiveMsgRoutine nodesCount s j = some s') :
    s'.busMtx = s.busMtx ∧ s'.sent = s.sent ∧ s'.returned = s.returned ∧
      (∀ i, i ≠ j → (s.receivers i).pc ≠ .inBarrier → s'.receivers i = s.receivers i) ∧
      ∀ t, (s.senders t).pc ≠ .inBarrier ∨ ((s.receivers j).pc = .enterBarrier →
        s.arrived ≠ nodesCount) →
        s'.senders t = s.senders t := by
  unfold receiveMsgRoutine at h
  cases hpc : (s.receivers j).pc with
  | inBarrier => simp [hpc] at h
  | lock | relock =>
    simp only [hpc, Option.ite_none_right_eq_some, Option.some.injEq] at h
    obtain ⟨-, rfl⟩ := h
    exact ⟨rfl, rfl, rfl, fun i hi _ => Function.update_of_ne hi .., fun _ _ => rfl⟩
  | test | checkUsing =>
    simp only [hpc] at h
    split at h <;> obtain rfl := Option.some.inj h <;>
      exact ⟨rfl, rfl, rfl, fun i hi _ => Function.update_of_ne hi .., fun _ _ => rfl⟩
  | sleep | unlock | alloc | copy | handOver | handling =>
    simp only [hpc, Option.some.injEq] at h
    subst h
    exact ⟨rfl, rfl, rfl, fun i hi _ => Function.update_of_ne hi .., fun _ _ => rfl⟩
  | enterBarrier =>
    simp only [hpc, Option.some.injEq] at h
    subst h
    obtain ⟨hmtx, hsent, hreturned, hreceivers, hsenders⟩ := barrierWait_frame nodesCount
      (s.setReceiver j { s.receivers j with pc := .inBarrier })
    refine ⟨hmtx, hsent, hreturned, fun i hi hout => ?_,
      fun t ht => hsenders t (ht.imp_right fun h => h rfl)⟩
    have hsame : (s.setReceiver j { s.receivers j with pc := .inBarrier }).receivers i =
        s.receivers i :=
      Function.update_of_ne hi ..
    rw [hreceivers i (by rwa [hsame]), hsame]

/-- Nor does a sender touch other threads, except those in the barrier. -/
theorem send_frame {u : T} (h : sendMsg owner nodesCount s u = some s') :
    (∀ i, (s.receivers i).pc ≠ .inBarrier → s'.receivers i = s.receivers i) ∧
      ∀ t, t ≠ u → (s.senders t).pc ≠ .inBarrier → s'.senders t = s.senders t := by
  unfold sendMsg at h
  cases hpc : (s.senders u).pc with
  | idle | inBarrier => simp [hpc] at h
  | lockBus | lockCond | relockCond =>
    simp only [hpc, Option.ite_none_right_eq_some, Option.some.injEq] at h
    obtain ⟨-, rfl⟩ := h
    exact ⟨fun _ _ => rfl, fun t ht _ => Function.update_of_ne ht ..⟩
  | enterBarrier =>
    simp only [hpc, Option.some.injEq] at h
    subst h
    obtain ⟨-, -, -, hreceivers, hsenders⟩ :=
      barrierWait_frame nodesCount (s.setSender u .inBarrier)
    refine ⟨hreceivers, fun t ht hout => ?_⟩
    have hsame : (s.setSender u .inBarrier).senders t = s.senders t := Function.update_of_ne ht ..
    rw [hsenders t (Or.inl (by rwa [hsame])), hsame]
  | setUsing | clearBus | writeBus | writeLen | setAvailable | broadcast |
    unlockCond | clearAvailable
  | reunlockCond | clearUsing | unlockBus =>
    simp only [hpc, Option.some.injEq] at h
    subst h
    exact ⟨fun _ _ => rfl, fun t ht _ => Function.update_of_ne ht ..⟩

/-- A receiver outside of the barrier is moved by its own thread only. -/
theorem receivers_of_step {a : Action V T} (ha : a ≠ .receiver i)
    (hi : (s.receivers i).pc ≠ .inBarrier) (h : step owner nodesCount s a = some s') :
    s'.receivers i = s.receivers i := by
  cases a with
  | call u m =>
    simp only [step, Option.ite_none_right_eq_some, Option.some.injEq] at h
    obtain ⟨-, rfl⟩ := h
    rfl
  | sender u => exact (send_frame h).1 i hi
  | receiver j => exact (receive_frame h).2.2.2.1 i (fun hij => ha (by rw [hij])) hi

theorem sendMsg_of_not_holds {u : T} (hmtx : s.busMtx = some t)
    (hu : (s.senders u).pc.holds = false) :
    sendMsg owner nodesCount s u = none := by
  unfold sendMsg
  cases hpc : (s.senders u).pc with
  | idle | lockBus => simp [hmtx]
  | setUsing | clearBus | writeBus | writeLen | lockCond | setAvailable | broadcast | unlockCond
  | enterBarrier | inBarrier | relockCond | clearAvailable | reunlockCond |
    clearUsing | unlockBus =>
    simp [hpc, TxPc.holds] at hu

/-- Nobody else gets on while a thread has the bus. -/
theorem sendMsg_of_other {u : T} (ho : Owned s) (hmtx : s.busMtx = some t) (hu : u ≠ t) :
    sendMsg owner nodesCount s u = none := by
  refine sendMsg_of_not_holds hmtx ?_
  by_contra hholds
  have hmtx' := (ho u).mp (by simpa using hholds)
  rw [hmtx] at hmtx'
  exact hu (Option.some.inj hmtx').symm

/-! ## The barrier does not open -/

/-- A thread has the bus, its message has not passed the barrier, and the receive thread of
another node is not in the barrier. -/
structure Stalls (owner : T → V) (s : State V T) (i : V) (t : T) : Prop where
  outside : (s.receivers i).pc ≠ .inBarrier
  holder : s.busMtx = some t
  other : owner t ≠ i
  unreleased : (s.senders t).pc.released = false

section Barrier

variable [Fintype V]

omit [DecidableEq T] in
/-- The node of the holder is not in the barrier. -/
theorem owner_notMem_inside (hinv : Inv owner s) (ht : s.busMtx = some t) : owner t ∉ inside s := by
  intro hin
  obtain ⟨past, hb⟩ := hinv.bus
  obtain ⟨h, hview, -, hne⟩ := hb.reading (owner t) (by rw [mem_inside.mp hin]; rfl)
  rw [view_of_holds owner hinv.owned ((hinv.owned t).mpr ht)] at hview
  cases hview
  exact hne rfl

omit [DecidableEq T] in
/-- The barrier counts no more than the nodes that are not known to be elsewhere. -/
theorem arrived_add_le {away : Finset V} (hinv : Inv owner s) (haway : Disjoint (inside s) away) :
    s.arrived + away.card ≤ Fintype.card V + waiting (view owner s) := by
  have hcard : (inside s).card + away.card ≤ Fintype.card V := by
    rw [← Finset.card_union_of_disjoint haway]
    exact Finset.card_le_univ _
  have := hinv.counted
  rw [Counted] at this
  omega

namespace Stalls

omit [DecidableEq T] in
/-- The barrier does not open for the holder: the receiver is missing. -/
theorem arrived_ne_of_holder (h : Stalls owner s i t) (hcard : Fintype.card V = nodesCount + 1)
    (hinv : Inv owner s) (ht : (s.senders t).pc = .enterBarrier) : s.arrived ≠ nodesCount := by
  have haway : Disjoint (inside s) {owner t, i} := by
    rw [Finset.disjoint_right]
    intro j hj hin
    rcases Finset.mem_insert.mp hj with rfl | hj
    · exact owner_notMem_inside hinv h.holder hin
    · rw [Finset.mem_singleton.mp hj] at hin
      exact h.outside (mem_inside.mp hin)
  have hle := arrived_add_le hinv haway
  rw [Finset.card_pair h.other, view_of_holds owner hinv.owned (by rw [ht]; rfl)] at hle
  simp only [waiting, ht, reduceCtorEq, if_false] at hle
  omega

omit [DecidableEq T] in
/-- Nor does it for another receiver. -/
theorem arrived_ne_of_receiver {j : V} (h : Stalls owner s i t)
    (hcard : Fintype.card V = nodesCount + 1) (hinv : Inv owner s) (hji : j ≠ i)
    (hj : (s.receivers j).pc = .enterBarrier) : s.arrived ≠ nodesCount := by
  have hview := view_of_holds owner hinv.owned ((hinv.owned t).mpr h.holder)
  have hjt : j ≠ owner t := by
    obtain ⟨past, hb⟩ := hinv.bus
    obtain ⟨k, hk, -, hne⟩ := hb.reading j (by rw [hj]; rfl)
    rw [hview] at hk
    cases hk
    exact hne.symm
  have haway : Disjoint (inside s) {j, owner t, i} := by
    rw [Finset.disjoint_right]
    intro k hk hin
    rw [Finset.mem_insert, Finset.mem_insert, Finset.mem_singleton] at hk
    rcases hk with rfl | rfl | rfl
    · rw [mem_inside, hj] at hin
      cases hin
    · exact owner_notMem_inside hinv h.holder hin
    · exact h.outside (mem_inside.mp hin)
  have hle := arrived_add_le hinv haway
  have hthree : ({j, owner t, i} : Finset V).card = 3 := Finset.card_eq_three.mpr
    ⟨j, owner t, i, hjt, hji, h.other, rfl⟩
  have hwaiting : waiting (view owner s) ≤ 1 := by
    rw [hview]
    simp only [waiting]
    split <;> omega
  omega

omit [DecidableEq V] [Fintype V] in
/-- The holder goes on, and stays in front of the barrier. -/
theorem of_sender {x : Sender} (h : Stalls owner s i t) (hm : TxMoves s s' t x)
    (hmtx : s'.busMtx = s.busMtx) (hx : x.pc.released = false) : Stalls owner s' i t where
  outside := by rw [hm.receivers]; exact h.outside
  holder := by rw [hmtx]; exact h.holder
  other := h.other
  unreleased := by simpa [hm.senders] using hx

/-- The holder gets as far as the barrier. -/
theorem sendMsg (h : Stalls owner s i t) (hcard : Fintype.card V = nodesCount + 1)
    (hinv : Inv owner s) (hstep : sendMsg owner nodesCount s t = some s') :
    Stalls owner s' i t ∧ s'.sent = s.sent ∧ s'.returned = s.returned := by
  have hholds := (hinv.owned t).mpr h.holder
  have hunreleased := h.unreleased
  unfold SharedBus.sendMsg at hstep
  cases hpc : (s.senders t).pc with
  | idle | lockBus => simp [hpc, TxPc.holds] at hholds
  | relockCond | clearAvailable | reunlockCond | clearUsing | unlockBus =>
    simp [hpc, TxPc.released] at hunreleased
  | inBarrier => simp [hpc] at hstep
  | lockCond =>
    simp only [hpc, Option.ite_none_right_eq_some, Option.some.injEq] at hstep
    obtain ⟨-, rfl⟩ := hstep
    exact ⟨h.of_sender {} rfl rfl, rfl, rfl⟩
  | setUsing | clearBus | writeBus | writeLen | setAvailable | broadcast | unlockCond =>
    simp only [hpc, Option.some.injEq] at hstep
    subst hstep
    exact ⟨h.of_sender {} rfl rfl, rfl, rfl⟩
  | enterBarrier =>
    have harrived := h.arrived_ne_of_holder hcard hinv hpc
    simp only [hpc, Option.some.injEq] at hstep
    subst hstep
    have hin : Stalls owner (s.setSender t .inBarrier) i t := h.of_sender {} rfl rfl
    rw [barrierWait_of_ne (s := s.setSender t .inBarrier) harrived]
    exact ⟨⟨hin.outside, hin.holder, hin.other, hin.unreleased⟩, rfl, rfl⟩

omit [DecidableEq T] in
/-- The other receivers get as far as the barrier, too. -/
theorem receiveMsgRoutine {j : V} (h : Stalls owner s i t) (hcard : Fintype.card V = nodesCount + 1)
    (hinv : Inv owner s) (hj : j ≠ i) (hstep : receiveMsgRoutine nodesCount s j = some s') :
    Stalls owner s' i t ∧ s'.sent = s.sent ∧ s'.returned = s.returned := by
  obtain ⟨hmtx, hsent, hreturned, hreceivers, hsenders⟩ := receive_frame hstep
  refine ⟨⟨?_, hmtx.trans h.holder, h.other, ?_⟩, hsent, hreturned⟩
  · rw [hreceivers i hj.symm h.outside]
    exact h.outside
  · rw [hsenders t (Or.inr fun hlast => h.arrived_ne_of_receiver hcard hinv hj hlast)]
    exact h.unreleased

/-- As long as the receiver stays away, no thread but the holder goes on with `send_msg`, and
the holder only up to the barrier. -/
theorem kept {a : Action V T} (h : Stalls owner s i t) (hcard : Fintype.card V = nodesCount + 1)
    (hinv : Inv owner s) (ha : a ≠ .receiver i) (hstep : step owner nodesCount s a = some s') :
    Stalls owner s' i t ∧ s'.sent = s.sent ∧ s'.returned = s.returned := by
  cases a with
  | call u m =>
    simp only [step, Option.ite_none_right_eq_some, Option.some.injEq] at hstep
    obtain ⟨hidle, rfl⟩ := hstep
    have ht : t ≠ u := by
      rintro rfl
      have hholds := (hinv.owned t).mpr h.holder
      rw [hidle] at hholds
      cases hholds
    exact ⟨⟨h.outside, h.holder, h.other, by simpa [ht] using h.unreleased⟩, rfl, rfl⟩
  | sender u =>
    by_cases hu : u = t
    · subst hu
      exact h.sendMsg hcard hinv hstep
    · cases (sendMsg_of_other hinv.owned h.holder hu).symm.trans hstep
  | receiver j => exact h.receiveMsgRoutine hcard hinv (fun hj => ha (by rw [hj])) hstep

end Stalls

/-! ## A node that has died -/

/-- The action is one of the threads of a node. -/
def ofNode (owner : T → V) (i : V) : Action V T → Bool
  | .call t _ => owner t = i
  | .sender t => owner t = i
  | .receiver j => j = i

/-- The sends that can still return: that of another node if it has passed the barrier, and
`free` if nobody has the bus. -/
def credit (owner : T → V) (i : V) (free : ℕ) (s : State V T) : ℕ :=
  match s.busMtx with
  | none => free
  | some t => if owner t ≠ i ∧ (s.senders t).pc.released = true then 1 else 0

omit [DecidableEq T] [Fintype V] in
theorem credit_le_one (free : ℕ) (hfree : free ≤ 1) : credit owner i free s ≤ 1 := by
  unfold credit
  split
  · exact hfree
  · split <;> omega

omit [DecidableEq T] [Fintype V] in
theorem credit_of_not_passed {free : ℕ} (hmtx : s.busMtx = some t)
    (h : owner t = i ∨ (s.senders t).pc.released = false) : credit owner i free s = 0 := by
  simp only [credit, hmtx]
  refine if_neg fun hpassed => ?_
  rcases h with h | h
  · exact hpassed.1 h
  · rw [h] at hpassed
    cases hpassed.2

omit [DecidableEq T] [Fintype V] in
theorem credit_of_passed {free : ℕ} (hmtx : s.busMtx = some t) (hother : owner t ≠ i)
    (h : (s.senders t).pc.released = true) : credit owner i free s = 1 := by
  simp only [credit, hmtx]
  exact if_pos ⟨hother, h⟩

/-- What is used of the credit: returns are paid with `free = 0`, and messages on the bus with
`free = 1`. -/
def Paid (owner : T → V) (i : V) (s s' : State V T) : Prop :=
  s'.returned + credit owner i 0 s' ≤ s.returned + credit owner i 0 s ∧
    s'.sent.length + credit owner i 1 s' ≤ s.sent.length + credit owner i 1 s

omit [DecidableEq T] [Fintype V] in
theorem paid_of_le (hreturned : s'.returned = s.returned) (hsent : s'.sent = s.sent)
    (h : ∀ free ≤ 1, credit owner i free s' ≤ credit owner i free s) : Paid owner i s s' := by
  have hzero := h 0 (by omega)
  have hone := h 1 le_rfl
  unfold Paid
  rw [hreturned, hsent]
  omega

omit [Fintype V] in
/-- The bus is free: somebody may get it. -/
theorem paid_of_free {a : Action V T} (ho : Owned s) (hmtx : s.busMtx = none)
    (hstep : step owner nodesCount s a = some s') : Paid owner i s s' := by
  have hfree : ∀ u : State V T, u.busMtx = none → ∀ free, credit owner i free u = free := by
    intro u hu free
    simp only [credit, hu]
  cases a with
  | call u m =>
    simp only [step, Option.ite_none_right_eq_some, Option.some.injEq] at hstep
    obtain ⟨-, rfl⟩ := hstep
    refine paid_of_le rfl rfl fun free _ => ?_
    rw [hfree s hmtx]
    exact (hfree _ (by exact hmtx) free).le
  | receiver j =>
    obtain ⟨hmtx', hsent, hreturned, -⟩ := receive_frame hstep
    exact paid_of_le hreturned hsent fun free _ => by rw [hfree s hmtx, hfree s' (hmtx'.trans hmtx)]
  | sender u =>
    have hout : ¬ (s.senders u).pc.holds = true := fun hholds => by
      have := (ho u).mp hholds
      rw [hmtx] at this
      cases this
    simp only [step, sendMsg] at hstep
    cases hpc : (s.senders u).pc with
    | idle => simp [hpc] at hstep
    | lockBus =>
      simp only [hpc, Option.ite_none_right_eq_some, Option.some.injEq] at hstep
      obtain ⟨-, rfl⟩ := hstep
      have hnone : ∀ free, credit owner i free { s.setSender u .setUsing with
          busMtx := some u, sent := s.sent ++ [(owner u, (s.senders u).msg.bytes)] } = 0 :=
        fun free => credit_of_not_passed rfl (Or.inr (by simp [State.setSender, TxPc.released]))
      rw [Paid, hnone, hnone, hfree s hmtx, hfree s hmtx, List.length_append]
      exact ⟨le_rfl, le_rfl⟩
    | setUsing | clearBus | writeBus | writeLen | lockCond | setAvailable | broadcast | unlockCond
    | enterBarrier | inBarrier | relockCond | clearAvailable | reunlockCond |
      clearUsing | unlockBus =>
      simp [hpc, TxPc.holds] at hout

omit [Fintype V] in
/-- A message that has passed the barrier may return. -/
theorem paid_of_passed {a : Action V T} (ho : Owned s) (hmtx : s.busMtx = some t)
    (hother : owner t ≠ i) (hpassed : (s.senders t).pc.released = true)
    (hstep : step owner nodesCount s a = some s') :
    Paid owner i s s' := by
  have hone : ∀ free, credit owner i free s = 1 := fun free => credit_of_passed hmtx hother hpassed
  have hsame : s'.returned = s.returned → s'.sent = s.sent → Paid owner i s s' :=
    fun hreturned hsent =>
    paid_of_le hreturned hsent fun free hfree =>
      (credit_le_one free hfree).trans_eq (hone free).symm
  cases a with
  | call u m =>
    simp only [step, Option.ite_none_right_eq_some, Option.some.injEq] at hstep
    obtain ⟨-, rfl⟩ := hstep
    exact hsame rfl rfl
  | receiver j =>
    obtain ⟨-, hsent, hreturned, -⟩ := receive_frame hstep
    exact hsame hreturned hsent
  | sender u =>
    by_cases hu : u = t
    · subst hu
      simp only [step, sendMsg] at hstep
      cases hpc : (s.senders u).pc with
      | relockCond =>
        simp only [hpc, Option.ite_none_right_eq_some, Option.some.injEq] at hstep
        obtain ⟨-, rfl⟩ := hstep
        exact hsame rfl rfl
      | clearAvailable | reunlockCond | clearUsing =>
        simp only [hpc, Option.some.injEq] at hstep
        subst hstep
        exact hsame rfl rfl
      | unlockBus =>
        simp only [hpc, Option.some.injEq] at hstep
        subst hstep
        rw [Paid, hone, hone]
        exact ⟨le_rfl, le_rfl⟩
      | idle | lockBus | setUsing | clearBus | writeBus | writeLen | lockCond |
        setAvailable | broadcast
      | unlockCond | enterBarrier | inBarrier => simp [hpc, TxPc.released] at hpassed
    · cases (sendMsg_of_other ho hmtx hu).symm.trans hstep

omit [Fintype V] in
/-- The node itself has the bus, and keeps it. -/
theorem paid_of_own {a : Action V T} (ho : Owned s) (hmtx : s.busMtx = some t) (hown : owner t = i)
    (ha : ofNode owner i a = false) (hstep : step owner nodesCount s a = some s') :
    Paid owner i s s' := by
  have hsame : s'.busMtx = s.busMtx → s'.returned = s.returned → s'.sent = s.sent →
      Paid owner i s s' :=
    fun hmtx' hreturned hsent => paid_of_le hreturned hsent fun free _ => by
      rw [credit_of_not_passed (hmtx'.trans hmtx) (Or.inl hown)]
      exact Nat.zero_le _
  cases a with
  | call u m =>
    simp only [step, Option.ite_none_right_eq_some, Option.some.injEq] at hstep
    obtain ⟨-, rfl⟩ := hstep
    exact hsame rfl rfl rfl
  | receiver j =>
    obtain ⟨hmtx', hsent, hreturned, -⟩ := receive_frame hstep
    exact hsame hmtx' hreturned hsent
  | sender u =>
    have hu : u ≠ t := by
      rintro rfl
      simp [ofNode, hown] at ha
    cases (sendMsg_of_other ho hmtx hu).symm.trans hstep

/-- The step lemma for a node that has died outside of the barrier. -/
theorem paid_step {a : Action V T} (hcard : Fintype.card V = nodesCount + 1) (hinv : Inv owner s)
    (hout : (s.receivers i).pc ≠ .inBarrier) (ha : ofNode owner i a = false)
    (hstep : step owner nodesCount s a = some s') :
    (s'.receivers i).pc ≠ .inBarrier ∧ Paid owner i s s' := by
  have hreceiver : a ≠ .receiver i := by
    rintro rfl
    simp [ofNode] at ha
  refine ⟨by rwa [receivers_of_step hreceiver hout hstep], ?_⟩
  cases hmtx : s.busMtx with
  | none => exact paid_of_free hinv.owned hmtx hstep
  | some t =>
    by_cases hown : owner t = i
    · exact paid_of_own hinv.owned hmtx hown ha hstep
    · cases hreleased : (s.senders t).pc.released with
      | true => exact paid_of_passed hinv.owned hmtx hown hreleased hstep
      | false =>
        have hstalls : Stalls owner s i t := ⟨hout, hmtx, hown, hreleased⟩
        obtain ⟨hstalls', hsent, hreturned⟩ := hstalls.kept hcard hinv hreceiver hstep
        refine paid_of_le hreturned hsent fun free _ => ?_
        rw [credit_of_not_passed hstalls'.holder (Or.inr hstalls'.unreleased)]
        exact Nat.zero_le _

/-- Once a node takes no more steps, and is not just waiting in the barrier, at most one more
`send_msg` of the whole machine returns and at most one more message gets on the bus, in
whatever way the other threads go on without a race. -/
theorem dead_node_stops_bus (hcard : Fintype.card V = nodesCount + 1)
    (hreach : Reaches (step owner nodesCount) (fun s a => races owner s a = false) {} s)
    (hout : (s.receivers i).pc ≠ .inBarrier)
    (hlater : Reaches (step owner nodesCount) (fun s a => races owner s a = false ∧
      ofNode owner i a = false) s s') :
    s'.returned ≤ s.returned + 1 ∧ s'.sent.length ≤ s.sent.length + 1 := by
  have hinv : Inv owner s := hreach.invariant (Inv owner) (inv_initial owner)
    fun _ _ _ hi hrace hu => inv_step hcard hi hrace hu
  have hpaid : Inv owner s' ∧ (s'.receivers i).pc ≠ .inBarrier ∧ Paid owner i s s' := by
    refine hlater.invariant (fun u => Inv owner u ∧ (u.receivers i).pc ≠ .inBarrier ∧
      Paid owner i s u)
      ⟨hinv, hout, le_rfl, le_rfl⟩ ?_
    rintro u a v ⟨hi, ho, hp⟩ ⟨hrace, ha⟩ hv
    obtain ⟨ho', hp'⟩ := paid_step hcard hi ho ha hv
    exact ⟨inv_step hcard hi hrace hv, ho', hp'.1.trans hp.1, hp'.2.trans hp.2⟩
  obtain ⟨hreturned, hsent⟩ := hpaid.2.2
  have hzero : credit owner i 0 s ≤ 1 := credit_le_one 0 (by omega)
  have hone : credit owner i 1 s ≤ 1 := credit_le_one 1 le_rfl
  omega

end Barrier

/-- The component `true` has died; the gateway `false` relays a message and waits for it. -/
theorem dead_component_stops_gateway : ∃ s' : State Bool Unit,
    Reaches (step (fun _ => false) 1) (fun s a => races (fun _ => false) s a = false ∧
      ofNode (fun _ => false) true a = false) {} s' ∧ (s'.senders ()).pc = .inBarrier ∧
      s'.returned ≤ 1 ∧ s'.sent.length ≤ 1 := by
  have hrun : ((runIf (fun s a => !races (fun _ => false) s a && !ofNode (fun _ => false) true a)
      (step (fun _ => false) 1) {} (announce (oneByte 97))).map fun s => (s.senders ()).pc) =
        some .inBarrier := by
    decide +kernel
  obtain ⟨s', hs', hpc⟩ := exists_reaches_of_runIf (fun s a => races (fun _ => false) s a = false ∧
    ofNode (fun _ => false) true a = false) _ (by simp) hrun
  exact ⟨s', hs', hpc, dead_node_stops_bus rfl .refl (by decide) hs'⟩

end CarNetwork.SharedBus
