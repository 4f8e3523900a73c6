import CarNetwork.SharedBusInvariant

/-!
# Every run without a race delivers exactly once

The step lemmas of the bus, one for the senders and one for the receivers, and what
they give for whole runs. A run of two nodes shows the race: the receiver finds
`msg_available` still set, takes the old message a second time and never sees the
new one.
-/
namespace CarNetwork.SharedBus

open CarNetwork.ByteText CarNetwork.Runs

variable {V T : Type} [DecidableEq V] [DecidableEq T] [Fintype V]

/-- The action is a receiver passing its `using_bus` test while no message is live, or a
sender storing a length while a receiver that has left the barrier has not made its
call yet. -/
def races (owner : T → V) (s : State V T) : Action V T → Bool
  | .call _ _ => false
  | .sender t =>
    decide ((s.senders t).pc = .writeLen) && decide (∃ i, (s.receivers i).pc = .handOver)
  | .receiver i =>
    decide ((s.receivers i).pc = .checkUsing) && !s.usingBus i && !(view owner s).any (·.pc.live)

section Steps

variable {owner : T → V} {nodesCount : ℕ} {s s' : State V T}

omit [DecidableEq T] in
theorem inv_initial (owner : T → V) : Inv owner ({} : State V T) := by
  refine ⟨by simp [Owned, TxPc.holds], ⟨[], ?_⟩, by simp [Counted, inside, view, waiting]⟩
  constructor <;> simp [view, RxPc.reading, done, expected, inHand]

theorem inv_call {t : T} {m : BusMessage} (hinv : Inv owner s) (hidle : (s.senders t).pc = .idle) :
    Inv owner { s with senders := Function.update s.senders t { pc := .lockBus, msg := m } } := by
  have hmtx : s.busMtx ≠ some t := fun h => by
    have := (hinv.owned t).mpr h
    rw [hidle] at this
    cases this
  have hview :
      view owner { s with senders := Function.update s.senders t { pc := .lockBus, msg := m } } =
      view owner s := by
    cases hm : s.busMtx with
    | none => simp [view, hm]
    | some u =>
      have hu : u ≠ t := fun h => hmtx (h ▸ hm)
      simp [view, hm, hu]
  obtain ⟨past, hb⟩ := hinv.bus
  refine ⟨fun u => ?_, ⟨past, ?_⟩, ?_⟩
  · by_cases hu : u = t
    · subst hu
      simpa [TxPc.holds] using hmtx
    · simpa [hu] using hinv.owned u
  · rw [hview]
    exact ⟨hb.usingBus, hb.stored, hb.length, hb.reading, hb.copied, hb.sent, hb.returned,
      hb.history⟩
  · rw [hview]
    exact hinv.counted

theorem inv_lockBus {t : T} (hinv : Inv owner s) (hpc : (s.senders t).pc = .lockBus)
    (hfree : s.busMtx = none) :
    Inv owner { s.setSender t .setUsing with
      busMtx := some t, sent := s.sent ++ [(owner t, (s.senders t).msg.bytes)] } := by
  obtain ⟨past, hb⟩ := hinv.bus
  have hview : view owner s = none := by simp [view, hfree]
  have hview' : view owner { s.setSender t .setUsing with
      busMtx := some t, sent := s.sent ++ [(owner t, (s.senders t).msg.bytes)] } =
      some ⟨owner t, .setUsing, (s.senders t).msg.bytes⟩ := by simp [view, State.setSender]
  rw [hview] at hb
  refine ⟨fun u => ?_, ⟨past, hview' ▸ hb.lock rfl rfl rfl rfl rfl rfl rfl⟩, ?_⟩
  · by_cases hu : u = t
    · subst hu
      simp [State.setSender, TxPc.holds]
    · have hno : (s.senders u).pc.holds = false := by
        by_contra h
        have := (hinv.owned u).mp (by simpa using h)
        rw [hfree] at this
        cases this
      simp [State.setSender, hu, hno, Ne.symm hu]
  · have hcounted := hinv.counted
    rw [hview] at hcounted
    rw [hview']
    exact hcounted

theorem inv_unlockBus {t : T} (hinv : Inv owner s) (hpc : (s.senders t).pc = .unlockBus) :
    Inv owner { s.setSender t .idle with busMtx := none, returned := s.returned + 1 } := by
  obtain ⟨past, hb⟩ := hinv.bus
  have hholds : (s.senders t).pc.holds = true := by rw [hpc]; rfl
  have hmtx := (hinv.owned t).mp hholds
  have hview := view_of_holds owner hinv.owned hholds
  rw [hview] at hb
  refine ⟨fun u => ?_, ⟨_, hb.unlock rfl rfl rfl rfl rfl rfl hpc⟩, ?_⟩
  · by_cases hu : u = t
    · subst hu
      simp [State.setSender, TxPc.holds]
    · have hno : ¬ (s.senders u).pc.holds = true := fun h => by
        have := (hinv.owned u).mp h
        rw [hmtx] at this
        exact hu (Option.some.inj this).symm
      simpa [State.setSender, hu] using hno
  · have hcounted := hinv.counted
    simp only [Counted, hview, waiting, hpc, reduceCtorEq, if_false] at hcounted
    exact hcounted

/-- The sender enters the barrier, where the receivers wait for it or it for them. -/
theorem inv_sendBarrier {t : T} (hcard : Fintype.card V = nodesCount + 1) (hinv : Inv owner s)
    (hpc : (s.senders t).pc = .enterBarrier) :
    Inv owner ((s.setSender t .inBarrier).barrierWait nodesCount) := by
  obtain ⟨past, hb⟩ := hinv.bus
  have hholds : (s.senders t).pc.holds = true := by rw [hpc]; rfl
  have hview := view_of_holds owner hinv.owned hholds
  obtain ⟨howned, hview'⟩ : Owned (s.setSender t .inBarrier) ∧
      view owner (s.setSender t .inBarrier) = some ⟨owner t, .inBarrier, (s.senders t).msg.bytes⟩ :=
    owned_of_move owner hinv.owned hholds rfl {}
  rw [hview, hpc] at hb
  have hno : TxPc.Silent .enterBarrier .inBarrier := {}
  refine inv_barrierWait hcard howned hview' (hb.advance {} hno) ?_
  have hcounted := hinv.counted
  simp only [Counted, hview, waiting, hpc, reduceCtorEq, if_false, add_zero] at hcounted
  simp only [waiting, if_true]
  exact congrArg (· + 1) hcounted

theorem inv_sendMsg {t : T} (hcard : Fintype.card V = nodesCount + 1) (hinv : Inv owner s)
    (hok : (s.senders t).pc = .writeLen → ∀ i, (s.receivers i).pc ≠ .handOver)
    (h : sendMsg owner nodesCount s t = some s') : Inv owner s' := by
  -- the steps on the condition variable and its mutex
  have hsilent {p : TxPc} {s' : State V T} (pc : TxPc) (hpc : (s.senders t).pc =
      p) (hpcs : p.Inside pc)
      (hm : SenderMoves s s' t pc) (hs : SameBus s s') (hno : p.Silent pc) : Inv owner s' :=
    inv_of_move pc hinv hpc hpcs hm fun _ hb => hb.advance hs hno
  unfold sendMsg at h
  cases hpc : (s.senders t).pc with
  | idle => simp [hpc] at h
  | inBarrier => simp [hpc] at h
  | lockBus =>
    simp only [hpc, Option.ite_none_right_eq_some, Option.some.injEq] at h
    obtain ⟨hfree, rfl⟩ := h
    exact inv_lockBus hinv hpc hfree
  | unlockBus =>
    simp only [hpc, Option.some.injEq] at h
    subst h
    exact inv_unlockBus hinv hpc
  | setUsing =>
    simp only [hpc, Option.some.injEq] at h
    subst h
    refine inv_of_move .clearBus hinv hpc {} {} fun past hb => ?_
    refine hb.write rfl {} rfl (fun i => ?_) (by simp [TxPc.stored]) (by simp [TxPc.written])
      fun i => rfl
    have hno : s.usingBus i = false := by
      have := hb.usingBus i
      simpa [TxPc.usesBus] using this
    by_cases hi : i = owner t
    · simp [hi, TxPc.usesBus]
    · simp [hi, hno, TxPc.usesBus, Ne.symm hi]
  | clearBus =>
    simp only [hpc, Option.some.injEq] at h
    subst h
    refine inv_of_move .writeBus hinv hpc {} {} fun past hb => ?_
    exact hb.write rfl {} rfl (fun i =>
      by simpa [TxPc.usesBus, State.setSender] using hb.usingBus i)
      (by simp [TxPc.stored]) (by simp [TxPc.written]) fun i => rfl
  | writeBus =>
    simp only [hpc, Option.some.injEq] at h
    subst h
    refine inv_of_move .writeLen hinv hpc {} {} fun past hb => ?_
    exact hb.write rfl {} rfl (fun i =>
      by simpa [TxPc.usesBus, State.setSender] using hb.usingBus i)
      (fun _ => by simp) (by simp [TxPc.written]) fun i => rfl
  | writeLen =>
    simp only [hpc, Option.some.injEq] at h
    subst h
    refine inv_of_move .lockCond hinv hpc {} {} fun past hb => ?_
    exact hb.write rfl {} rfl (fun i =>
      by simpa [TxPc.usesBus, State.setSender] using hb.usingBus i)
      (fun _ => hb.stored _ rfl rfl) (fun _ => rfl) fun i => by
        simp [inHand, State.setSender, hok hpc i]
  | lockCond =>
    simp only [hpc, Option.ite_none_right_eq_some, Option.some.injEq] at h
    obtain ⟨-, rfl⟩ := h
    exact hsilent .setAvailable hpc {} {} {} {}
  | setAvailable =>
    simp only [hpc, Option.some.injEq] at h
    subst h
    exact hsilent .broadcast hpc {} {} {} {}
  | broadcast =>
    simp only [hpc, Option.some.injEq] at h
    subst h
    exact hsilent .unlockCond hpc {} {} {} {}
  | unlockCond =>
    simp only [hpc, Option.some.injEq] at h
    subst h
    exact hsilent .enterBarrier hpc {} {} {} {}
  | enterBarrier =>
    simp only [hpc, Option.some.injEq] at h
    subst h
    exact inv_sendBarrier hcard hinv hpc
  | relockCond =>
    simp only [hpc, Option.ite_none_right_eq_some, Option.some.injEq] at h
    obtain ⟨-, rfl⟩ := h
    exact hsilent .clearAvailable hpc {} {} {} {}
  | clearAvailable =>
    simp only [hpc, Option.some.injEq] at h
    subst h
    exact hsilent .reunlockCond hpc {} {} {} {}
  | reunlockCond =>
    simp only [hpc, Option.some.injEq] at h
    subst h
    exact hsilent .clearUsing hpc {} {} {} {}
  | clearUsing =>
    simp only [hpc, Option.some.injEq] at h
    subst h
    refine inv_of_move .unlockBus hinv hpc {} {} fun past hb => ?_
    refine hb.write rfl {} rfl (fun i => ?_) (fun _ => hb.stored _ rfl rfl)
      (fun _ => hb.length _ rfl rfl) fun i => rfl
    by_cases hi : i = owner t
    · simp [hi, TxPc.usesBus]
    · have := hb.usingBus i
      simpa [hi, TxPc.usesBus, Ne.symm hi] using this

omit [DecidableEq T] in
theorem inside_update {i : V} {r : Receiver}
    (hreceivers : s'.receivers = Function.update s.receivers i r)
    (hout : (s.receivers i).pc ≠ .inBarrier) (hout' : r.pc ≠ .inBarrier) :
    inside s' = inside s := by
  ext j
  by_cases hj : j = i
  · subst hj
    simp [hreceivers, hout, hout']
  · simp [hreceivers, hj]

omit [DecidableEq T] in
/-- A receiver moves outside the barrier. -/
theorem inv_of_receive {i : V} {r : Receiver} (hinv : Inv owner s) (hm : ReceiverMoves s s' i r)
    (hout : (s.receivers i).pc ≠ .inBarrier) (hout' : r.pc ≠ .inBarrier)
    (hbus : ∀ past, BusInv s (view owner s) past → BusInv s' (view owner s) past) :
    Inv owner s' := by
  have hview : view owner s' = view owner s := by rw [view, view, hm.busMtx, hm.senders]
  obtain ⟨past, hb⟩ := hinv.bus
  refine ⟨fun t => ?_, ⟨past, hview ▸ hbus past hb⟩, ?_⟩
  · rw [hm.busMtx, hm.senders]
    exact hinv.owned t
  · rw [hview, Counted, hm.arrived, inside_update hm.receivers hout hout']
    exact hinv.counted

omit [DecidableEq T] in
theorem inv_enterBarrier {i : V} (hcard : Fintype.card V = nodesCount + 1) (hinv : Inv owner s)
    (hpc : (s.receivers i).pc = .enterBarrier) :
    Inv owner ((s.setReceiver i { s.receivers i with pc := .inBarrier }).barrierWait
      nodesCount) := by
  obtain ⟨past, hb⟩ := hinv.bus
  obtain ⟨h, hh, hlive, hne⟩ := hb.reading i (by rw [hpc]; rfl)
  have hview : view owner s = some h := hh
  have hcounted := hinv.counted
  rw [hview] at hb hcounted
  have hentered : BusInv (s.setReceiver i { s.receivers i with pc := .inBarrier })
      (some h) past := by
    have hm : ReceiverMoves s (s.setReceiver i { s.receivers i with pc := .inBarrier }) i
        { s.receivers i with pc := .inBarrier } := {}
    refine hb.receive hm (fun _ _ => rfl) (fun _ => ⟨h, rfl, hlive, hne⟩)
      (fun h' hh' _ => hb.copied h' hh' i (by rw [hpc]; rfl)) ?_
    simp [inHand, State.setReceiver, hpc]
  have hinside : inside (s.setReceiver i { s.receivers i with pc := .inBarrier }) =
      insert i (inside s) := by
    ext j
    by_cases hj : j = i
    · subst hj
      simp [State.setReceiver]
    · simp [State.setReceiver, hj]
  have hnot : i ∉ inside s := by simp [hpc]
  refine inv_barrierWait hcard hinv.owned hview hentered ?_
  rw [hinside, Finset.card_insert_of_notMem hnot]
  simp only [Counted] at hcounted
  change s.arrived + 1 = _
  omega

omit [DecidableEq T] in
theorem inv_receiveMsgRoutine {i : V} (hcard : Fintype.card V = nodesCount + 1) (hinv : Inv owner s)
    (hok : (s.receivers i).pc = .checkUsing → s.usingBus i = false → ∃ h ∈ view owner s,
      h.pc.live = true)
    (h : receiveMsgRoutine nodesCount s i = some s') : Inv owner s' := by
  -- the steps outside a reception
  have hquiet {r : Receiver} {s' : State V T} (hpc : (s.receivers i).pc.quiet = true)
      (hpc' : r.pc.quiet = true) (hm : ReceiverMoves s s' i r)
      (hreceived : s'.received = s.received) :
      Inv owner s' :=
    inv_of_receive hinv hm (RxPc.of_quiet hpc).2.2.2 (RxPc.of_quiet hpc').2.2.2 fun _ hb =>
      hb.quiet hm hreceived hpc hpc'
  unfold receiveMsgRoutine at h
  cases hpc : (s.receivers i).pc with
  | lock =>
    simp only [hpc, Option.ite_none_right_eq_some, Option.some.injEq] at h
    obtain ⟨-, rfl⟩ := h
    exact hquiet (by rw [hpc]; rfl) rfl {} rfl
  | test =>
    simp only [hpc] at h
    split at h <;> cases h <;>
      exact hquiet (by rw [hpc]; rfl) rfl {} rfl
  | sleep =>
    simp only [hpc, Option.some.injEq] at h
    subst h
    exact hquiet (by rw [hpc]; rfl) rfl {} rfl
  | relock =>
    simp only [hpc, Option.ite_none_right_eq_some, Option.some.injEq] at h
    obtain ⟨-, rfl⟩ := h
    exact hquiet (by rw [hpc]; rfl) rfl {} rfl
  | unlock =>
    simp only [hpc, Option.some.injEq] at h
    subst h
    exact hquiet (by rw [hpc]; rfl) rfl {} rfl
  | checkUsing =>
    simp only [hpc] at h
    split at h
    · cases h
      exact hquiet (by rw [hpc]; rfl) rfl {} rfl
    · rename_i husing
      cases h
      refine inv_of_receive hinv {} (by simp [hpc]) (by simp) fun past hb => ?_
      obtain ⟨ho, hh, hlive⟩ := hok hpc (by simpa using husing)
      refine hb.receive {} (fun _ _ => rfl) (fun _ => ⟨ho, hh, hlive, fun hnode => ?_⟩)
        (by simp [RxPc.copied]) (by simp [inHand, State.setReceiver, hpc])
      -- the flag of the holder's node is set while its message is live
      refine husing ((hb.usingBus i).mpr ⟨ho, hh, ?_, hnode⟩)
      revert hlive
      cases ho.pc <;> simp [TxPc.live, TxPc.usesBus]
  | alloc =>
    simp only [hpc, Option.some.injEq] at h
    subst h
    refine inv_of_receive hinv {} (by simp [hpc]) (by simp) fun past hb => ?_
    exact hb.receive {} (fun _ _ => rfl) (fun _ => hb.reading i (by rw [hpc]; rfl))
      (by simp [RxPc.copied]) (by simp [inHand, State.setReceiver, hpc])
  | copy =>
    simp only [hpc, Option.some.injEq] at h
    subst h
    refine inv_of_receive hinv {} (by simp [hpc]) (by simp) fun past hb => ?_
    obtain ⟨ho, hh, hlive, hne⟩ := hb.reading i (by rw [hpc]; rfl)
    refine hb.receive {} (fun _ _ => rfl) (fun _ => ⟨ho, hh, hlive, hne⟩)
      (fun ho' hh' _ => ?_) (by simp [inHand, State.setReceiver, hpc])
    obtain rfl : ho = ho' := Option.mem_unique hh hh'
    have hclass : ho.pc.stored = true ∧ ho.pc.written = true := by
      revert hlive
      cases ho.pc <;> simp [TxPc.live, TxPc.stored, TxPc.written]
    rw [hb.length ho hh hclass.2]
    exact hb.stored ho hh hclass.1
  | enterBarrier =>
    simp only [hpc, Option.some.injEq] at h
    subst h
    exact inv_enterBarrier hcard hinv hpc
  | inBarrier => simp [hpc] at h
  | handOver =>
    simp only [hpc, Option.some.injEq] at h
    subst h
    refine inv_of_receive hinv {} (by simp [hpc]) (by simp) fun past hb => ?_
    exact hb.receive {} (fun j hj => by simp [hj]) (by simp [RxPc.reading])
      (by simp [RxPc.copied]) (by simp [inHand, State.setReceiver, hpc])
  | handling =>
    simp only [hpc, Option.some.injEq] at h
    subst h
    exact hquiet (by rw [hpc]; rfl) rfl {} rfl

theorem inv_step {a : Action V T} (hcard : Fintype.card V = nodesCount + 1) (hinv : Inv owner s)
    (hrace : races owner s a = false) (h : step owner nodesCount s a = some s') : Inv owner s' := by
  cases a with
  | call t m =>
    simp only [step, Option.ite_none_right_eq_some, Option.some.injEq] at h
    obtain ⟨hidle, rfl⟩ := h
    exact inv_call hinv hidle
  | sender t =>
    refine inv_sendMsg hcard hinv (fun hpc i hi => ?_) h
    simp only [races, hpc, decide_true, Bool.true_and, decide_eq_false_iff_not] at hrace
    exact hrace ⟨i, hi⟩
  | receiver i =>
    refine inv_receiveMsgRoutine hcard hinv (fun hpc husing => ?_) h
    simpa [races, hpc, husing, Option.any_eq_true] using hrace

/-- However many nodes and threads there are and however they interleave: without a race,
every message is handed once, in order and unchanged, to all nodes but its sender. -/
theorem delivered_exactly_once (hcard : Fintype.card V = nodesCount + 1)
    (h : Reaches (step owner nodesCount) (fun s a => races owner s a = false) {} s) :
    ExactlyOnce s := by
  have hinv : Inv owner s :=
    h.invariant (Inv owner) (inv_initial owner) fun _ _ _ hi hrace hstep =>
      inv_step hcard hi hrace hstep
  obtain ⟨past, hb⟩ := hinv.bus
  exact hb.exactlyOnce

end Steps

/-! ## Two nodes: `false` sends, `true` listens -/

def oneByte (b : UInt8) : BusMessage := ⟨[b], by simp [PAYLOAD]⟩

/-- `send_msg` up to the barrier. -/
def announce (m : BusMessage) : List (Action Bool Unit) :=
  .call () m :: List.replicate 10 (.sender ())

/-- The rest of `send_msg`. -/
def finish : List (Action Bool Unit) := List.replicate 5 (.sender ())

/-- The other node's receiver, from its lock into the barrier. -/
def take : List (Action Bool Unit) := List.replicate 7 (.receiver true)

/-- How many `send_msg` have returned, and what the other node was handed. -/
def outcome (s : State Bool Unit) : ℕ × List (ℕ × Bytes) := (s.returned, s.received true)

theorem one_message_delivered :
    ∃ s : State Bool Unit, Fintype.card Bool = 1 + 1 ∧
      Reaches (step (fun _ => false) 1) (fun s a => races (fun _ => false) s a = false) {} s ∧
      outcome s = (1, [(1, [97])]) ∧ ExactlyOnce s := by
  have hrun : ((runIf (fun s a => !races (fun _ => false) s a) (step (fun _ => false) 1) {}
      (List.flatten [announce (oneByte 97), take, [.receiver true], finish])).map outcome) =
      some (1, [(1, [97])]) := by decide +kernel
  obtain ⟨s, hs, hout⟩ := exists_reaches_of_runIf
    (fun s a => races (fun _ => false) s a = false) _ (by simp) hrun
  exact ⟨s, rfl, hs, hout, delivered_exactly_once rfl hs⟩

/-- The receiver is back at its lock before the sender clears `msg_available`, and enters
the barrier with the old message. The next `send_msg` meets it there: the second
message is never delivered, the first one twice. -/
theorem stale_message_delivered_again :
    ∃ s : State Bool Unit, Reachable (step (fun _ => false) 1) {} s ∧
      s.sent = [(false, [97]), (false, [98])] ∧ outcome s = (2, [(1, [97]), (1, [97])]) ∧
        ¬ ExactlyOnce s := by
  have hrun : ((run (step (fun _ => false) 1) {}
      (List.flatten [announce (oneByte 97), take, List.replicate 2 (.receiver true), take, finish,
        announce (oneByte 98), finish, [.receiver true]])).map fun s => (s.sent, outcome s)) =
      some ([(false, [97]), (false, [98])], (2, [(1, [97]), (1, [97])])) := by decide +kernel
  obtain ⟨s, hs, hout⟩ := exists_reachable_of_run _ hrun
  obtain ⟨hsent, hout⟩ := Prod.mk.inj hout
  refine ⟨s, hs, hsent, hout, fun honce => ?_⟩
  have hreceived : s.received true = [(1, [97]), (1, [97])] := (Prod.mk.inj hout).2
  have hpre := (honce true).1
  rw [hsent, hreceived] at hpre
  revert hpre
  decide

-- The other race: `msg_len` is read again after the barrier, here that of the next message.
example : ((run (step (fun _ => false) 1) {}
    (List.flatten [announce (oneByte 97), take, finish, (announce ⟨[98, 99], by decide⟩).take 6,
      [.receiver true]])).map outcome) = some (1, [(2, [97])]) := by decide +kernel

end CarNetwork.SharedBus
