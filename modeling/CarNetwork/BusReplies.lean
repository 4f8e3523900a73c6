import CarNetwork.BusStalls

/-!
# Answering from the receive thread blocks the bus

`on_receive_msg` runs on the receive thread, and a component that answers a message, as the
brake answers an alarm, calls `send_msg` from there. Until that call returns the thread
does not come back to the barrier. If another node gets the bus first, its `send_msg`
waits in the barrier for this thread, and this thread waits for the bus.
-/
namespace CarNetwork.SharedBus

open CarNetwork.ByteText CarNetwork.Runs

variable {V T : Type} [DecidableEq V] [DecidableEq T] [Fintype V]

section Replies

variable (handler : V → T) (owner : T → V) (nodesCount : ℕ)

/-- `handler i` is the receive thread of node `i`: it calls `send_msg` only inside
`on_receive_msg`, and does not go on with its loop before the call has returned. -/
def allowed (s : State V T) : Action V T → Bool
  | .call t _ => decide (∀ i, handler i = t → (s.receivers i).pc = .handling)
  | .sender _ => true
  | .receiver i => decide ((s.receivers i).pc = .handling → (s.senders (handler i)).pc = .idle)

/-- The bus with receive threads that send. -/
def replyStep (s : State V T) (a : Action V T) : Option (State V T) :=
  if allowed handler s a then step owner nodesCount s a else none

/-- The receive thread of node `i` waits for the bus, on which a message of another node
has not passed the barrier. -/
structure Blocks (s : State V T) (i : V) (t : T) : Prop where
  handling : (s.receivers i).pc = .handling
  waits : (s.senders (handler i)).pc = .lockBus
  holder : s.busMtx = some t
  other : owner t ≠ i
  unreleased : (s.senders t).pc.released = false

end Replies

variable {handler : V → T} {owner : T → V} {nodesCount : ℕ} {s s' : State V T} {i : V} {t : T}

theorem step_of_replyStep {a : Action V T} (h : replyStep handler owner nodesCount s a = some s') :
    allowed handler s a = true ∧ step owner nodesCount s a = some s' := by
  simpa [replyStep] using h

omit [DecidableEq V] [DecidableEq T] [Fintype V] in
/-- A receive thread that waits for the bus is not in the barrier. -/
theorem Blocks.stalls (h : Blocks handler owner s i t) : Stalls owner s i t :=
  ⟨by rw [h.handling]; nofun, h.holder, h.other, h.unreleased⟩

omit [Fintype V] in
/-- A thread that waits for the bus goes on waiting while another one has it. -/
theorem lockBus_kept {a : Action V T} {u : T} (hmtx : s.busMtx = some t)
    (hwaits : (s.senders u).pc = .lockBus) (h : step owner nodesCount s a = some s') :
    (s'.senders u).pc = .lockBus := by
  have hin : (s.senders u).pc ≠ .inBarrier := by
    rw [hwaits]
    nofun
  cases a with
  | call w m =>
    simp only [step, Option.ite_none_right_eq_some, Option.some.injEq] at h
    obtain ⟨hidle, rfl⟩ := h
    have hu : u ≠ w := by
      rintro rfl
      rw [hwaits] at hidle
      cases hidle
    simpa [hu] using hwaits
  | sender w =>
    have hw : u ≠ w := by
      rintro rfl
      have hnone : sendMsg owner nodesCount s u = none :=
        sendMsg_of_not_holds hmtx (by rw [hwaits]; rfl)
      cases hnone.symm.trans h
    rw [(send_frame h).2 u hw hin, hwaits]
  | receiver j => rw [(receive_frame h).2.2.2.2 u (Or.inl hin), hwaits]

theorem Blocks.kept {a : Action V T} (h : Blocks handler owner s i t)
    (hcard : Fintype.card V = nodesCount + 1) (hinv : Inv owner s)
    (hstep : replyStep handler owner nodesCount s a = some s') :
    Blocks handler owner s' i t ∧ s'.sent = s.sent ∧ s'.returned = s.returned := by
  obtain ⟨hallowed, hstep⟩ := step_of_replyStep hstep
  have hreceiver : a ≠ .receiver i := by
    rintro rfl
    simp [allowed, h.handling, h.waits] at hallowed
  obtain ⟨hstalls, hsame⟩ := h.stalls.kept hcard hinv hreceiver hstep
  have hreceivers := receivers_of_step hreceiver h.stalls.outside hstep
  exact ⟨⟨by rw [hreceivers, h.handling], lockBus_kept h.holder h.waits hstep, hstalls.holder,
    hstalls.other, hstalls.unreleased⟩, hsame⟩

/-- Once a receive thread waits for the bus while another node's message is in front of the
barrier, no `send_msg` ever returns again and no message is ever put on the bus, in
whatever way the threads go on without a race. -/
theorem reply_blocks_forever (hcard : Fintype.card V = nodesCount + 1)
    (hreach : Reaches (replyStep handler owner nodesCount) (fun s a =>
      races owner s a = false) {} s)
    (hblocks : Blocks handler owner s i t)
    (hlater : Reaches (replyStep handler owner nodesCount) (fun s a =>
      races owner s a = false) s s') :
    Blocks handler owner s' i t ∧ s'.sent = s.sent ∧ s'.returned = s.returned ∧
      s'.returned < s'.sent.length := by
  have hstep : ∀ s a u, Inv owner s → races owner s a = false →
      replyStep handler owner nodesCount s a = some u → Inv owner u :=
    fun s a u hi hrace hu => inv_step hcard hi hrace (step_of_replyStep hu).2
  have hinv : Inv owner s := hreach.invariant (Inv owner) (inv_initial owner) hstep
  have hkept : Inv owner s' ∧ Blocks handler owner s' i t ∧ s'.sent = s.sent ∧
      s'.returned = s.returned := by
    refine hlater.invariant
      (fun u => Inv owner u ∧ Blocks handler owner u i t ∧ u.sent = s.sent ∧
        u.returned = s.returned)
      ⟨hinv, hblocks, rfl, rfl⟩ ?_
    rintro u a v ⟨hi, hb, hsent, hreturned⟩ hrace hv
    obtain ⟨hb', hsent', hreturned'⟩ := hb.kept hcard hi hv
    exact ⟨hstep u a v hi hrace hv, hb', hsent'.trans hsent, hreturned'.trans hreturned⟩
  obtain ⟨hi, hb, hsent, hreturned⟩ := hkept
  refine ⟨hb, hsent, hreturned, ?_⟩
  -- the holder's message is sent and has not returned
  obtain ⟨past, hbus⟩ := hi.bus
  rw [hbus.returned, hbus.sent, view_of_holds owner hi.owned ((hi.owned t).mpr hb.holder)]
  simp

/-! ## A gateway that relays twice, and a brake that answers -/

/-- The receive threads of the gateway, `false`, and the brake, `true`, and the thread on which
the gateway relays from the Ethernet. -/
abbrev CarThread := Bool ⊕ Unit

def threadNode : CarThread → Bool
  | .inl node => node
  | .inr () => false

/-- The gateway relays an alarm, the brake is about to acknowledge it, and the gateway relays
the next message. -/
def relayTwice : List (Action Bool CarThread) :=
  List.flatten [[.call (.inr ()) (oneByte 97)], List.replicate 10 (.sender (.inr ())),
    List.replicate 8 (.receiver true), List.replicate 5 (.sender (.inr ())),
    [.call (.inl true) (oneByte 98), .call (.inr ()) (oneByte 99), .sender (.inr ())]]

theorem acknowledgement_blocks_relay : ∃ s : State Bool CarThread,
    Blocks Sum.inl threadNode s true (.inr ()) ∧ s.sent.length = 2 ∧
    ∀ s', Reaches (replyStep Sum.inl threadNode 1) (fun s a => races threadNode s a = false) s s' →
      s'.returned < s'.sent.length := by
  have hrun : ((runIf (fun s a => !races threadNode s a) (replyStep Sum.inl threadNode 1) {}
      relayTwice).map fun s =>
        decide ((s.receivers true).pc = .handling ∧ (s.senders (.inl true)).pc = .lockBus ∧
          s.busMtx = some (.inr ()) ∧ (s.senders (.inr ())).pc = .setUsing ∧
          s.sent.length = 2)) = some true := by
    decide +kernel
  obtain ⟨s, hs, hout⟩ := exists_reaches_of_runIf (fun s a => races threadNode s a = false)
    _ (by simp) hrun
  obtain ⟨hhandling, hwaits, hholder, hpc, hsent⟩ := of_decide_eq_true hout
  have hblocks : Blocks Sum.inl threadNode s true (.inr ()) :=
    ⟨hhandling, hwaits, hholder, by decide, by rw [hpc]; rfl⟩
  exact ⟨s, hblocks, hsent, fun s' hlater => (reply_blocks_forever rfl hs hblocks hlater).2.2.2⟩

end CarNetwork.SharedBus
