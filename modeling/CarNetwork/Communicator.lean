import CarNetwork.Gateway
import CarNetwork.MonitorQueue

/-!
# The queue of a communicator

The receive threads of the two engines call `on_packet`, which parses the packet, puts the
message into the queue of the communicator and then passes a copy to the observers. Other
threads may take messages out with `receive` and `try_receive`. Any number of threads
are interleaved, operation by operation.
-/
namespace CarNetwork.Communicator

open CarNetwork.Protocol CarNetwork.Car CarNetwork.Runs

/-- The queue with its threads; for a thread inside `on_packet` the copy it still has to
pass on; and what the observers have been given, by which thread. -/
structure State (T : Type*) where
  queue : MonitorQueue.State T Rx := {}
  copy : T → Option Rx := fun _ => none
  observed : List (T × Rx) := []

inductive Action (T : Type*)
  | onPacket (t : T) (po : PortObserver) (c : AsyncCapsule)
  | receive (t : T)
  | tryReceive (t : T)
  /-- The operations of `enqueue`, `receive` and `try_receive`. -/
  | operation (a : MonitorQueue.Action T Rx)
  /-- The last statement of `on_packet`. -/
  | notify (t : T)

variable {T : Type*} [DecidableEq T] [Fintype T]

/-- A step of the queue by a thread that is not inside `on_packet`, or of one that is. -/
def State.onQueue (s : State T) (a : MonitorQueue.Action T Rx) : Option (State T) :=
  (MonitorQueue.step s.queue a).map fun queue => { s with queue }

/-- One step of a thread. A packet that cannot be parsed throws out of `on_packet`, which
ends the process. -/
def step (s : State T) : Action T → Option (State T)
  | .onPacket t po c =>
    if s.copy t ≠ none then none
    else match rxOfPacket po c with
      | .error _ => none
      | .ok none => some s
      | .ok (some rx) =>
        ({ s with copy := Function.update s.copy t (some rx) } : State T).onQueue (.put t rx)
  | .receive t => if s.copy t = none then s.onQueue (.take t) else none
  | .tryReceive t => if s.copy t = none then s.onQueue (.poll t) else none
  | .operation a =>
    match a with
    | .next _ | .notify _ _ | .wake _ => s.onQueue a
    | .put _ _ | .take _ | .poll _ => none
  | .notify t =>
    match s.copy t, s.queue.pc t with
    | some rx, .idle => some { s with
        copy := Function.update s.copy t none
        observed := s.observed ++ [(t, rx)] }
    | _, _ => none

/-- The steps of calls under way. -/
def Action.own : Action T → Bool
  | .operation a => a.own
  | .notify _ => true
  | _ => false

/-! ## Every message once, in order -/

/-- `queue.called` records the messages of the packets. -/
structure Inv (s : State T) : Prop where
  queue : MonitorQueue.Inv s.queue
  observed : ∀ t, s.queue.called.filter (·.1 = t) =
    s.observed.filter (·.1 = t) ++ (s.copy t).toList.map (t, ·)
  putting : ∀ t, s.copy t ≠ none → (s.queue.pc t).takes = false

variable {s s' : State T} {a : Action T}

theorem inv_initial : Inv ({} : State T) :=
  ⟨MonitorQueue.inv_initial, fun _ => rfl, fun _ h => absurd rfl h⟩

/-- A step of the queue that calls neither `put` nor, inside `on_packet`, `take`. -/
theorem Inv.onQueue {a : MonitorQueue.Action T Rx} (h : Inv s) (hstep : s.onQueue a = some s')
    (hput : ∀ t rx, a ≠ .put t rx) (htake : ∀ t, s.copy t ≠ none → a ≠ .take t) : Inv s' := by
  simp only [State.onQueue, Option.map_eq_some_iff] at hstep
  obtain ⟨q, hq, rfl⟩ := hstep
  refine ⟨h.queue.step hq, fun t => ?_, fun t ht => ?_⟩
  · rw [MonitorQueue.step_frame hq hput]
    exact h.observed t
  · by_contra htakes
    have := MonitorQueue.takes_of_step hq (htake t ht) (by simpa using htakes)
    simp [h.putting t ht] at this

/-- `on_packet` enters `enqueue`. -/
theorem Inv.put {t : T} {rx : Rx} (h : Inv s) (hcopy : s.copy t = none)
    (hstep : ({ s with copy := Function.update s.copy t (some rx) } : State T).onQueue
      (.put t rx) = some s') :
    Inv s' := by
  simp only [State.onQueue, Option.map_eq_some_iff] at hstep
  obtain ⟨q, hq, rfl⟩ := hstep
  have hinv := h.queue.step hq
  simp only [MonitorQueue.step, MonitorQueue.State.call, Option.map_eq_some_iff] at hq
  obtain ⟨v, hv, rfl⟩ := hq
  split at hv <;> cases hv
  refine ⟨hinv, fun u => ?_, fun u hu => ?_⟩
  · have := h.observed u
    by_cases hut : u = t
    · subst hut
      simpa [MonitorQueue.State.setPc, hcopy] using this
    · simpa [MonitorQueue.State.setPc, Function.update_of_ne hut, Ne.symm hut] using this
  · by_cases hut : u = t
    · subst hut
      simp [MonitorQueue.State.setPc, MonitorQueue.Pc.takes]
    · simpa [MonitorQueue.State.setPc, Function.update_of_ne hut] using
        h.putting u (by simpa [Function.update_of_ne hut] using hu)

theorem Inv.kept (h : Inv s) (hstep : step s a = some s') : Inv s' := by
  cases a with
  | onPacket t po c =>
    simp only [Communicator.step] at hstep
    split at hstep
    · cases hstep
    · rename_i hcopy
      split at hstep
      · cases hstep
      · exact Option.some.inj hstep ▸ h
      · exact h.put (not_not.mp hcopy) hstep
  | receive t =>
    simp only [Communicator.step, Option.ite_none_right_eq_some] at hstep
    obtain ⟨hcopy, hstep⟩ := hstep
    refine h.onQueue hstep (by simp) fun u hu heq => hu ?_
    obtain rfl : t = u := by simpa using heq
    exact hcopy
  | tryReceive t =>
    simp only [Communicator.step, Option.ite_none_right_eq_some] at hstep
    exact h.onQueue hstep.2 (by simp) (by simp)
  | operation a =>
    cases a with
    | next | notify | wake => exact h.onQueue hstep (by simp) (by simp)
    | put | take | poll => simp [Communicator.step] at hstep
  | notify t =>
    simp only [Communicator.step] at hstep
    split at hstep
    · rename_i rx hcopy hidle
      obtain rfl := Option.some.inj hstep
      refine ⟨h.queue, fun u => ?_, fun u hu => ?_⟩
      · have := h.observed u
        by_cases hut : u = t
        · subst hut
          simpa [hcopy] using this
        · simpa [Function.update_of_ne hut, Ne.symm hut] using this
      · by_cases hut : u = t
        · subst hut
          simp at hu
        · exact h.putting u (by simpa [Function.update_of_ne hut] using hu)
    · cases hstep

theorem inv_of_reachable (h : Reachable step ({} : State T) s) : Inv s :=
  h.invariant Inv inv_initial fun _ _ _ hI _ hu => hI.kept hu

/-- At every moment of every interleaving, what `receive` and `try_receive` have returned, the
message that a thread is about to return, and what is in the queue are together what was
put in, in that order; and the messages of one thread's packets have entered the queue,
and have been shown to the observers, once each and in the order of the packets, but for
the one that the thread is just working on. -/
theorem messages_once_in_order (hreach : Reachable step ({} : State T) s) :
    s.queue.returned.map Prod.snd ++ s.queue.inHand ++ s.queue.queue =
        s.queue.pushed.map Prod.snd ∧
    ∀ t, s.queue.called.filter (·.1 = t) =
        s.queue.pushed.filter (·.1 = t) ++ (s.queue.pc t).unqueued.map (t, ·) ∧
      s.queue.called.filter (·.1 = t) =
        s.observed.filter (·.1 = t) ++ (s.copy t).toList.map (t, ·) := by
  have h := inv_of_reachable hreach
  exact ⟨h.queue.fifo, fun t => ⟨h.queue.order t, h.observed t⟩⟩

/-- A packet on the Ethernet for port 1. -/
def aCapsule : AsyncCapsule :=
  ⟨⟨⟨#v[2, 0, 0, 0, 0, 1]⟩, 1⟩, ⟨⟨#v[2, 0, 0, 0, 0, 2]⟩, 1⟩, .ethernet, [104, 105]⟩

/-- Thread `false` sleeps in `receive`; thread `true` brings a packet and wakes it. -/
def wakeUp : List (Action Bool) :=
  [.receive false, .operation (.next false), .operation (.next false),
    .onPacket true ⟨.ethernet, 1⟩ aCapsule, .operation (.next true), .operation (.next true),
    .operation (.next true), .operation (.notify true false), .operation (.next true),
    .notify true]

/-- The woken thread looks at the message, removes it and returns it. -/
theorem returned_after_wakeUp : ∃ s : State Bool, s.observed.length = 1 ∧
    s.queue.returned.length = 1 ∧ s.queue.queue.length = 0 ∧
    s.queue.returned.map Prod.snd ++ s.queue.inHand ++ s.queue.queue =
      s.queue.pushed.map Prod.snd := by
  have hrun : (run step ({} : State Bool) (wakeUp ++
      List.replicate 5 (.operation (.next false)))).map
      (fun s => (s.observed.length, s.queue.returned.length, s.queue.queue.length)) =
        some (1, 1, 0) := by decide +kernel
  obtain ⟨s, hreach, hobs⟩ := exists_reachable_of_run _ hrun
  simp only [Prod.mk.injEq] at hobs
  exact ⟨s, hobs.1, hobs.2.1, hobs.2.2, (messages_once_in_order hreach).1⟩

/-! ## No call of `receive` sleeps over a message -/

open scoped BigOperators

def pendingCopy : Option Rx → ℕ
  | none => 0
  | some _ => 1

/-- What the calls under way have before them. -/
def State.work (s : State T) : ℕ := s.queue.work + ∑ t, pendingCopy (s.copy t)

theorem work_lt (hown : a.own = true) (hstep : step s a = some s') : s'.work < s.work := by
  cases a with
  | operation a =>
    have hq : s.onQueue a = some s' := by
      cases a with
      | next | notify | wake => exact hstep
      | put | take | poll => simp [Communicator.step] at hstep
    simp only [State.onQueue, Option.map_eq_some_iff] at hq
    obtain ⟨q, hq, rfl⟩ := hq
    have := MonitorQueue.work_lt hown hq
    simp only [State.work]
    omega
  | notify t =>
    simp only [Communicator.step] at hstep
    split at hstep
    · rename_i rx hcopy hidle
      obtain rfl := Option.some.inj hstep
      have := sum_update_add pendingCopy s.copy t none
      rw [hcopy] at this
      simp only [State.work, pendingCopy] at this ⊢
      omega
    · cases hstep
  | onPacket | receive | tryReceive => simp [Action.own] at hown

theorem settled_queue (hset : Settled Action.own step s) :
    Settled MonitorQueue.Action.own MonitorQueue.step s.queue := by
  intro a hown
  have := hset (.operation a) hown
  cases a with
  | next | notify => simpa [Communicator.step, State.onQueue] using this
  | put | take | poll | wake => simp [MonitorQueue.Action.own] at hown

/-- When nothing can go on, every packet's message is in the queue or has been taken, and
has been shown to the observers. -/
theorem Inv.of_settled (h : Inv s) (hset : Settled Action.own step s) (t : T) :
    s.copy t = none ∧ (s.queue.pc t).unqueued = [] := by
  have hpc := h.queue.idle_or_sleeps (settled_queue hset) t
  constructor
  · by_contra hcopy
    obtain ⟨rx, hrx⟩ := Option.ne_none_iff_exists'.mp hcopy
    have hidle : s.queue.pc t = .idle := by
      refine hpc.resolve_right fun hsleep => ?_
      simpa [hsleep, MonitorQueue.Pc.takes] using h.putting t hcopy
    have := hset (.notify t) rfl
    simp [Communicator.step, hrx, hidle] at this
  · rcases hpc with hpc | hpc <;> rw [hpc] <;> rfl

/-- No wake-up is lost, although `notify_one` wakes at most one thread: whatever calls are
under way, and however their operations are interleaved, they come to rest, and then no
`receive` sleeps while the queue holds a message, and the messages of all packets have
been queued and shown to the observers. -/
theorem no_receive_sleeps_over_message (hreach : Reachable step ({} : State T) s) :
    (∀ as t, run (only Action.own step) s as = some t → as.length ≤ s.work) ∧
    (∃ t, Reachable (only Action.own step) s t ∧ Settled Action.own step t) ∧
    ∀ t, Reachable (only Action.own step) s t → Settled Action.own step t →
      (t.queue.queue ≠ [] → ∀ u, t.queue.pc u = .idle) ∧
      ∀ u, t.queue.pushed.filter (·.1 = u) = t.queue.called.filter (·.1 = u) ∧
        t.observed.filter (·.1 = u) = t.queue.called.filter (·.1 = u) := by
  have hless : ∀ (t : State T) (a : Action T) (u : State T), Inv t → a.own = true →
      step t a = some u →
      Inv u ∧ u.work < t.work :=
    fun _ _ _ hI hown hu => ⟨hI.kept hu, work_lt hown hu⟩
  obtain ⟨hbound, hsettles⟩ := settles _ State.work hless (inv_of_reachable hreach)
  refine ⟨fun as t has => (hbound as t has).1, hsettles, fun t hr hset => ?_⟩
  have h : Inv t := hr.invariant Inv (inv_of_reachable hreach) fun t a u hI _ hu =>
    hI.kept (only_eq_some.mp hu).2
  refine ⟨fun hne u => h.queue.idle_of_settled (settled_queue hset) hne u, fun u => ?_⟩
  obtain ⟨hcopy, hunqueued⟩ := h.of_settled hset u
  have horder := h.queue.order u
  have hobserved := h.observed u
  rw [hunqueued, List.map_nil, List.append_nil] at horder
  rw [hcopy, Option.toList_none, List.map_nil, List.append_nil] at hobserved
  exact ⟨horder.symm, hobserved.symm⟩

theorem woken_receive_takes :
    ∃ s : State Bool, s.queue.queue.length = 1 ∧ (s.queue.pc false).takes = true ∧
    ∀ t, Reachable (only Action.own step) s t → Settled Action.own step t →
      (t.queue.queue ≠ [] → ∀ u, t.queue.pc u = .idle) := by
  have hrun : (run step ({} : State Bool) wakeUp).map
      (fun s => (s.queue.queue.length, (s.queue.pc false).takes)) = some (1, true) := by
        decide +kernel
  obtain ⟨s, hreach, hobs⟩ := exists_reachable_of_run wakeUp hrun
  simp only [Prod.mk.injEq] at hobs
  exact ⟨s, hobs.1, hobs.2,
    fun t hr hset => ((no_receive_sleeps_over_message hreach).2.2 t hr hset).1⟩

end CarNetwork.Communicator
