import CarNetwork.Mutex
import CarNetwork.Progress
import Mathlib.Data.Fintype.Card

/-!
# A queue guarded by a mutex and a condition variable

Any number of threads put items into a queue and take them out. Every method locks the
mutex first. `put` appends and wakes at most one sleeper, `take` sleeps on the condition
variable until the queue is not empty, and `poll` looks once. A step is one operation
of one thread; sleepers may also wake for no reason, and nothing is assumed about who
gets the mutex or which sleeper is woken.

The queue itself protects nothing: appending reads it and writes it back, and looking at
the front item and removing whatever is at the front are two operations. That no item is
lost, doubled or overtaken is due to the mutex.
-/
namespace CarNetwork.MonitorQueue

open CarNetwork.Mutex CarNetwork.Runs
open scoped BigOperators

/-- The next operation of a thread, or asleep on the condition variable. -/
inductive Pc (ι : Type*)
  | idle
  | putLock (item : ι)
  | putPush (item : ι)
  | putWrite (item : ι) (seen : List ι)
  | putNotify
  | putUnlock
  | takeLock
  | takeTest
  | takeSleep
  | takeRelock
  | takeFront
  | takePop (item : ι)
  | takeUnlock (item : ι)
  | pollLock
  | pollTest
  | pollFront
  | pollPop (item : ι)
  | pollUnlock (item : Option ι)

namespace Pc

variable {ι : Type*}

/-- The thread owns the mutex. -/
def holds : Pc ι → Bool
  | idle | putLock _ | takeLock | takeSleep | takeRelock | pollLock => false
  | _ => true

def sleeps : Pc ι → Bool
  | takeSleep => true
  | _ => false

/-- The thread is inside `take`. -/
def takes : Pc ι → Bool
  | takeLock | takeTest | takeSleep | takeRelock | takeFront | takePop _ | takeUnlock _ => true
  | _ => false

/-- The item of a call of `put` that has not reached the queue. -/
def unqueued : Pc ι → List ι
  | putLock item | putPush item | putWrite item _ => [item]
  | _ => []

/-- The item that the thread has removed from the queue and is about to return. -/
def inHand : Pc ι → List ι
  | takeUnlock item => [item]
  | pollUnlock item => item.toList
  | _ => []

/-- What the thread has seen of the queue is still true of it. -/
def Sees : Pc ι → List ι → Prop
  | putWrite _ seen, queue => seen = queue
  | takeFront, queue | pollFront, queue => queue ≠ []
  | takePop item, queue | pollPop item, queue => ∃ rest, queue = item :: rest
  | _, _ => True

/-- Threads that will see to an item of the queue: a `take` that is awake, and a `put`
that has still to wake somebody. -/
def credit : Pc ι → ℕ
  | putNotify | takeLock | takeTest | takeRelock | takeFront | takePop _ => 1
  | _ => 0

/-- How many operations a call has before it, counting those of the sleeper it wakes. -/
def work : Pc ι → ℕ
  | putLock _ => 10
  | putPush _ => 9
  | putWrite _ _ => 8
  | putNotify => 7
  | takeLock | takeRelock | pollLock => 5
  | takeTest | pollTest => 4
  | takeFront | pollFront => 3
  | takePop _ | pollPop _ => 2
  | putUnlock | takeUnlock _ | pollUnlock _ => 1
  | idle | takeSleep => 0

/-- Outside the critical sections nothing is known of the queue. -/
theorem sees_of_not_holds {pc : Pc ι} (h : pc.holds = false) (queue : List ι) : pc.Sees queue := by
  cases pc with
  | idle | putLock | takeLock | takeSleep | takeRelock | pollLock => trivial
  | _ => cases h

end Pc

/-- The queue and its threads. `called` and `pushed` record the calls of `put` and the order
in which their items reached the queue, `returned` the items that calls have returned and
to whom. -/
structure State (T ι : Type*) where
  mtx : Option T := none
  queue : List ι := []
  pc : T → Pc ι := fun _ => .idle
  called : List (T × ι) := []
  pushed : List (T × ι) := []
  returned : List (T × ι) := []

inductive Action (T ι : Type*)
  | put (t : T) (item : ι)
  | take (t : T)
  | poll (t : T)
  /-- The thread executes its next operation. -/
  | next (t : T)
  /-- The first thread's `notify_one` wakes the second. -/
  | notify (t sleeper : T)
  /-- A sleeper wakes by itself. -/
  | wake (sleeper : T)

namespace State

variable {T ι : Type*} [DecidableEq T]

def setPc (s : State T ι) (t : T) (pc : Pc ι) : State T ι :=
  { s with pc := Function.update s.pc t pc }

/-- A call begins; a thread has one call at a time. -/
def call (s : State T ι) (t : T) (pc : Pc ι) : Option (State T ι) :=
  match s.pc t with
  | .idle => some (s.setPc t pc)
  | _ => none

/-- Lock the mutex and go on at `pc`. -/
def lock (s : State T ι) (t : T) (pc : Pc ι) : Option (State T ι) :=
  if s.mtx = none then some { s.setPc t pc with mtx := some t } else none

/-- Unlock it and return, with an item or without one. -/
def leave (s : State T ι) (t : T) (items : List ι) : State T ι :=
  { s.setPc t .idle with mtx := none, returned := s.returned ++ items.map (t, ·) }

/-- Unlock it and sleep, in one operation. -/
def sleep (s : State T ι) (t : T) : State T ι :=
  { s.setPc t .takeSleep with mtx := none }

/-- The new contents are written to the queue. -/
def store (s : State T ι) (t : T) (queue : List ι) (pc : Pc ι) : State T ι :=
  { s.setPc t pc with queue }

/-- The item that has left the queue and has not been returned: only a thread in its critical
section can have it. -/
def inHand (s : State T ι) : List ι := s.mtx.elim [] fun t => (s.pc t).inHand

end State

section Steps

variable {T ι : Type*} [DecidableEq T] [Fintype T]

/-- One operation of a thread. A `notify_one` without sleepers does nothing; the front of an
empty queue may not be looked at or removed. -/
def next (s : State T ι) (t : T) : Option (State T ι) :=
  match s.pc t with
  | .idle => none
  | .putLock item => s.lock t (.putPush item)
  | .putPush item => some (s.setPc t (.putWrite item s.queue))
  | .putWrite item seen =>
    some { s.store t (seen ++ [item]) .putNotify with pushed := s.pushed ++ [(t, item)] }
  | .putNotify => if ∀ u, (s.pc u).sleeps = false then some (s.setPc t .putUnlock) else none
  | .putUnlock => some (s.leave t [])
  | .takeLock | .takeRelock => s.lock t .takeTest
  | .takeTest =>
    match s.queue with
    | [] => some (s.sleep t)
    | _ :: _ => some (s.setPc t .takeFront)
  | .takeSleep => none
  | .takeFront =>
    match s.queue with
    | [] => none
    | item :: _ => some (s.setPc t (.takePop item))
  | .takePop item =>
    match s.queue with
    | [] => none
    | _ :: rest => some (s.store t rest (.takeUnlock item))
  | .takeUnlock item => some (s.leave t [item])
  | .pollLock => s.lock t .pollTest
  | .pollTest =>
    match s.queue with
    | [] => some (s.setPc t (.pollUnlock none))
    | _ :: _ => some (s.setPc t .pollFront)
  | .pollFront =>
    match s.queue with
    | [] => none
    | item :: _ => some (s.setPc t (.pollPop item))
  | .pollPop item =>
    match s.queue with
    | [] => none
    | _ :: rest => some (s.store t rest (.pollUnlock (some item)))
  | .pollUnlock item => some (s.leave t item.toList)

def step (s : State T ι) : Action T ι → Option (State T ι)
  | .put t item =>
    (s.call t (.putLock item)).map fun s => { s with called := s.called ++ [(t, item)] }
  | .take t => s.call t .takeLock
  | .poll t => s.call t .pollLock
  | .next t => next s t
  | .notify t sleeper =>
    match s.pc t, s.pc sleeper with
    | .putNotify, .takeSleep => some ((s.setPc t .putUnlock).setPc sleeper .takeRelock)
    | _, _ => none
  | .wake sleeper =>
    match s.pc sleeper with
    | .takeSleep => some (s.setPc sleeper .takeRelock)
    | _ => none

/-- The steps of calls that are under way; no call begins and nobody wakes by itself. -/
def Action.own : Action T ι → Bool
  | .next _ | .notify _ _ => true
  | _ => false

end Steps

/-! ## What a step leaves alone -/

section Frame

variable {T ι : Type*} [DecidableEq T] [Fintype T] {s s' : State T ι} {a : Action T ι}

omit [Fintype T] in
theorem takes_of_update {pc : T → Pc ι} {t u : T} {x : Pc ι}
    (hx : u = t → x.takes = true → (pc u).takes = true)
    (hu : (Function.update pc t x u).takes = true) :
    (pc u).takes = true := by
  by_cases hut : u = t
  · subst hut
    exact hx rfl (by simpa using hu)
  · simpa [Function.update_of_ne hut] using hu

/-- An operation changes no record of the calls, and no thread enters `take` by it. -/
theorem next_frame {t : T} (h : next s t = some s') :
    s'.called = s.called ∧ ∀ u, (s'.pc u).takes = true → (s.pc u).takes = true := by
  cases ht : s.pc t with
  | idle | takeSleep => simp [MonitorQueue.next, ht] at h
  | putLock | takeLock | takeRelock | pollLock =>
    simp only [MonitorQueue.next, ht, State.lock, Option.ite_none_right_eq_some,
      Option.some.injEq] at h
    obtain ⟨-, rfl⟩ := h
    exact ⟨rfl, fun u => takes_of_update fun hut => by simp [hut, ht, Pc.takes]⟩
  | putPush | putWrite | putUnlock | takeUnlock | pollUnlock =>
    simp only [MonitorQueue.next, ht, Option.some.injEq] at h
    subst h
    exact ⟨rfl, fun u => takes_of_update (by simp [Pc.takes])⟩
  | putNotify =>
    simp only [MonitorQueue.next, ht, Option.ite_none_right_eq_some, Option.some.injEq] at h
    obtain ⟨-, rfl⟩ := h
    exact ⟨rfl, fun u => takes_of_update (by simp [Pc.takes])⟩
  | takeTest | takeFront | takePop | pollTest | pollFront | pollPop =>
    simp only [MonitorQueue.next, ht] at h
    split at h <;> cases h <;>
      exact ⟨rfl, fun u => takes_of_update fun hut => by simp [hut, ht, Pc.takes]⟩

theorem step_frame (h : step s a = some s') (hput : ∀ t item, a ≠ .put t item) :
    s'.called = s.called := by
  cases a with
  | put t item => exact absurd rfl (hput t item)
  | take t | poll t =>
    simp only [step, State.call] at h
    split at h <;> cases h
    rfl
  | next t => exact (next_frame h).1
  | notify t sleeper | wake sleeper =>
    simp only [step] at h
    split at h <;> cases h
    rfl

/-- A thread that is inside `take` after a step was inside before, or has just called it. -/
theorem takes_of_step {u : T} (h : step s a = some s') (htake : a ≠ .take u)
    (hu : (s'.pc u).takes = true) : (s.pc u).takes = true := by
  cases a with
  | put t item =>
    simp only [step, State.call, Option.map_eq_some_iff] at h
    obtain ⟨v, hv, rfl⟩ := h
    split at hv <;> cases hv
    exact takes_of_update (by simp [Pc.takes]) hu
  | take t =>
    simp only [step, State.call] at h
    split at h <;> cases h
    exact takes_of_update (fun hut => absurd (congrArg Action.take hut.symm) htake) hu
  | poll t =>
    simp only [step, State.call] at h
    split at h <;> cases h
    exact takes_of_update (by simp [Pc.takes]) hu
  | next t => exact (next_frame h).2 u hu
  | notify t sleeper =>
    simp only [step] at h
    split at h <;> cases h
    rename_i ht hsleeper
    have hne : sleeper ≠ t := by
      rintro rfl
      rw [ht] at hsleeper
      cases hsleeper
    refine takes_of_update (by simp [Pc.takes]) (takes_of_update (fun hus _ => ?_) hu)
    simp [hus, Function.update_of_ne hne, hsleeper, Pc.takes]
  | wake sleeper =>
    simp only [step] at h
    split at h <;> cases h
    rename_i hsleeper
    exact takes_of_update (fun hus _ => by rw [hus, hsleeper]; rfl) hu

end Frame

/-! ## The invariant -/

section Invariant

variable {T ι : Type*} [DecidableEq T]

variable {pc : T → Pc ι} {mtx : Option T} {t : T} {x : Pc ι}

/-- Only the thread that moves enters or leaves. -/
theorem holds_update_of_ne {u : T} (hu : u ≠ t) :
    (Function.update pc t x u).holds = true ↔ (pc u).holds = true := by
  rw [Function.update_of_ne hu]

theorem holds_update (hx : x.holds = (pc t).holds) (u : T) :
    (Function.update pc t x u).holds = true ↔ (pc u).holds = true := by
  by_cases hu : u = t
  · subst hu
    rw [Function.update_self, hx]
  · exact holds_update_of_ne hu

variable [Fintype T]

/-- As long as anybody sleeps, every item of the queue has a thread that will see to it. -/
def Woken (queue : List ι) (pc : T → Pc ι) : Prop :=
  queue.length ≤ ∑ t, (pc t).credit ∨ ∀ t, (pc t).sleeps = false

theorem Woken.update {queue queue' : List ι} (h : Woken queue pc) (hx : x.sleeps = false)
    (hlen : queue'.length + (pc t).credit ≤ queue.length + x.credit) :
    Woken queue' (Function.update pc t x) := by
  rcases h with h | h
  · have := sum_update_add Pc.credit pc t x
    exact .inl (by omega)
  · right
    intro u
    by_cases hu : u = t
    · subst hu
      simpa using hx
    · simpa [Function.update_of_ne hu] using h u

/-- What holds between any two operations. -/
structure Inv (s : State T ι) : Prop where
  mutex : Exclusive (fun t => (s.pc t).holds = true) s.mtx
  sees : ∀ t, (s.pc t).Sees s.queue
  fifo : s.returned.map Prod.snd ++ s.inHand ++ s.queue = s.pushed.map Prod.snd
  order : ∀ t, s.called.filter (·.1 = t) =
    s.pushed.filter (·.1 = t) ++ (s.pc t).unqueued.map (t, ·)
  woken : Woken s.queue s.pc

variable {s s' : State T ι}

theorem inv_initial : Inv ({} : State T ι) where
  mutex := by simp [Exclusive, Pc.holds]
  sees _ := trivial
  fifo := rfl
  order _ := rfl
  woken := .inl (Nat.zero_le _)

/-- The order of the calls is not affected by a step that queues nothing. -/
theorem Inv.order_update (h : Inv s) (hx : x.unqueued = (s.pc t).unqueued) (u : T) :
    s.called.filter (·.1 = u) =
      s.pushed.filter (·.1 = u) ++ (Function.update s.pc t x u).unqueued.map (u, ·) := by
  by_cases hu : u = t
  · subst hu
    rw [Function.update_self, hx]
    exact h.order u
  · rw [Function.update_of_ne hu]
    exact h.order u

/-- What the others have seen is still true when the queue has not changed. -/
theorem Inv.sees_update (h : Inv s) (hx : x.Sees s.queue) (u : T) :
    (Function.update s.pc t x u).Sees s.queue := by
  by_cases hut : u = t
  · subst hut
    rwa [Function.update_self]
  · rw [Function.update_of_ne hut]
    exact h.sees u

/-- When a thread inside its critical section changes the queue, nobody else has seen
anything of it. -/
theorem Inv.sees_store (h : Inv s) (ht : (s.pc t).holds = true) {queue : List ι}
    (hx : x.Sees queue) (u : T) : (Function.update s.pc t x u).Sees queue := by
  by_cases hut : u = t
  · subst hut
    rwa [Function.update_self]
  · rw [Function.update_of_ne hut]
    refine Pc.sees_of_not_holds (Bool.eq_false_iff.mpr fun hu => hut ?_) queue
    exact h.mutex.eq hu ht

omit [Fintype T] in
/-- A step by which no item comes into a thread's hand or leaves it. -/
theorem inHand_update (hx : x.inHand = (s.pc t).inHand) :
    (s.setPc t x).inHand = s.inHand := by
  cases hm : s.mtx with
  | none => simp [State.inHand, State.setPc, hm]
  | some u =>
    simp only [State.inHand, State.setPc, hm, Option.elim_some, Function.update_apply]
    split
    · rename_i hut
      rw [hx, hut]
    · rfl

/-- What the owner of the mutex has in hand. -/
theorem Inv.inHand_eq (h : Inv s) (ht : (s.pc t).holds = true) : s.inHand = (s.pc t).inHand := by
  rw [State.inHand, (h.mutex t).mp ht]
  rfl

theorem Inv.setPc (h : Inv s) (hholds : x.holds = (s.pc t).holds) (hx : x.sleeps = false)
    (hunqueued : x.unqueued = (s.pc t).unqueued) (hhand : x.inHand = (s.pc t).inHand)
    (hcredit : (s.pc t).credit ≤ x.credit) (hsees : x.Sees s.queue) : Inv (s.setPc t x) where
  mutex := h.mutex.congr (holds_update hholds)
  sees := h.sees_update hsees
  fifo := by
    rw [inHand_update hhand]
    exact h.fifo
  order := h.order_update hunqueued
  woken := h.woken.update hx (Nat.add_le_add_left hcredit _)

theorem Inv.lock (h : Inv s) (hlock : s.lock t x = some s') (hholds : x.holds = true)
    (hx : x.sleeps = false) (hunqueued : x.unqueued = (s.pc t).unqueued) (hhand : x.inHand = [])
    (hcredit : (s.pc t).credit ≤ x.credit) (hsees : x.Sees s.queue) : Inv s' := by
  simp only [State.lock, Option.ite_none_right_eq_some, Option.some.injEq] at hlock
  obtain ⟨hnone, rfl⟩ := hlock
  exact {
    mutex := Exclusive.lock (hnone ▸ h.mutex) (fun _ => holds_update_of_ne)
      (by simpa [State.setPc] using hholds)
    sees := h.sees_update hsees
    fifo := by simpa [State.inHand, State.setPc, hhand, hnone] using h.fifo
    order := h.order_update hunqueued
    woken := h.woken.update hx (Nat.add_le_add_left hcredit _) }

/-- The end of a call: what the thread has in hand is returned. -/
theorem Inv.leave (h : Inv s) (ht : (s.pc t).holds = true) (hunqueued : (s.pc t).unqueued = [])
    (hcredit : (s.pc t).credit = 0) : Inv (s.leave t (s.pc t).inHand) where
  mutex := h.mutex.unlock ht (fun _ => holds_update_of_ne)
    (by simp [State.leave, State.setPc, Pc.holds])
  sees := h.sees_update trivial
  fifo := by
    have hfifo := h.fifo
    rw [h.inHand_eq ht] at hfifo
    have hmap : (s.pc t).inHand.map (Prod.snd ∘ (t, ·)) = (s.pc t).inHand := List.map_id' _
    simpa [State.leave, State.setPc, State.inHand, hmap] using hfifo
  order := h.order_update (by rw [hunqueued]; rfl)
  woken := h.woken.update rfl (by simp only [hcredit]; exact Nat.le_add_right _ _)

/-- A thread that finds nothing goes to sleep and gives the mutex away in one operation. -/
theorem Inv.sleep (h : Inv s) (ht : s.pc t = .takeTest) (hempty : s.queue = []) :
    Inv (s.sleep t) where
  mutex := by
    refine h.mutex.unlock (t := t) (by simp [ht, Pc.holds]) (fun _ => holds_update_of_ne) ?_
    simp [State.sleep, State.setPc, Pc.holds]
  sees := h.sees_update trivial
  fifo := by
    have hfifo := h.fifo
    rw [h.inHand_eq (by rw [ht]; rfl), ht] at hfifo
    exact hfifo
  order := h.order_update (by rw [ht]; rfl)
  woken := .inl (by simp [State.sleep, State.setPc, hempty])

/-- The item that the thread has looked at is the one it removes. -/
theorem Inv.pop {item : ι} {rest : List ι} (h : Inv s) (ht : (s.pc t).holds = true)
    (hqueue : s.queue = item :: rest) (hhand : (s.pc t).inHand = []) (hxhand : x.inHand = [item])
    (hholds : x.holds = true) (hx : x.sleeps = false)
    (hunqueued : x.unqueued = (s.pc t).unqueued) (hsees : x.Sees rest) :
    Inv (s.store t rest x) where
  mutex := h.mutex.congr (holds_update (hholds.trans ht.symm))
  sees := h.sees_store ht hsees
  fifo := by
    have hfifo := h.fifo
    rw [h.inHand_eq ht, hhand, hqueue] at hfifo
    simpa [State.store, State.setPc, State.inHand, (h.mutex t).mp ht, hxhand] using hfifo
  order := h.order_update hunqueued
  woken := by
    have hc : (s.pc t).credit ≤ 1 := by cases s.pc t <;> simp [Pc.credit]
    refine h.woken.update hx ?_
    simp only [State.store, hqueue, List.length_cons]
    omega

/-- What the thread writes back is what is in the queue, and the item behind it. -/
theorem Inv.push {item : ι} {seen : List ι} (h : Inv s) (ht : s.pc t = .putWrite item seen) :
    Inv { s.store t (seen ++ [item]) .putNotify with pushed := s.pushed ++ [(t, item)] } := by
  have hholds : (s.pc t).holds = true := by rw [ht]; rfl
  have hseen : seen = s.queue := by
    have hsees := h.sees t
    rwa [ht] at hsees
  subst hseen
  refine {
    mutex := h.mutex.congr (holds_update (by rw [ht]; rfl))
    sees := h.sees_store hholds trivial
    fifo := ?_
    order := fun u => ?_
    woken := h.woken.update rfl (by simp [State.store, ht, Pc.credit]) }
  · have hfifo := h.fifo
    rw [h.inHand_eq hholds, ht] at hfifo
    simp [State.store, State.setPc, State.inHand, (h.mutex t).mp hholds, Pc.inHand, ← hfifo]
  · have horder := h.order u
    by_cases hu : u = t
    · subst hu
      simpa [State.store, State.setPc, ht, Pc.unqueued] using horder
    · simpa [State.store, State.setPc, Function.update_of_ne hu, Ne.symm hu] using horder

/-- Nobody sleeps, so nobody misses the notification. -/
theorem Inv.notifyNobody (h : Inv s) (ht : s.pc t = .putNotify)
    (hnone : ∀ u, (s.pc u).sleeps = false) : Inv (s.setPc t .putUnlock) where
  mutex := h.mutex.congr (holds_update (by rw [ht]; rfl))
  sees := h.sees_update trivial
  fifo := by
    rw [inHand_update (by rw [ht]; rfl)]
    exact h.fifo
  order := h.order_update (by rw [ht]; rfl)
  woken := by
    right
    intro u
    by_cases hu : u = t
    · subst hu
      simp [State.setPc, Pc.sleeps]
    · simpa [State.setPc, Function.update_of_ne hu] using hnone u

/-- The credit of the notifying thread goes to the one it wakes. -/
theorem Inv.notify {u : T} (h : Inv s) (ht : s.pc t = .putNotify) (hu : s.pc u = .takeSleep) :
    Inv ((s.setPc t .putUnlock).setPc u .takeRelock) := by
  have hne : u ≠ t := by
    rintro rfl
    rw [ht] at hu
    cases hu
  have hu' : Function.update s.pc t .putUnlock u = .takeSleep := by
    rw [Function.update_of_ne hne, hu]
  refine {
    mutex := (h.mutex.congr (holds_update (by rw [ht]; rfl))).congr
      (holds_update (by simp only [State.setPc, hu']; rfl))
    sees := ?_
    fifo := ?_
    order := ?_
    woken := ?_ }
  · intro v
    simp only [State.setPc, Function.update_apply]
    split_ifs
    · trivial
    · trivial
    · exact h.sees v
  · rw [inHand_update (by simp only [State.setPc, hu']; rfl), inHand_update (by rw [ht]; rfl)]
    exact h.fifo
  · intro v
    have horder := h.order v
    simp only [State.setPc, Function.update_apply]
    split_ifs with h1 h2
    · simpa [h1, hu, Pc.unqueued] using horder
    · simpa [h2, ht, Pc.unqueued] using horder
    · exact horder
  · have hsum : ∑ v, (((s.setPc t .putUnlock).setPc u .takeRelock).pc v).credit =
        ∑ v, (s.pc v).credit := by
      have h1 := sum_update_add Pc.credit s.pc t .putUnlock
      have h2 := sum_update_add Pc.credit (Function.update s.pc t .putUnlock) u .takeRelock
      rw [ht] at h1
      rw [hu'] at h2
      have hnotify : (Pc.putNotify : Pc ι).credit = 1 := rfl
      have hunlock : (Pc.putUnlock : Pc ι).credit = 0 := rfl
      have hsleep : (Pc.takeSleep : Pc ι).credit = 0 := rfl
      have hrelock : (Pc.takeRelock : Pc ι).credit = 1 := rfl
      simp only [State.setPc]
      omega
    rcases h.woken with hw | hw
    · exact .inl (hsum ▸ hw)
    · simpa [hu, Pc.sleeps] using hw u

theorem Inv.put {item : ι} (h : Inv s) (ht : s.pc t = .idle) :
    Inv { s.setPc t (.putLock item) with called := s.called ++ [(t, item)] } where
  mutex := h.mutex.congr (holds_update (by rw [ht]; rfl))
  sees := h.sees_update trivial
  fifo := by
    have hhand : (s.setPc t (.putLock item)).inHand = s.inHand := inHand_update (by rw [ht]; rfl)
    exact (congrArg (s.returned.map Prod.snd ++ · ++ s.queue) hhand).trans h.fifo
  order u := by
    have horder := h.order u
    by_cases hu : u = t
    · subst hu
      simpa [State.setPc, ht, Pc.unqueued] using horder
    · simpa [State.setPc, Function.update_of_ne hu, Ne.symm hu] using horder
  woken := h.woken.update rfl (by simp [State.setPc, ht, Pc.credit])

theorem Inv.call (h : Inv s) (hcall : s.call t x = some s') (hholds : x.holds = false)
    (hx : x.sleeps = false) (hunqueued : x.unqueued = []) (hhand : x.inHand = []) : Inv s' := by
  unfold State.call at hcall
  split at hcall
  · rename_i ht
    obtain rfl := Option.some.inj hcall
    exact h.setPc (by rw [ht, hholds]; rfl) hx (by rw [ht, hunqueued]; rfl)
      (by rw [ht, hhand]; rfl) (by rw [ht]; exact Nat.zero_le _) (Pc.sees_of_not_holds hholds _)
  · cases hcall

/-- A thread about to remove the front item finds the one it has looked at. -/
theorem Inv.queue_of_pop (h : Inv s) {item : ι}
    (ht : s.pc t = .takePop item ∨ s.pc t = .pollPop item) : ∃ rest, s.queue = item :: rest := by
  have hsees := h.sees t
  rcases ht with ht | ht
  · rwa [ht] at hsees
  · rwa [ht] at hsees

theorem Inv.next (h : Inv s) (hstep : next s t = some s') : Inv s' := by
  cases ht : s.pc t with
  | idle | takeSleep => simp [MonitorQueue.next, ht] at hstep
  | putLock | takeLock | takeRelock | pollLock =>
    simp only [MonitorQueue.next, ht] at hstep
    exact h.lock hstep rfl rfl (by rw [ht]; rfl) rfl (by rw [ht]; rfl) trivial
  | putPush item =>
    simp only [MonitorQueue.next, ht, Option.some.injEq] at hstep
    exact hstep ▸ h.setPc (by rw [ht]; rfl) rfl (by rw [ht]; rfl) (by rw [ht]; rfl)
      (by rw [ht]; rfl) rfl
  | putWrite item seen =>
    simp only [MonitorQueue.next, ht, Option.some.injEq] at hstep
    exact hstep ▸ h.push ht
  | putNotify =>
    simp only [MonitorQueue.next, ht, Option.ite_none_right_eq_some, Option.some.injEq] at hstep
    exact hstep.2 ▸ h.notifyNobody ht hstep.1
  | putUnlock | takeUnlock | pollUnlock =>
    simp only [MonitorQueue.next, ht, Option.some.injEq] at hstep
    have hleave := h.leave (t := t) (by rw [ht]; rfl) (by rw [ht]; rfl) (by rw [ht]; rfl)
    rw [ht] at hleave
    exact hstep ▸ hleave
  | takeTest =>
    simp only [MonitorQueue.next, ht] at hstep
    split at hstep
    · rename_i hempty
      exact Option.some.inj hstep ▸ h.sleep ht hempty
    · rename_i item rest hqueue
      exact Option.some.inj hstep ▸ h.setPc (by rw [ht]; rfl) rfl (by rw [ht]; rfl)
        (by rw [ht]; rfl) (by rw [ht]; rfl) (by simp [Pc.Sees, hqueue])
  | pollTest =>
    simp only [MonitorQueue.next, ht] at hstep
    split at hstep
    · exact Option.some.inj hstep ▸ h.setPc (by rw [ht]; rfl) rfl (by rw [ht]; rfl)
        (by rw [ht]; rfl) (by rw [ht]; rfl) trivial
    · rename_i item rest hqueue
      exact Option.some.inj hstep ▸ h.setPc (by rw [ht]; rfl) rfl (by rw [ht]; rfl)
        (by rw [ht]; rfl) (by rw [ht]; rfl) (by simp [Pc.Sees, hqueue])
  | takeFront | pollFront =>
    simp only [MonitorQueue.next, ht] at hstep
    split at hstep
    · cases hstep
    · rename_i item rest hqueue
      exact Option.some.inj hstep ▸ h.setPc (by rw [ht]; rfl) rfl (by rw [ht]; rfl)
        (by rw [ht]; rfl) (by rw [ht]; rfl) ⟨rest, hqueue⟩
  | takePop item =>
    obtain ⟨rest, hqueue⟩ := h.queue_of_pop (Or.inl ht)
    simp only [MonitorQueue.next, ht, hqueue, Option.some.injEq] at hstep
    exact hstep ▸ h.pop (by rw [ht]; rfl) hqueue (by rw [ht]; rfl) rfl rfl rfl (by rw [ht]; rfl)
      trivial
  | pollPop item =>
    obtain ⟨rest, hqueue⟩ := h.queue_of_pop (Or.inr ht)
    simp only [MonitorQueue.next, ht, hqueue, Option.some.injEq] at hstep
    exact hstep ▸ h.pop (by rw [ht]; rfl) hqueue (by rw [ht]; rfl) rfl rfl rfl (by rw [ht]; rfl)
      trivial

theorem Inv.step {a : Action T ι} (h : Inv s) (hstep : step s a = some s') : Inv s' := by
  cases a with
  | put t item =>
    simp only [MonitorQueue.step, State.call, Option.map_eq_some_iff] at hstep
    obtain ⟨u, hu, rfl⟩ := hstep
    split at hu
    · rename_i ht
      exact Option.some.inj hu ▸ h.put ht
    · cases hu
  | take t => exact h.call hstep rfl rfl rfl rfl
  | poll t => exact h.call hstep rfl rfl rfl rfl
  | next t => exact h.next hstep
  | notify t sleeper =>
    simp only [MonitorQueue.step] at hstep
    split at hstep
    · rename_i ht hu
      exact Option.some.inj hstep ▸ h.notify ht hu
    · cases hstep
  | wake sleeper =>
    simp only [MonitorQueue.step] at hstep
    split at hstep
    · rename_i hu
      exact Option.some.inj hstep ▸ h.setPc (by rw [hu]; rfl) rfl (by rw [hu]; rfl)
        (by rw [hu]; rfl) (by rw [hu]; exact Nat.zero_le _) trivial
    · cases hstep

/-! ## Calls under way come to an end -/

/-- The operations that the calls under way have before them. -/
def State.work (s : State T ι) : ℕ := ∑ t, (s.pc t).work

theorem work_lt_of_update (hpc : s'.pc = Function.update s.pc t x) (hx : x.work < (s.pc t).work) :
    s'.work < s.work := by
  have := sum_update_add Pc.work s.pc t x
  simp only [State.work, hpc]
  omega

theorem work_lt_of_lock (hlock : s.lock t x = some s') (hx : x.work < (s.pc t).work) :
    s'.work < s.work := by
  simp only [State.lock, Option.ite_none_right_eq_some, Option.some.injEq] at hlock
  obtain ⟨-, rfl⟩ := hlock
  exact work_lt_of_update rfl hx

theorem work_lt_of_next (hstep : next s t = some s') : s'.work < s.work := by
  cases ht : s.pc t with
  | idle | takeSleep => simp [MonitorQueue.next, ht] at hstep
  | putLock | takeLock | takeRelock | pollLock =>
    simp only [MonitorQueue.next, ht] at hstep
    exact work_lt_of_lock hstep (by simp [ht, Pc.work])
  | putPush | putWrite | putUnlock | takeUnlock | pollUnlock =>
    simp only [MonitorQueue.next, ht, Option.some.injEq] at hstep
    exact hstep ▸ work_lt_of_update rfl (by simp [ht, Pc.work])
  | putNotify =>
    simp only [MonitorQueue.next, ht, Option.ite_none_right_eq_some, Option.some.injEq] at hstep
    exact hstep.2 ▸ work_lt_of_update rfl (by simp [ht, Pc.work])
  | takeTest | pollTest =>
    simp only [MonitorQueue.next, ht] at hstep
    split at hstep <;>
      exact Option.some.inj hstep ▸ work_lt_of_update rfl (by simp [ht, Pc.work])
  | takeFront | takePop | pollFront | pollPop =>
    simp only [MonitorQueue.next, ht] at hstep
    split at hstep
    · cases hstep
    · exact Option.some.inj hstep ▸ work_lt_of_update rfl (by simp [ht, Pc.work])

theorem work_lt {a : Action T ι} (hown : a.own = true) (hstep : step s a = some s') :
    s'.work < s.work := by
  cases a with
  | next t => exact work_lt_of_next hstep
  | notify t sleeper =>
    simp only [MonitorQueue.step] at hstep
    split at hstep
    · rename_i ht hu
      obtain rfl := Option.some.inj hstep
      have hne : sleeper ≠ t := by
        rintro rfl
        rw [ht] at hu
        cases hu
      have h1 := sum_update_add Pc.work s.pc t .putUnlock
      have h2 := sum_update_add Pc.work (Function.update s.pc t .putUnlock) sleeper .takeRelock
      rw [ht] at h1
      rw [Function.update_of_ne hne, hu] at h2
      -- seven operations before the notification, one and the sleeper's five after it
      have hnotify : (Pc.putNotify : Pc ι).work = 7 := rfl
      have hunlock : (Pc.putUnlock : Pc ι).work = 1 := rfl
      have hsleep : (Pc.takeSleep : Pc ι).work = 0 := rfl
      have hrelock : (Pc.takeRelock : Pc ι).work = 5 := rfl
      simp only [State.work, State.setPc]
      omega
    · cases hstep
  | put | take | poll | wake => simp [Action.own] at hown

/-- A thread inside a critical section can always go on. -/
theorem Inv.exists_step_of_holds (h : Inv s) (ht : (s.pc t).holds = true) :
    ∃ a : Action T ι, a.own = true ∧ MonitorQueue.step s a ≠ none := by
  cases hpc : s.pc t with
  | idle | putLock | takeLock | takeSleep | takeRelock | pollLock => simp [hpc, Pc.holds] at ht
  | putNotify =>
    by_cases hnone : ∀ u, (s.pc u).sleeps = false
    · exact ⟨.next t, rfl, by simp [MonitorQueue.step, MonitorQueue.next, hpc, hnone]⟩
    · simp only [not_forall, Bool.not_eq_false] at hnone
      obtain ⟨u, hu⟩ := hnone
      have hsleep : s.pc u = .takeSleep := by
        cases hpu : s.pc u <;> simp [hpu, Pc.sleeps] at hu
        rfl
      exact ⟨.notify t u, rfl, by simp [MonitorQueue.step, hpc, hsleep]⟩
  | takeFront | pollFront =>
    have hne : s.queue ≠ [] := by
      have hsees := h.sees t
      rwa [hpc] at hsees
    obtain ⟨item, rest, hqueue⟩ := List.exists_cons_of_ne_nil hne
    exact ⟨.next t, rfl, by simp [MonitorQueue.step, MonitorQueue.next, hpc, hqueue]⟩
  | takePop item =>
    obtain ⟨rest, hqueue⟩ := h.queue_of_pop (Or.inl hpc)
    exact ⟨.next t, rfl, by simp [MonitorQueue.step, MonitorQueue.next, hpc, hqueue]⟩
  | pollPop item =>
    obtain ⟨rest, hqueue⟩ := h.queue_of_pop (Or.inr hpc)
    exact ⟨.next t, rfl, by simp [MonitorQueue.step, MonitorQueue.next, hpc, hqueue]⟩
  | putPush | putWrite | putUnlock | takeUnlock | pollUnlock =>
    exact ⟨.next t, rfl, by simp [MonitorQueue.step, MonitorQueue.next, hpc]⟩
  | takeTest | pollTest =>
    refine ⟨.next t, rfl, ?_⟩
    simp only [MonitorQueue.step, MonitorQueue.next, hpc]
    split <;> simp

/-- When no call can go on, every thread is outside or sleeps. -/
theorem Inv.idle_or_sleeps (h : Inv s) (hset : Settled Action.own MonitorQueue.step s) (t : T) :
    s.pc t = .idle ∨ s.pc t = .takeSleep := by
  have hfree : s.mtx = none := by
    by_contra hsome
    obtain ⟨u, hu⟩ := Option.ne_none_iff_exists'.mp hsome
    obtain ⟨a, hown, ha⟩ := h.exists_step_of_holds ((h.mutex u).mpr hu)
    exact ha (hset a hown)
  have hout : (s.pc t).holds = false := by
    by_contra hin
    have := (h.mutex t).mp (by simpa using hin)
    simp [hfree] at this
  have hnext : MonitorQueue.step s (.next t) = none := hset _ rfl
  cases hpc : s.pc t with
  | idle => exact .inl rfl
  | takeSleep => exact .inr rfl
  | putLock | takeLock | takeRelock | pollLock =>
    simp [MonitorQueue.step, MonitorQueue.next, State.lock, hpc, hfree] at hnext
  | _ => simp [hpc, Pc.holds] at hout

/-- And nobody sleeps over an item. -/
theorem Inv.idle_of_settled (h : Inv s) (hset : Settled Action.own MonitorQueue.step s)
    (hqueue : s.queue ≠ []) (t : T) : s.pc t = .idle := by
  have hcredit : ∑ t, (s.pc t).credit = 0 := by
    refine Finset.sum_eq_zero fun u _ => ?_
    rcases h.idle_or_sleeps hset u with hu | hu <;> rw [hu] <;> rfl
  rcases h.woken with hw | hw
  · rw [hcredit, Nat.le_zero, List.length_eq_zero_iff] at hw
    exact absurd hw hqueue
  · refine (h.idle_or_sleeps hset t).resolve_right fun hsleep => ?_
    simpa [hsleep, Pc.sleeps] using hw t

end Invariant

end CarNetwork.MonitorQueue
