import CarNetwork.Gateway
import CarNetwork.Progress

/-!
# The wait at the start barrier

The threads of one gateway from `enable_start_sync` to its first tick, operation by
operation: `initialize` waits on a condition variable until the flag is set, a thread
sends READY once a second until then, and the thread that receives GO calls
`notify_sync_done`. That stores the flag and notifies without the mutex of the condition
variable. So it may do both after the waiting thread has seen that the flag is not set and
before it sleeps; and then nobody wakes the sleeper.
-/
namespace CarNetwork.StartWait

open CarNetwork.Runs CarNetwork.Ethernet CarNetwork.Car

/-- Where `initialize` is: about to look at the flag, past a look that found it not set,
asleep in `wait`, or done with it all. From the look to the sleep it has the mutex, which
nobody else asks for. -/
inductive Main
  | look
  | turned
  | asleep
  | ticking
  deriving DecidableEq

/-- Where the READY thread is; a coordinator has none. -/
inductive Ready
  | look
  | send
  | pause
  | ended
  deriving DecidableEq

/-- `calls` counts the calls of `notify_sync_done` that have stored the flag and not yet
notified. `missed` records that one of them notified a thread that was about to sleep, and
`late` the READYs sent with the flag set. -/
structure State where
  main : Main := .look
  ready : Ready
  done : Bool := false
  calls : ℕ := 0
  missed : Bool := false
  late : ℕ := 0

def initial (isSyncMaster : Bool) : State where
  ready := if isSyncMaster then .ended else .look

/-- `wake` is a sleeper that wakes for no reason. -/
inductive Action
  | look
  | sleep
  | wake
  | store
  | notify
  | readyLook
  | readySend
  | readyWake
  deriving DecidableEq

def step (s : State) : Action → Option State
  | .look =>
    if s.main = .look then some { s with main := if s.done then .ticking else .turned } else none
  | .sleep => if s.main = .turned then some { s with main := .asleep } else none
  | .wake => if s.main = .asleep then some { s with main := .look } else none
  | .store => some { s with done := true, calls := s.calls + 1 }
  | .notify =>
    if 0 < s.calls then
      some { s with
        calls := s.calls - 1
        main := if s.main = .asleep then .look else s.main
        missed := s.missed || decide (s.main = .turned) }
    else none
  | .readyLook =>
    if s.ready = .look then some { s with ready := if s.done then .ended else .send } else none
  | .readySend =>
    if s.ready = .send then
      some { s with ready := .pause, late := if s.done then s.late + 1 else s.late }
    else none
  | .readyWake => if s.ready = .pause then some { s with ready := .look } else none

/-! ## The invariant -/

/-- A thread that sleeps, or is about to, with the flag set has a notification to come
unless it has missed one; and a READY that is about to be sent with the flag set is the
first such. -/
structure Ok (s : State) : Prop where
  ticking : s.main = .ticking → s.done = true
  stored : 0 < s.calls → s.done = true
  called : s.main = .turned ∨ s.main = .asleep → s.done = true → s.missed = false → 0 < s.calls
  late_le : s.late ≤ 1
  early : s.done = false → s.late = 0
  last : s.ready = .send → s.late = 0

theorem ok_initial (isSyncMaster : Bool) : Ok (initial isSyncMaster) where
  ticking h := by cases h
  stored h := by cases h
  called _ h := by cases h
  late_le := by simp [initial]
  early _ := rfl
  last _ := rfl

variable {s t : State} {a : Action}

theorem Ok.step (hs : Ok s) (h : StartWait.step s a = some t) : Ok t := by
  obtain ⟨hticking, hstored, hcalled, hle, hearly, hlast⟩ := hs
  cases a with
  | store =>
    obtain rfl := Option.some.inj h
    exact ⟨fun _ => rfl, fun _ => rfl, fun _ _ _ => Nat.succ_pos _, hle, nofun, hlast⟩
  | look =>
    simp only [StartWait.step, Option.ite_none_right_eq_some, Option.some.injEq] at h
    obtain ⟨-, rfl⟩ := h
    cases hdone : s.done
    · exact ⟨by simp, by simpa [hdone] using hstored, by simp, hle, fun _ => hearly hdone, hlast⟩
    · exact ⟨fun _ => rfl, fun _ => rfl, by simp, hle, by simp, hlast⟩
  | sleep =>
    simp only [StartWait.step, Option.ite_none_right_eq_some, Option.some.injEq] at h
    obtain ⟨hmain, rfl⟩ := h
    exact ⟨nofun, hstored, fun _ => hcalled (Or.inl hmain), hle, hearly, hlast⟩
  | wake =>
    simp only [StartWait.step, Option.ite_none_right_eq_some, Option.some.injEq] at h
    obtain ⟨-, rfl⟩ := h
    exact ⟨nofun, hstored, by simp, hle, hearly, hlast⟩
  | notify =>
    simp only [StartWait.step, Option.ite_none_right_eq_some, Option.some.injEq] at h
    obtain ⟨hcalls, rfl⟩ := h
    have hdone := hstored hcalls
    refine ⟨fun _ => hdone, fun _ => hdone, ?_, hle,
      fun hf => Bool.noConfusion (hdone.symm.trans hf), hlast⟩
    -- whoever was asleep is awake now, and whoever was about to sleep has missed the call
    cases s.main <;> simp
  | readyLook =>
    simp only [StartWait.step, Option.ite_none_right_eq_some, Option.some.injEq] at h
    obtain ⟨-, rfl⟩ := h
    refine ⟨hticking, hstored, hcalled, hle, hearly, ?_⟩
    cases hdone : s.done
    · exact fun _ => hearly hdone
    · simp
  | readySend =>
    simp only [StartWait.step, Option.ite_none_right_eq_some, Option.some.injEq] at h
    obtain ⟨hsend, rfl⟩ := h
    have hzero := hlast hsend
    refine ⟨hticking, hstored, hcalled, ?_, fun hf => ?_, nofun⟩
    · dsimp only
      split <;> omega
    · have hdone : s.done = false := hf
      simpa [hdone] using hzero
  | readyWake =>
    simp only [StartWait.step, Option.ite_none_right_eq_some, Option.some.injEq] at h
    obtain ⟨-, rfl⟩ := h
    exact ⟨hticking, hstored, hcalled, hle, hearly, nofun⟩

theorem ok_of_reachable {isSyncMaster : Bool} (h : Reachable step (initial isSyncMaster) s) :
    Ok s :=
  h.invariant Ok (ok_initial isSyncMaster) fun _ _ _ hs _ hstep => hs.step hstep

/-! ## Getting past the wait -/

/-- The operations that are under way: those of `initialize` and of a call of
`notify_sync_done` that has begun. -/
def underWay : Action → Bool
  | .look | .sleep | .notify => true
  | _ => false

def Main.work : Main → ℕ
  | .turned => 2
  | .look => 1
  | .asleep | .ticking => 0

/-- With the flag set and no call missed. -/
structure Called (s : State) : Prop extends Ok s where
  done : s.done = true
  heard : s.missed = false
  awake : s.main ≠ .turned

/-- The step lemma: `initialize` looks for the last time, or somebody wakes it. -/
theorem Called.step (hs : Called s) (ha : underWay a = true) (h : StartWait.step s a = some t) :
    Called t ∧ 3 * t.calls + t.main.work < 3 * s.calls + s.main.work := by
  have hok := hs.toOk.step h
  obtain ⟨-, hdone, hheard, hawake⟩ := hs
  cases a with
  | look =>
    simp only [StartWait.step, Option.ite_none_right_eq_some, Option.some.injEq, hdone,
      if_true] at h
    obtain ⟨hmain, rfl⟩ := h
    exact ⟨⟨hok, rfl, hheard, nofun⟩, by simp [hmain, Main.work]⟩
  | sleep =>
    simp only [StartWait.step, Option.ite_none_right_eq_some] at h
    exact (hawake h.1).elim
  | notify =>
    simp only [StartWait.step, Option.ite_none_right_eq_some, Option.some.injEq] at h
    obtain ⟨hcalls, rfl⟩ := h
    refine ⟨⟨hok, hdone, by simp [hheard, hawake], ?_⟩, ?_⟩
    · dsimp only
      split
      · nofun
      · exact hawake
    · have hwork : (if s.main = .asleep then Main.look else s.main).work ≤ s.main.work + 1 := by
        cases s.main <;> simp [Main.work]
      dsimp only
      omega
  | _ => cases ha

/-- Whoever has work to do is not left without it. -/
theorem Called.ticking_of_settled (hs : Called s) (hset : Settled underWay StartWait.step s) :
    s.main = .ticking := by
  cases hmain : s.main with
  | look => simpa [StartWait.step, hmain] using hset .look rfl
  | turned => exact (hs.awake hmain).elim
  | asleep =>
    have hcalls := hs.called (Or.inr hmain) hs.done hs.heard
    simpa [StartWait.step, hcalls] using hset .notify rfl
  | ticking => rfl

/-- A gateway ticks only after GO, and sends at most one READY after it. If `initialize` is
not about to sleep once the flag is set, and no call has notified it while it was, the
operations under way end, in whatever order, and then it ticks. -/
theorem starts_unless_missed {isSyncMaster : Bool} (h : Reachable step (initial isSyncMaster) s) :
    (s.main = .ticking → s.done = true) ∧ s.late ≤ 1 ∧
      (s.done = true → s.missed = false → s.main ≠ .turned →
        (∀ as t, run (only underWay step) s as = some t →
          as.length ≤ 3 * s.calls + 1 ∧ (Settled underWay step t → t.main = .ticking)) ∧
        ∃ t, Reachable (only underWay step) s t ∧ Settled underWay step t) := by
  have hok := ok_of_reachable h
  refine ⟨hok.ticking, hok.late_le, fun hdone hheard hawake => ?_⟩
  have hstart : Called s := ⟨hok, hdone, hheard, hawake⟩
  have hwork : s.main.work ≤ 1 := by
    cases hmain : s.main with
    | turned => exact (hawake hmain).elim
    | _ => simp [Main.work]
  obtain ⟨hbound, hend⟩ := settles Called (fun s => 3 * s.calls + s.main.work)
    (fun t a u ht ha hu => ht.step ha hu) hstart
  refine ⟨fun as t hrun => ?_, hend⟩
  obtain ⟨hlen, hcalled⟩ := hbound as t hrun
  exact ⟨by omega, hcalled.ticking_of_settled⟩

/-- A call that comes while the gateway sleeps. -/
theorem sleeping_gateway_starts : ∃ s t, run step (initial false) [.look, .sleep, .store] = some s ∧
    run (only underWay step) s [.notify, .look] = some t ∧ t.main = .ticking := by
  have hs : Reachable step (initial false)
      { main := .asleep, ready := .look, done := true, calls := 1 } :=
    reachable_of_run [.look, .sleep, .store] rfl
  have ht : run (only underWay step) { main := .asleep, ready := .look, done := true, calls := 1 }
      [.notify, .look] = some { main := .ticking, ready := .look, done := true } := rfl
  have hset : Settled underWay step { main := .ticking, ready := .look, done := true } := by
    intro a ha
    cases a <;> first | rfl | cases ha
  refine ⟨_, _, rfl, ht, ?_⟩
  exact (((starts_unless_missed hs).2.2 rfl rfl (by decide)).1 _ _ ht).2 hset

/-! ## A missed call -/

/-- Asleep with nobody to wake it. -/
def Hung (s : State) : Prop := s.main = .asleep ∧ s.done = true ∧ s.calls = 0

theorem Hung.step (hs : Hung s) (hstore : a ≠ .store) (hwake : a ≠ .wake)
    (h : StartWait.step s a = some t) : Hung t := by
  obtain ⟨hmain, hdone, hcalls⟩ := hs
  cases a with
  | store => exact (hstore rfl).elim
  | wake => exact (hwake rfl).elim
  | look | sleep | notify => simp [StartWait.step, hmain, hcalls] at h
  | readyLook | readySend | readyWake =>
    simp only [StartWait.step, Option.ite_none_right_eq_some, Option.some.injEq] at h
    obtain ⟨-, rfl⟩ := h
    exact ⟨hmain, hdone, hcalls⟩

/-- Whenever `initialize` has seen that the flag is not set, GO may arrive before it sleeps.
Then it sleeps with the flag set, and unless it is called again or wakes for no reason, it
sleeps for good, whatever the other threads do. -/
theorem missed_call_hangs {isSyncMaster : Bool} (h : Reachable step (initial isSyncMaster) s)
    (hmain : s.main = .turned) (hdone : s.done = false) :
    ∃ t, run step s [.store, .notify, .sleep] = some t ∧
      ∀ u, Reaches step (fun _ a => a ≠ .store ∧ a ≠ .wake) t u → u.main = .asleep ∧
        u.done = true := by
  have hcalls : s.calls = 0 := by
    by_contra hne
    have hd := (ok_of_reachable h).stored (Nat.pos_of_ne_zero hne)
    rw [hdone] at hd
    cases hd
  refine ⟨_, by simp [run, step, hmain]; rfl, fun u hu => ?_⟩
  have hhung : Hung u := hu.invariant Hung ⟨rfl, rfl, by simp [hcalls]⟩
    fun _ _ _ hs hok hstep => hs.step hok.1 hok.2 hstep
  exact ⟨hhung.1, hhung.2.1⟩

/-- GO arrives between the first look and the sleep. -/
theorem go_in_between_hangs : ∃ s t, run step (initial false) [.look] = some s ∧
    run step s [.store, .notify, .sleep] = some t ∧
      ∀ u, Reaches step (fun _ a => a ≠ .store ∧ a ≠ .wake) t u → u.main = .asleep ∧
        u.done = true := by
  have hs : Reachable step (initial false) { main := .turned, ready := .look } :=
    reachable_of_run [.look] rfl
  obtain ⟨t, ht, hhangs⟩ := missed_call_hangs hs rfl rfl
  exact ⟨_, t, rfl, ht, hhangs⟩

/-! ## The gateway of the fleet -/

/-- A gateway's own actions, and `none` for a call of `notify_sync_done`. -/
def gatewayStep (cfg : Config) (g : Gateway) : Option GatewayAction → Option Gateway
  | some a => (g.act cfg a).map Prod.fst
  | none => some { g with syncDone := true }

/-- The gateway with these threads. -/
structure Stands (cfg : Config) (s : State) (g : Gateway) : Prop where
  phase : g.phase = if s.main = .ticking then .running else .waiting
  done : g.syncDone = s.done
  ready : g.readyChecked = decide (s.ready = .send)
  sends : s.ready ≠ .ended → cfg.isSyncMaster = false

variable {cfg : Config} {g : Gateway}

theorem Stands.atBarrier (h : Stands cfg s g) : g.phase.atBarrier = true := by
  rw [h.phase]
  split <;> rfl

/-- Each operation is an action of the gateway, a call, or none of the fleet's business. -/
theorem Stands.step (hs : Stands cfg s g) (h : StartWait.step s a = some t) :
    ∃ g', Reachable (gatewayStep cfg) g g' ∧ Stands cfg t g' := by
  have hbarrier := hs.atBarrier
  obtain ⟨hphase, hdone, hready, hsends⟩ := hs
  cases a with
  | store =>
    obtain rfl := Option.some.inj h
    exact ⟨_, Reaches.refl.tail (a := none) trivial rfl, hphase, rfl, hready, hsends⟩
  | look =>
    simp only [StartWait.step, Option.ite_none_right_eq_some, Option.some.injEq] at h
    obtain ⟨hmain, rfl⟩ := h
    rw [hmain] at hphase
    cases hflag : s.done with
    | false => exact ⟨g, .refl, by simpa using hphase, hdone.trans hflag, hready, hsends⟩
    | true =>
      have hact : gatewayStep cfg g (some .leaveBarrier) = some
          { g with phase := .running, peerPorts := setPeerPorts GATEWAY_PORT componentPorts } := by
        simp [gatewayStep, Gateway.act, hphase, hdone, hflag]
      exact ⟨_, Reaches.refl.tail trivial hact, by simp, hdone.trans hflag, hready, hsends⟩
  | sleep =>
    simp only [StartWait.step, Option.ite_none_right_eq_some, Option.some.injEq] at h
    obtain ⟨hmain, rfl⟩ := h
    exact ⟨g, .refl, by simpa [hmain] using hphase, hdone, hready, hsends⟩
  | wake =>
    simp only [StartWait.step, Option.ite_none_right_eq_some, Option.some.injEq] at h
    obtain ⟨hmain, rfl⟩ := h
    exact ⟨g, .refl, by simpa [hmain] using hphase, hdone, hready, hsends⟩
  | notify =>
    simp only [StartWait.step, Option.ite_none_right_eq_some, Option.some.injEq] at h
    obtain ⟨-, rfl⟩ := h
    refine ⟨g, .refl, ?_, hdone, hready, hsends⟩
    rw [hphase]
    cases s.main <;> rfl
  | readyLook =>
    simp only [StartWait.step, Option.ite_none_right_eq_some, Option.some.injEq] at h
    obtain ⟨hlook, rfl⟩ := h
    rw [hlook] at hready hsends
    cases hflag : s.done with
    | true => exact ⟨g, .refl, hphase, hdone.trans hflag, by simpa using hready, nofun⟩
    | false =>
      have hmaster := hsends nofun
      have hact : gatewayStep cfg g (some .checkReady) = some { g with readyChecked := true } := by
        simp [gatewayStep, Gateway.act, hbarrier, hmaster, hready, hdone, hflag]
      exact ⟨_, Reaches.refl.tail trivial hact, hphase, hdone.trans hflag,
        by simp, fun _ => hmaster⟩
  | readySend =>
    simp only [StartWait.step, Option.ite_none_right_eq_some, Option.some.injEq] at h
    obtain ⟨hsend, rfl⟩ := h
    have hact : gatewayStep cfg g (some (.sendReady 0)) =
        some { g with readyChecked := false } := by
      simp [gatewayStep, Gateway.act, hbarrier, hready, hsend]
    exact ⟨_, Reaches.refl.tail trivial hact, hphase, hdone,
      by simp, fun _ => hsends (by simp [hsend])⟩
  | readyWake =>
    simp only [StartWait.step, Option.ite_none_right_eq_some, Option.some.injEq] at h
    obtain ⟨hpause, rfl⟩ := h
    exact ⟨g, .refl, hphase, hdone,
      by simpa [hpause] using hready, fun _ => hsends (by simp [hpause])⟩

/-- Every run of the threads is a run of the gateway as the fleet has it. -/
theorem threads_refine_gateway (hphase : g.phase = .waiting) (hdone : g.syncDone = false)
    (hready : g.readyChecked = false) (h : Reachable step (initial cfg.isSyncMaster) s) :
    ∃ g', Reachable (gatewayStep cfg) g g' ∧ Stands cfg s g' := by
  refine h.invariant (fun s => ∃ g', Reachable (gatewayStep cfg) g g' ∧ Stands cfg s g') ?_ ?_
  · refine ⟨g, .refl, hphase, hdone, ?_, ?_⟩
    · rw [hready, initial]
      cases cfg.isSyncMaster <;> rfl
    · simp only [initial]
      cases cfg.isSyncMaster <;> simp
  · rintro t a u ⟨g₁, hg₁, hs⟩ - hu
    obtain ⟨g₂, hg₂, hs⟩ := hs.step hu
    exact ⟨g₂, hg₁.trans hg₂, hs⟩

/-- A car, and its gateway at the barrier. -/
def aCar : Config where
  mac := Address.BROADCAST
  vmId := 1
  groupId := 0
  isSyncMaster := false
  totalSyncVms := 1

def aGateway : Gateway where
  proto := { address := aCar.mac }
  phase := .waiting

/-- The car gets its GO while it is about to send READY. -/
theorem released_car_refines :
    ∃ s g', run step (initial false) [.readyLook, .look, .sleep, .store, .notify,
      .readySend, .look] = some s ∧
    Reachable (gatewayStep aCar) aGateway g' ∧ s.late = 1 ∧ g'.phase = .running := by
  have hs : Reachable step (initial aCar.isSyncMaster)
      { main := .ticking, ready := .pause, done := true, late := 1 } :=
    reachable_of_run [.readyLook, .look, .sleep, .store, .notify, .readySend, .look] rfl
  obtain ⟨g', hg', hstands⟩ : ∃ g', Reachable (gatewayStep aCar) aGateway g' ∧
      Stands aCar { main := .ticking, ready := .pause, done := true, late := 1 } g' :=
    threads_refine_gateway rfl rfl rfl hs
  exact ⟨_, g', rfl, hg', rfl, hstands.phase⟩

end CarNetwork.StartWait
