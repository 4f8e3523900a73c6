import CarNetwork.FleetInvariant

/-!
# Data stays in its group

A packet handed to an observer as data should come from a node of the receiver's
group that sent it as data. The one frame that breaks this is the announcement of
a group: it is not in the message format, so the parser gives it the default group
and the default kind, and a node of group 0 takes it for data.
-/
namespace CarNetwork.Fleet

open CarNetwork.Ethernet CarNetwork.Protocol CarNetwork.Car CarNetwork.Runs

variable {V : Type}

/-- Every packet handed to an observer was sent as data, from the group in which the
receiver was when it handed it over. -/
def Isolated (s : State V) : Prop :=
  ∀ e ∈ s.log, ∀ po c, e.effect = .onPacket po c →
    ∃ f, e.cause = some f ∧ f.kind = .data ∧ f.senderGroup = e.group

/-- The current group of a process that receives frames. -/
def groupAt (s : State V) : Node V → Option ℤ
  | .gateway v =>
    if (s.gateways v).phase.hears then some (s.gateways v).proto.currentGroupId else none
  | .component v port => (s.components v port).map (·.proto.currentGroupId)

/-- The action delivers a group announcement to a process of group 0. -/
def announcesToGroupZero (s : State V) : Action V → Bool
  | .deliver i _ _ =>
    match s.inFlight[i]? with
    | none => false
    | some f => f.kind = .groupInfo && groupAt s f.receiver = some 0
  | _ => false

/-- The same for one event, in a form that evaluates. -/
def Event.isolated (e : Event V) : Bool :=
  match e.effect, e.cause with
  | .onPacket _ _, some f => f.kind = .data && f.senderGroup = e.group
  | .onPacket _ _, none => false
  | _, _ => true

theorem isolated_of_event {s : State V} (h : Isolated s) : s.log.all Event.isolated = true := by
  rw [List.all_eq_true]
  intro e he
  unfold Event.isolated
  split
  · rename_i po c f heffect hcause
    obtain ⟨f', hf', hkind, hgroup⟩ := h e he po c heffect
    rw [hcause] at hf'
    cases hf'
    simp [hkind, hgroup]
  · rename_i po c heffect hcause
    obtain ⟨f', hf', -⟩ := h e he po c heffect
    rw [hcause] at hf'
    cases hf'
  · rfl

/-- The wire format loses nothing of a group that fits it. -/
theorem senderGroup_eq {f : Flight V} {m : Message} {group : ℤ}
    (hbyte : ∃ b : UInt8, f.senderGroup = b.toNat) (hm : m.groupId = UInt8.ofInt f.senderGroup)
    (hgroup : (m.groupId.toNat : ℤ) = group) : f.senderGroup = group := by
  obtain ⟨b, hb⟩ := hbyte
  rw [← hgroup, hm, hb, Conversions.uint8_ofInt_toNat]

section Steps

variable [DecidableEq V] {d : Deployment V} {s s' : State V} {a : Action V}

/-- The threads of a gateway hand no packet to an observer. -/
theorem act_no_packet {g g' : Gateway} {cfg : Config} {act : GatewayAction} {effects : List Effect}
    (h : g.act cfg act = some (g', effects)) (po : PortObserver) (c : AsyncCapsule) :
    .onPacket po c ∉ effects := by
  intro hx
  cases Gateway.ownSend_of_act h hx

/-- A gateway hands over packets of its own group that were sent as data, unless it is
given an announcement in group 0. -/
theorem delivered_packet_isolated {v : V} {env : Env} {f : Flight V} {g g' : Gateway}
    {effects : List Effect} (hbyte : ∃ b : UInt8, f.senderGroup = b.toNat)
    (hok : f.kind = .groupInfo → g.phase.hears = true → g.proto.currentGroupId ≠ 0)
    (hd : Delivered d v env f g g' effects) (po : PortObserver) (c : AsyncCapsule)
    (hx : .onPacket po c ∈ effects) : f.kind = .data ∧ f.senderGroup = g'.proto.currentGroupId := by
  cases hd with
  | ignored => cases hx
  | packet m _ hh hkind heffects =>
    rcases heffects _ hx with ⟨po', -, hgroup⟩ | ⟨rx, -, hx⟩
    · rcases hkind with ⟨hkind, hm⟩ | ⟨hkind, hm⟩
      · exact ⟨hkind, senderGroup_eq hbyte hm hgroup⟩
      · exact absurd (by rw [← hgroup, hm]; rfl) (hok hkind hh)
    · obtain ⟨src, dst, m, hx, -⟩ := Gateway.mem_onReceive hx
      cases hx
  | sync e q src time w hh hkind hpayload he => exact (quiet_syncEffects he hx).elim

theorem isolated_step (hwf : WellFormed d s) (hi : Isolated s)
    (hok : announcesToGroupZero s a = false) (h : step d s a = some s') : Isolated s' := by
  cases step_cases hwf h with
  | act v act g effects hact =>
    intro e he po c hc
    rcases List.mem_append.mp he with he | he
    · exact hi e he po c hc
    · obtain ⟨x, hx, rfl⟩ := List.mem_map.mp he
      exact absurd (hc ▸ hx) (act_no_packet hact po c)
  | deliver i now stray f v g effects hget hr hd =>
    have hmem := List.mem_of_getElem? hget
    intro e he po c hc
    rcases List.mem_append.mp he with he | he
    · exact hi e he po c hc
    · obtain ⟨x, hx, rfl⟩ := List.mem_map.mp he
      refine ⟨f, rfl, delivered_packet_isolated (hwf.senders f hmem) ?_ hd po c (hc ▸ hx)⟩
      intro hkind hh h0
      simp [announcesToGroupZero, hget, hkind, groupAt, hr, hh, h0] at hok
  | background _ _ hb =>
    obtain ⟨v, port, group, cause, es, hlog, -, -, hcaused, -, hes⟩ := hb.effects
    intro e he po c hc
    rw [hlog] at he
    rcases List.mem_append.mp he with he | he
    · exact hi e he po c hc
    · obtain ⟨x, hx, rfl⟩ := List.mem_map.mp he
      dsimp only at hc
      cases hes x hx with
      | send => cases hc
      | packet po' f m hcause hkind hgroup =>
        obtain ⟨i, now, stray, p, rfl, hget, hr, hp, hpg⟩ := hcaused f hcause
        refine ⟨f, hcause, ?_⟩
        rcases hkind with ⟨hkind, hm⟩ | ⟨hkind, hm⟩
        · exact ⟨hkind, senderGroup_eq (hwf.senders f (List.mem_of_getElem? hget)) hm hgroup⟩
        · have h0 : group = 0 := by rw [← hgroup, hm]; rfl
          simp [announcesToGroupZero, hget, hkind, groupAt, hr, hp, hpg, h0] at hok

end Steps

/-- Group isolation: in every run in which no group announcement is delivered to a node
of group 0, whatever else is sent, lost, duplicated or reordered, every packet
handed to an observer at a node of group `g` was sent as data from group `g`. -/
theorem data_isolated [DecidableEq V] {d : Deployment V} {s : State V}
    (h : Reaches (step d) (fun s a => announcesToGroupZero s a = false) (initial d) s) :
    Isolated s :=
  h.invariant_of (WellFormed d) Isolated (fun _ => wellFormed_of_reaches)
    (by simp [Isolated, initial])
    fun _ _ _ hwf hi hok hu => isolated_step hwf hi hok hu

/-- A car passes its barrier, and its brake component sends to the gateway. -/
def brakeRun {n : ℕ} (coordinator car : Fin n) : List (Action (Fin n)) :=
  reachBarrier coordinator ++ reachBarrier car ++
    [.gateway car .checkReady, .gateway car (.sendReady 0), .deliver 5 (fun _ => 0) (fun _ => 0),
      .deliver 7 (fun _ => 0) (fun _ => 0), .gateway car .leaveBarrier,
      .forkComponent car BRAKE_PORT,
      .joinComponent car BRAKE_PORT 0, .sendLocal car BRAKE_PORT (ByteText.ascii "brake!") 0 0,
      .deliver 7 (fun _ => 0) (fun _ => 0)]

theorem brakeRun_isolated :
    ∃ s, Reaches (step twoGroups) (fun s a => announcesToGroupZero s a = false)
      (initial twoGroups) s ∧
      (s.log.any fun e => e.effect matches .onPacket _ _) = true ∧ Isolated s := by
  have hrun : ((runIf (fun s a => !announcesToGroupZero s a) (step twoGroups) (initial twoGroups)
      (brakeRun 2 3)).map fun s => s.log.any fun e => e.effect matches .onPacket _ _) =
        some true := by
    decide +kernel
  obtain ⟨s, hs, hpacket⟩ := exists_reaches_of_runIf
    (fun s a => announcesToGroupZero s a = false) (brakeRun 2 3) (by simp) hrun
  exact ⟨s, hs, hpacket, data_isolated hs⟩

/-- The coordinator of group 0 announces its group while a car of group 0 listens: the
car hands the announcement to its observers as a data packet. -/
theorem announcement_taken_for_data :
    ∃ s, Reachable (step twoGroups) (initial twoGroups) s ∧ ¬ Isolated s := by
  have hrun : ((run (step twoGroups) (initial twoGroups)
      [.gateway 1 .listen, .gateway 1 (.joinGroup 0), .gateway 0 .listen, .gateway 0 (.joinGroup 0),
        .deliver 0 (fun _ => 0) (fun _ => 0)]).map fun s => s.log.all Event.isolated) =
          some false := by
    decide +kernel
  obtain ⟨s, hs, hlog⟩ := exists_reachable_of_run _ hrun
  refine ⟨s, hs, fun hi => ?_⟩
  rw [isolated_of_event hi] at hlog
  cases hlog

end CarNetwork.Fleet
