import CarNetwork.LostGo

/-!
# Which cars can still start

A car that has neither missed every GO of its group nor heard one too early can still be
started: some machine of the group can still send its GO, since each car whose READY it lacks
has one in flight or can send another. With the results on the cars that are left at the
barrier this says exactly which cars can start.
-/
namespace CarNetwork.Fleet

open CarNetwork.ByteText CarNetwork.Ethernet CarNetwork.Protocol CarNetwork.Car
open CarNetwork.Runs

variable {V : Type} [DecidableEq V]

/-! ## Ready sets -/

/-- Nobody counts before the barrier, and there a car counts itself first. -/
structure ReadyInv (d : Deployment V) (s : State V) : Prop where
  empty : ∀ w, ¬ Reached s w → (s.gateways w).proto.syncReadyNodes = ∅
  self : ∀ w, d.isCoordinator w = false → Reached s w →
    (d.mac w).str ∈ (s.gateways w).proto.syncReadyNodes

section Steps

variable {d : Deployment V} {s s' : State V} {a : Action V} {u v w : V}

theorem readyInv_step (hwf : WellFormed d s) (hinv : ReadyInv d s) (h : step d s a = some s') :
    ReadyInv d s' := by
  have hnot : ∀ w, ¬ Reached s' w → ¬ Reached s w := fun w hw hr => hw (reached_step hwf h hr)
  refine ⟨fun w hw => ?_, fun w hc hw => ?_⟩
  · have hempty := hinv.empty w (hnot w hw)
    cases step_cases hwf h with
    | act v act g effects hact =>
      by_cases hwv : w = v
      · subst hwv
        rcases act_barrier (hwf.gateways w) hact with ⟨hsame, -⟩ | ⟨-, hb, -⟩
        · simpa using hsame.ready.trans hempty
        · exact absurd (by simpa [Reached] using hb) hw
      · simpa [hwv] using hempty
    | deliver i now stray f v g effects hi hr hd =>
      by_cases hwv : w = v
      · subst hwv
        cases barrierEffect_of_delivered (hwf.gateways w) hd with
        | idle hsame => simpa using hsame.ready.trans hempty
        | counted _ _ _ _ hb => exact absurd hb (hnot w hw)
        | go _ _ _ _ hsame => simpa using hsame.trans hempty
      · simpa [hwv] using hempty
    | background _ _ hb => rwa [hb.gateways]
  · cases gateway_cases hwf h w with
    | same hsame hback => exact hsame.ready ▸ hinv.self w hc (hback hw)
    | enabled _ hready => rw [hready, hc]; exact Finset.mem_singleton_self _
    | delivered f effects group hf hbar hback => exact ready_subset hbar (hinv.self w hc (hback hw))

theorem readyInv_of_reaches (hs : Reachable (step d) (initial d) s) : ReadyInv d s :=
  hs.invariant_of (WellFormed d) (ReadyInv d) (fun _ => wellFormed_of_reaches)
    ⟨by simp [initial], by simp [initial, Reached, Phase.atBarrier]⟩
    fun _ _ _ hwf hinv _ h => readyInv_step hwf hinv h

/-! ## Own steps of one machine -/

theorem step_act {act : GatewayAction} {g : Gateway} {effects : List Effect}
    (h : (s.gateways u).act (d.config u) act = some (g, effects)) :
    step d s (.gateway u act) =
      some (perform d (setGateway s u g) (.gateway u) g.proto.currentGroupId none effects) := by
  simp only [step, h, Option.map_some]

/-- The second state is reached by own steps of one gateway, with its flags as they were. -/
structure OwnSteps (d : Deployment V) (u : V) (s s' : State V) : Prop where
  reach : Reachable (step d) s s'
  others : ∀ x, x ≠ u → s'.gateways x = s.gateways x
  goSent : (s'.gateways u).proto.syncGoSent = (s.gateways u).proto.syncGoSent
  goReceived : (s'.gateways u).proto.syncGoReceived = (s.gateways u).proto.syncGoReceived
  syncDone : (s'.gateways u).syncDone = (s.gateways u).syncDone
  ready : (s.gateways u).proto.syncReadyNodes ⊆ (s'.gateways u).proto.syncReadyNodes
  flights : ∀ f ∈ s.inFlight, f ∈ s'.inFlight

namespace OwnSteps

theorem refl (d : Deployment V) (u : V) (s : State V) : OwnSteps d u s s :=
  ⟨.refl, fun _ _ => rfl, rfl, rfl, rfl, subset_rfl, fun _ => id⟩

theorem trans {t : State V} (h : OwnSteps d u s s') (h' : OwnSteps d u s' t) :
    OwnSteps d u s t where
  reach := h.reach.trans h'.reach
  others x hx := (h'.others x hx).trans (h.others x hx)
  goSent := h'.goSent.trans h.goSent
  goReceived := h'.goReceived.trans h.goReceived
  syncDone := h'.syncDone.trans h.syncDone
  ready := h.ready.trans h'.ready
  flights f hf := h'.flights f (h.flights f hf)

theorem act (hs : Reachable (step d) (initial d) s) {act : GatewayAction} {g : Gateway}
    {effects : List Effect} (h : (s.gateways u).act (d.config u) act = some (g, effects)) :
    OwnSteps d u s (perform d (setGateway s u g) (.gateway u) g.proto.currentGroupId
      none effects) := by
  have hbar := act_barrier ((wellFormed_of_reaches hs).gateways u) h
  refine ⟨.tail .refl trivial (step_act h), fun x hx => by simp [hx], ?_, ?_, ?_, ?_,
    fun f hf => mem_inFlight_perform.mpr (Or.inl hf)⟩
  · rcases hbar with ⟨hsame, -⟩ | ⟨-, -, -, hsame, -⟩
    · simpa using hsame.goSent
    · simpa using hsame
  · rcases hbar with ⟨hsame, -⟩ | ⟨-, -, -, -, hsame, -⟩
    · simpa using hsame.goReceived
    · simpa using hsame
  · simpa using (act_release h).1
  · rcases hbar with ⟨hsame, -⟩ | ⟨hbefore, -⟩
    · simpa using hsame.ready.symm.subset
    · have hempty := (readyInv_of_reaches hs).empty u (by simp [Reached, hbefore])
      rw [hempty]
      exact Finset.empty_subset _

/-- What the machine keeps is kept everywhere. -/
theorem eq_at {β : Type} (h : OwnSteps d u s s') (field : Gateway → β)
    (hu : field (s'.gateways u) = field (s.gateways u)) (x : V) :
    field (s'.gateways x) = field (s.gateways x) := by
  by_cases hx : x = u
  · rw [hx, hu]
  · rw [h.others x hx]

theorem goReceived_eq (h : OwnSteps d u s s') (x : V) :
    (s'.gateways x).proto.syncGoReceived = (s.gateways x).proto.syncGoReceived :=
  h.eq_at (fun g => g.proto.syncGoReceived) h.goReceived x

theorem syncDone_eq (h : OwnSteps d u s s') (x : V) :
    (s'.gateways x).syncDone = (s.gateways x).syncDone :=
  h.eq_at (fun g => g.syncDone) h.syncDone x

theorem goSent_eq (h : OwnSteps d u s s') (x : V) :
    (s'.gateways x).proto.syncGoSent = (s.gateways x).proto.syncGoSent :=
  h.eq_at (fun g => g.proto.syncGoSent) h.goSent x

theorem ready_subset (h : OwnSteps d u s s') (x : V) :
    (s.gateways x).proto.syncReadyNodes ⊆ (s'.gateways x).proto.syncReadyNodes := by
  by_cases hx : x = u
  · rw [hx]
    exact h.ready
  · rw [h.others x hx]

theorem underway (h : OwnSteps d u s s') {t : ControlType} {x y : V} :
    Underway s t x y → Underway s' t x y := by
  rintro ⟨f, hf, hrest⟩
  exact ⟨f, h.flights f hf, hrest⟩

end OwnSteps

theorem reached_reaches (hs : Reachable (step d) (initial d) s) (hlater : Reachable (step d) s s')
    (hw : Reached s w) : Reached s' w :=
  hlater.invariant_of (WellFormed d) (Reached · w) (fun _ ht =>
    wellFormed_of_reaches (hs.trans ht)) hw
    fun _ _ _ hwf hw _ h => reached_step hwf h hw

/-- How many own steps a machine is away from the barrier. -/
def ahead : Phase → ℕ
  | .off => 5
  | .listening => 4
  | .joined => 3
  | .callbackSet => 2
  | .masterSet => 1
  | .waiting | .running | .crashed => 0

/-- A machine that is not at the barrier can take its next step towards it. -/
theorem exists_act_ahead {g : Gateway} (hg : GatewayOk d u g) (hnot : g.phase.atBarrier = false) :
    ∃ act g' effects, g.act (d.config u) act = some (g', effects) ∧ ahead g'.phase < ahead g.phase ∧
      g'.readyChecked = g.readyChecked := by
  cases hphase : g.phase with
  | off => exact ⟨.listen, _, _, if_pos hphase, by simp [ahead], rfl⟩
  | listening =>
    obtain ⟨es, heq, -⟩ := setCurrentGroup_spec g.proto (d.config u).groupId 0
    refine ⟨.joinGroup 0,
      { g with proto := inGroup g.proto (d.config u).groupId, phase := .joined }, es, ?_, ?_, rfl⟩
    · simp only [Gateway.act, if_pos hphase, heq]
    · simp [ahead]
  | joined => exact ⟨.installCallback, _, _, if_pos hphase, by simp [ahead], rfl⟩
  | callbackSet => exact ⟨.setMaster, _, _, if_pos hphase, by simp [ahead], rfl⟩
  | masterSet => exact ⟨.enableStartSync, _, _, if_pos hphase, by simp [ahead], rfl⟩
  | waiting => rw [hphase] at hnot; cases hnot
  | running => rw [hphase] at hnot; cases hnot
  | crashed => exact absurd hphase hg.alive

/-- Every machine can come to the barrier. -/
theorem exists_reached (hs : Reachable (step d) (initial d) s) (u : V) :
    ∃ s', OwnSteps d u s s' ∧ (s'.gateways u).readyChecked = (s.gateways u).readyChecked ∧
      Reached s' u := by
  have hnext : ∀ t, OwnSteps d u s t ∧ (t.gateways u).readyChecked = (s.gateways u).readyChecked →
      Reached t u ∨ ∃ a t', True ∧ step d t a = some t' ∧
        (OwnSteps d u s t' ∧ (t'.gateways u).readyChecked = (s.gateways u).readyChecked) ∧
        ahead (t'.gateways u).phase < ahead (t.gateways u).phase := by
    rintro t ⟨hown, hchecked⟩
    by_cases hreached : Reached t u
    · exact Or.inl hreached
    · have ht := hs.trans hown.reach
      obtain ⟨act, g, effects, hact, hlt, hsame⟩ :=
        exists_act_ahead ((wellFormed_of_reaches ht).gateways u) (by simpa [Reached] using hreached)
      refine Or.inr ⟨.gateway u act, _, trivial, step_act hact, ⟨hown.trans (.act ht hact), ?_⟩, ?_⟩
      · simpa [hsame] using hchecked
      · simpa using hlt
  obtain ⟨s', -, ⟨hown, hchecked⟩, hreached⟩ := exists_reaches_of_measure _ (Reached · u)
    (fun t => ahead (t.gateways u).phase) hnext ⟨.refl d u s, rfl⟩
  exact ⟨s', hown, hchecked, hreached⟩

/-- A car whose READY thread has not ended can broadcast READY. -/
theorem exists_ready (hs : Reachable (step d) (initial d) s) (hcar : d.isCoordinator u = false)
    (hnot : ¬ Silent s u) : ∃ s', OwnSteps d u s s' ∧ ∀ w, w ≠ u → Underway s' .READY u w := by
  obtain ⟨s₁, hown₁, hchecked₁, hreached⟩ := exists_reached hs u
  obtain ⟨s₂, hown₂, hreached₂, hchecked₂⟩ : ∃ s₂, OwnSteps d u s₁ s₂ ∧ Reached s₂ u ∧
      (s₂.gateways u).readyChecked = true := by
    by_cases hchecked : (s₁.gateways u).readyChecked = true
    · exact ⟨s₁, .refl d u s₁, hreached, hchecked⟩
    · rw [Bool.not_eq_true] at hchecked
      have hwaits : (s₁.gateways u).syncDone = false := by
        rw [hown₁.syncDone, ← Bool.not_eq_true]
        exact fun hdone => hnot ⟨hdone, hchecked₁ ▸ hchecked⟩
      have hact : (s₁.gateways u).act (d.config u) .checkReady =
          some ({ s₁.gateways u with readyChecked := true }, []) :=
        if_pos ⟨hreached, hcar, hchecked, hwaits⟩
      exact ⟨_, .act (hs.trans hown₁.reach) hact, by simpa [Reached] using hreached, by simp⟩
  have hact : (s₂.gateways u).act (d.config u) (.sendReady 0) =
      some ({ s₂.gateways u with readyChecked := false },
      sendControl (s₂.gateways u).proto (s₂.gateways u).localEp ⟨Address.BROADCAST, GATEWAY_PORT⟩
        .READY 0 [] 0) :=
    if_pos ⟨hreached₂, hchecked₂⟩
  rw [sendControl_eq (by simp)] at hact
  refine ⟨_, hown₁.trans (hown₂.trans (.act ((hs.trans hown₁.reach).trans hown₂.reach) hact)),
    fun w hw => ?_⟩
  obtain ⟨f, hf, hrest⟩ := mem_copies_broadcast (d := d) hw (.control .READY) _ _ GATEWAY_PORT _
  exact ⟨f, mem_inFlight_perform.mpr (Or.inr ⟨_, List.mem_singleton_self _, hf⟩), hrest⟩

/-! ## Deliveries -/

/-- A copy in flight can be delivered. -/
theorem exists_delivered {t : ControlType} (hwf : WellFormed d s) (hflight : Underway s t u w) :
    ∃ i f g effects, s.inFlight[i]? = some f ∧ f.kind = .control t ∧ f.sender = .gateway u ∧
      Delivered d w { now := fun _ => 0, stray := fun _ => 0 } f (s.gateways w) g effects ∧
      step d s (.deliver i (fun _ => 0) fun _ => 0) =
        some (perform d (setGateway { s with inFlight := s.inFlight.eraseIdx i } w g) (.gateway w)
          g.proto.currentGroupId (some f) effects) := by
  obtain ⟨f, hf, hkind, hsender, hr⟩ := hflight
  obtain ⟨i, hi⟩ := List.getElem?_of_mem hf
  refine ⟨i, f, _, _, hi, hkind, hsender,
    delivered_of_content (fun _ => 0) (fun _ => 0) (s.gateways w) (hwf.flights f hf) hr, ?_⟩
  simp only [step, hi, arrive, hr]

/-- A READY that is delivered at the barrier is counted; when it completes the set of a machine
that has not sent GO, the machine sends it. -/
theorem exists_counted (hs : Reachable (step d) (initial d) s) (hpos : 0 < d.totalSyncVms)
    (hgroup : d.group u = d.group w) (hreached : Reached s w)
    (hunsent : (s.gateways w).proto.syncGoSent = false) (hready : Underway s .READY u w) :
    ∃ s', Reachable (step d) s s' ∧ (∀ x, x ≠ w → s'.gateways x = s.gateways x) ∧
      ((∀ x, x ≠ w → Underway s' .GO w x) ∨
        (s'.gateways w).proto.syncGoSent = false ∧
          (s'.gateways w).proto.syncReadyNodes = insert (d.mac u).str
            (s.gateways w).proto.syncReadyNodes ∧
          ((s'.gateways w).proto.syncReadyNodes.card : ℤ) ≠ d.totalSyncVms ∧
          ∀ f ∈ s.inFlight, f.sender ≠ .gateway u → f ∈ s'.inFlight) := by
  have hwf := wellFormed_of_reaches hs
  obtain ⟨i, f, g, effects, hi, hkind, hsender, hd, hstep⟩ := exists_delivered hwf hready
  refine ⟨_, .tail .refl trivial hstep, fun x hx => by simp [hx], ?_⟩
  cases barrierEffect_of_delivered (hwf.gateways w) hd with
  | idle _ _ hother => exact absurd hgroup (hother hreached hpos hkind u hsender)
  | go _ hgo => rw [hkind] at hgo; cases hgo
  | counted u' _ hsender' _ _ _ hinsert _ _ _ hsent =>
    rw [hsender] at hsender'
    cases hsender'
    rcases hsent with ⟨-, -, -, src, payload, rest, heffects, -⟩ | ⟨hwhy, hsame, -⟩
    · refine Or.inl fun x hx => ?_
      obtain ⟨f', hf', hrest⟩ :=
        mem_copies_broadcast (d := d) hx (.control .GO) src _ GATEWAY_PORT payload
      exact ⟨f', mem_inFlight_perform.mpr (Or.inr ⟨_, heffects ▸ List.mem_cons_self, hf'⟩), hrest⟩
    · refine Or.inr
        ⟨by simpa using hsame.trans hunsent, by simpa using hinsert, ?_, fun f' hf' hne => ?_⟩
      · simpa using hwhy.resolve_left (by simp [hunsent])
      · refine mem_inFlight_perform.mpr (Or.inl (mem_eraseIdx_of_ne hi hf' ?_))
        rintro rfl
        exact hne hsender

/-- The first GO of its group that a car hears at the barrier releases it. -/
theorem released_of_first {env : Env} {f : Flight V} {g g' : Gateway} {effects : List Effect}
    (hg : GatewayOk d v g) (hd : Delivered d v env f g g' effects) (hkind : f.kind = .control .GO)
    (hsender : f.sender = .gateway w) (hgroup : d.group w = d.group v)
    (hb : g.phase.atBarrier = true) (hfirst : g.proto.syncGoReceived = false) :
    g'.syncDone = true := by
  cases hd with
  | ignored hwhy =>
    rcases hwhy with hh | ⟨e, he, hbad⟩
    · cases hphase : g.phase <;> simp_all [Phase.atBarrier, Phase.hears]
    · rw [hkind] at he
      cases e <;> simp_all [Emission.type, Emission.Authentic]
  | packet m _ _ hk => rcases hk with ⟨hk, -⟩ | ⟨hk, -⟩ <;> rw [hk] at hkind <;> cases hkind
  | sync e q src time w' hh hk hpayload he hsender' hne hmac hq hbarrier =>
    have hgo : e = .go := by
      rw [hk] at hkind
      cases e <;> simp_all [Emission.type]
    subst hgo
    rw [hsender] at hsender'
    cases hsender'
    have hin : isMessageInternal g.proto (received .go q src time) = true :=
      (internal_iff g .go src time (hq.trans (hbarrier (Or.inr rfl)).1)).mpr
        (by rw [hg.joined_group hb, hgroup])
    have hhandled : syncHandled env g .go q src time f.capsule =
        { inst := { g.proto with syncGoReceived := true }, effects := [.syncDoneCallback] } := by
      simp only [syncHandled, handleSync, if_pos hin, onGo, hfirst, hg.callback, hb]
      rfl
    simp [syncResult, syncEffects, hhandled, Gateway.releasedBy]

/-- A car at the barrier that has been released goes on. -/
theorem exists_running (hreached : Reached s v) (hdone : (s.gateways v).syncDone = true) :
    ∃ s', Reachable (step d) s s' ∧ (s'.gateways v).phase = .running := by
  cases hphase : (s.gateways v).phase with
  | running => exact ⟨s, .refl, hphase⟩
  | waiting =>
    have hact : (s.gateways v).act (d.config v) .leaveBarrier = some ({ s.gateways v with
        phase := .running, peerPorts := setPeerPorts GATEWAY_PORT componentPorts }, []) :=
          if_pos ⟨hphase, hdone⟩
    exact ⟨_, .tail .refl trivial (step_act hact), by simp⟩
  | _ => rw [Reached, hphase] at hreached; cases hreached

theorem exists_started (hs : Reachable (step d) (initial d) s) (hgroup : d.group w = d.group v)
    (hreached : Reached s v) (hfirst : (s.gateways v).proto.syncGoReceived = false)
    (hgo : Underway s .GO w v) :
    ∃ s', Reachable (step d) s s' ∧ (s'.gateways v).phase = .running := by
  have hwf := wellFormed_of_reaches hs
  obtain ⟨i, f, g, effects, hi, hkind, hsender, hd, hstep⟩ := exists_delivered hwf hgo
  have hdone := released_of_first (hwf.gateways v) hd hkind hsender hgroup hreached hfirst
  obtain ⟨s', hs', hrunning⟩ :=
    exists_running (d := d) (reached_step hwf hstep hreached) (by simpa using hdone)
  exact ⟨s', hs'.head trivial hstep, hrunning⟩

/-! ## The GO that can still be sent -/

/-- The machine has not sent its GO, and each car whose READY it lacks can still send one or
has one in flight. -/
structure Able (d : Deployment V) (s : State V) (w : V) : Prop where
  unsent : (s.gateways w).proto.syncGoSent = false
  hears : ∀ u ∈ d.cars (d.group w), u ≠ w → Silent s u →
    (d.mac u).str ∉ (s.gateways w).proto.syncReadyNodes → Underway s .READY u w

theorem able_of_not_spent (h : ¬ Spent d s w) : Able d s w := by
  rw [Spent, not_or, Bool.not_eq_true] at h
  refine ⟨h.1, fun u hu hne hsilent hnot => ?_⟩
  by_contra hnone
  exact h.2 ⟨u, hu, hne, hsilent, hnot, hnone⟩

theorem Able.own {x : V} (h : Able d s w) (hown : OwnSteps d x s s')
    (hx : Silent s' x → Silent s x ∨ Underway s' .READY x w) : Able d s' w := by
  refine ⟨(hown.goSent_eq w).trans h.unsent, fun u hu hne hsilent hnot => ?_⟩
  have hold : Silent s u → Underway s' .READY u w := fun hs =>
    hown.underway (h.hears u hu hne hs fun hmem => hnot (hown.ready_subset w hmem))
  by_cases hux : u = x
  · subst hux
    exact (hx hsilent).elim hold id
  · refine hold ⟨?_, ?_⟩
    · rw [← hown.others u hux]
      exact hsilent.released
    · rw [← hown.others u hux]
      exact hsilent.unchecked

/-- The cars whose READY a machine lacks. -/
def missing (d : Deployment V) (s : State V) (w : V) : Finset V :=
  (d.cars (d.group w)).filter fun u => u ≠ w ∧ (d.mac u).str ∉ (s.gateways w).proto.syncReadyNodes

/-- A machine that lacks nobody has as many addresses as the group has cars. -/
theorem card_ready_of_missing_eq_empty (hbal : d.Balanced) (hs : Reachable (step d) (initial d) s)
    (hreached : Reached s w) (hnone : missing d s w = ∅) :
    ((s.gateways w).proto.syncReadyNodes.card : ℤ) = d.totalSyncVms := by
  have himage : (s.gateways w).proto.syncReadyNodes = (d.cars (d.group w)).image fun u =>
      (d.mac u).str := by
    ext b
    rw [Finset.mem_image]
    constructor
    · intro hb
      obtain ⟨u, hu, rfl, -⟩ := (barrierInv_of_reaches hbal hs).ready w b hb
      exact ⟨u, hu, rfl⟩
    · rintro ⟨u, hu, rfl⟩
      by_cases huw : u = w
      · subst huw
        exact (readyInv_of_reaches hs).self u ((Deployment.mem_cars d _ u).mp hu).2 hreached
      · by_contra hnot
        have hmem : u ∈ missing d s w := Finset.mem_filter.mpr ⟨hu, huw, hnot⟩
        rw [hnone] at hmem
        cases hmem
  rw [himage, Finset.card_image_of_injective _ fun x y hxy =>
    d.mac_injective (Address.str_injective hxy)]
  exact hbal w

/-- Nobody is missing who has been counted. -/
theorem card_missing_lt (hu : u ∈ missing d s w)
    (hready : (s'.gateways w).proto.syncReadyNodes =
      insert (d.mac u).str (s.gateways w).proto.syncReadyNodes) :
    (missing d s' w).card < (missing d s w).card := by
  have hsubset : missing d s' w ⊆ missing d s w := by
    intro x hx
    obtain ⟨hx, hxw, hnot⟩ := Finset.mem_filter.mp hx
    rw [hready, Finset.mem_insert, not_or] at hnot
    exact Finset.mem_filter.mpr ⟨hx, hxw, hnot.2⟩
  refine Finset.card_lt_card ((Finset.ssubset_iff_of_subset hsubset).mpr ⟨u, hu, fun hmem => ?_⟩)
  refine (Finset.mem_filter.mp hmem).2.2 ?_
  rw [hready]
  exact Finset.mem_insert_self _ _

theorem Able.counted (h : Able d s w) (hothers : ∀ x, x ≠ w → s'.gateways x = s.gateways x)
    (hunsent : (s'.gateways w).proto.syncGoSent = false)
    (hready : (s'.gateways w).proto.syncReadyNodes =
      insert (d.mac u).str (s.gateways w).proto.syncReadyNodes)
    (hflights : ∀ f ∈ s.inFlight, f.sender ≠ .gateway u → f ∈ s'.inFlight) : Able d s' w := by
  refine ⟨hunsent, fun x hx hne hsilent hnot => ?_⟩
  rw [hready, Finset.mem_insert, not_or] at hnot
  have hold : Silent s x := ⟨hothers x hne ▸ hsilent.released, hothers x hne ▸ hsilent.unchecked⟩
  obtain ⟨f, hf, hkind, hsender, hr⟩ := h.hears x hx hne hold hnot.2
  refine ⟨f, hflights f hf ?_, hkind, hsender, hr⟩
  rw [hsender]
  rintro heq
  cases heq
  exact hnot.1 rfl

/-- Whoever is missing can be heard, or has a READY in flight already. -/
theorem Able.exists_underway (hs : Reachable (step d) (initial d) s) (h : Able d s w)
    (hu : u ∈ missing d s w) : ∃ s', OwnSteps d u s s' ∧ Able d s' w ∧ Underway s' .READY u w := by
  obtain ⟨hcars, hne, hnot⟩ := Finset.mem_filter.mp hu
  by_cases hsilent : Silent s u
  · exact ⟨s, .refl d u s, h, h.hears u hcars hne hsilent hnot⟩
  · obtain ⟨s', hown, hready⟩ := exists_ready hs ((Deployment.mem_cars d _ u).mp hcars).2 hsilent
    exact ⟨s', hown, h.own hown fun _ => Or.inr (hready w hne.symm), hready w hne.symm⟩

/-- A machine that can still send its GO does so, when everybody whose READY it lacks is heard
and, last, the waiting car once more. -/
theorem exists_go (hbal : d.Balanced) (hcar : d.isCoordinator v = false) (hne : w ≠ v)
    (hgroup : d.group w = d.group v) (hs : Reachable (step d) (initial d) s)
    (hreached : Reached s w) (hable : Able d s w) (hwaits : (s.gateways v).syncDone = false) :
    ∃ s', Reachable (step d) s s' ∧ Underway s' .GO w v ∧
      (s'.gateways v).proto.syncGoReceived = (s.gateways v).proto.syncGoReceived := by
  have hpos : 0 < d.totalSyncVms := by
    rw [← hbal v]
    exact_mod_cast Finset.card_pos.mpr ⟨v, by simp [hcar]⟩
  induction hcard : (missing d s w).card using Nat.strongRecOn generalizing s with
  | _ n ih =>
    rcases (missing d s w).eq_empty_or_nonempty with hnone | ⟨u, hu⟩
    · have hnot : ¬ Silent s v :=
        fun hsilent => Bool.false_ne_true (hwaits.symm.trans hsilent.released)
      obtain ⟨s₁, hown, hready⟩ := exists_ready hs hcar hnot
      have hw := hown.others w hne
      obtain ⟨s₂, hs₂, hothers, hgo | ⟨-, hinsert, hcard₂, -⟩⟩ :=
        exists_counted (hs.trans hown.reach) hpos
        hgroup.symm (reached_reaches hs hown.reach hreached)
          ((hown.goSent_eq w).trans hable.unsent) (hready w hne)
      · exact ⟨s₂, hown.reach.trans hs₂, hgo v hne.symm,
          by rw [hothers v hne.symm, hown.goReceived]⟩
      · -- the set was complete, and still is
        have hmem : (d.mac v).str ∈ (s.gateways w).proto.syncReadyNodes := by
          by_contra hlacks
          have hv : v ∈ missing d s w :=
            Finset.mem_filter.mpr ⟨by simp [hgroup, hcar], hne.symm, hlacks⟩
          rw [hnone] at hv
          cases hv
        rw [hinsert, hw, Finset.insert_eq_of_mem hmem] at hcard₂
        exact absurd (card_ready_of_missing_eq_empty hbal hs hreached hnone) hcard₂
    · obtain ⟨hcars, huw, hlacks⟩ := Finset.mem_filter.mp hu
      obtain ⟨s₁, hown, hable₁, hready⟩ := hable.exists_underway hs hu
      have hw := hown.others w huw.symm
      have hreached₁ := reached_reaches hs hown.reach hreached
      obtain ⟨s₂, hs₂, hothers, hgo | ⟨hunsent, hinsert, -, hflights⟩⟩ :=
        exists_counted (hs.trans hown.reach) hpos
        ((Deployment.mem_cars d _ u).mp hcars).1 hreached₁ hable₁.unsent hready
      · exact ⟨s₂, hown.reach.trans hs₂, hgo v hne.symm,
          by rw [hothers v hne.symm, hown.goReceived_eq]⟩
      · have hless := card_missing_lt hu (hinsert.trans (by rw [hw]))
        obtain ⟨s', hs', hgo, hsame⟩ := ih _ (hcard ▸ hless) ((hs.trans hown.reach).trans hs₂)
          (reached_reaches (hs.trans hown.reach) hs₂ hreached₁)
          (hable₁.counted hothers hunsent hinsert hflights)
          (by rw [hothers v hne.symm, hown.syncDone_eq, hwaits]) rfl
        exact ⟨s', (hown.reach.trans hs₂).trans hs', hgo,
          by rw [hsame, hothers v hne.symm, hown.goReceived_eq]⟩

end Steps

end CarNetwork.Fleet
