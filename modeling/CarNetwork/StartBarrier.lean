import CarNetwork.BarrierStep

/-!
# Safety of the start barrier

A ready set holds addresses of cars of the own group that are at the barrier, so it
has the size of the group only when all of them are; this gives every GO its
meaning. A car is released by a GO of its own group. A coordinator is released by
any GO, since its observers do not look at the group, and this is the one way a
node can pass the barrier early.
-/
namespace CarNetwork.Fleet

open CarNetwork.ByteText CarNetwork.Ethernet CarNetwork.Protocol CarNetwork.Car
open CarNetwork.Runs

variable {V : Type} [DecidableEq V]

/-- The node has executed `enable_start_sync`. -/
def Reached (s : State V) (v : V) : Prop := (s.gateways v).phase.atBarrier = true

instance (s : State V) (v : V) : Decidable (Reached s v) :=
  inferInstanceAs (Decidable (_ = true))

/-- Every car of a group has. -/
def AllReached (d : Deployment V) (s : State V) (g : UInt8) : Prop := ∀ w ∈ d.cars g, Reached s w

section Steps

variable {d : Deployment V} {s s' : State V} {a : Action V}

/-- Nobody leaves the barrier backwards. -/
theorem reached_step (hwf : WellFormed d s) (h : step d s a = some s') {w : V} (hw : Reached s w) :
    Reached s' w := by
  cases step_cases hwf h with
  | act v act g effects hact =>
    by_cases hwv : w = v
    · subst hwv
      simpa [Reached] using atBarrier_act hact hw
    · simpa [Reached, hwv] using hw
  | deliver i now stray f v g effects hi hr hd =>
    by_cases hwv : w = v
    · subst hwv
      have hphase : g.phase = (s.gateways w).phase := by cases hd <;> rfl
      simpa [Reached, hphase] using hw
    · simpa [Reached, hwv] using hw
  | background _ _ hb => simpa [Reached, hb.gateways] using hw

theorem allReached_step (hwf : WellFormed d s) (h : step d s a = some s') {g : UInt8}
    (hg : AllReached d s g) : AllReached d s' g :=
  fun w hw => reached_step hwf h (hg w hw)

/-- A set of addresses of cars with a property that is as large as the group shows that
the whole group has it. -/
theorem forall_cars_of_card (hbal : d.Balanced) {v : V} {P : V → Prop} {ready : Finset Bytes}
    (hready : ∀ b ∈ ready, ∃ w ∈ d.cars (d.group v), b = (d.mac w).str ∧ P w)
    (hcard : (ready.card : ℤ) = d.totalSyncVms) : ∀ w ∈ d.cars (d.group v), P w := by
  classical
  let here := (d.cars (d.group v)).filter P
  have hsub : ready ⊆ here.image fun w => (d.mac w).str := by
    intro b hb
    obtain ⟨w, hw, rfl, hr⟩ := hready b hb
    exact Finset.mem_image_of_mem _ (Finset.mem_filter.mpr ⟨hw, hr⟩)
  have hle : ready.card ≤ here.card := (Finset.card_le_card hsub).trans Finset.card_image_le
  have hall : here = d.cars (d.group v) := by
    refine Finset.eq_of_subset_of_card_le (Finset.filter_subset _ _) ?_
    have := hbal v
    omega
  intro w hw
  rw [← hall] at hw
  exact (Finset.mem_filter.mp hw).2

theorem of_mem_copies {node : Node V} {group : ℤ} {x : Effect} {f : Flight V}
    (hf : f ∈ copies d node group x) : f.sender = node ∧
      (f.kind = .control .READY → isReady x = true) ∧ (f.kind = .control .GO → isGo x = true) := by
  cases x with
  | transmit kind src dst payload =>
    obtain ⟨r, -, rfl⟩ := mem_copies hf
    refine ⟨rfl, ?_, ?_⟩
    · rintro rfl
      rfl
    · rintro rfl
      rfl
  | _ => cases hf

/-- READY and GO are sent by gateways. -/
theorem sender_of_barrier {f : Flight V} (hf : Content d f)
    (hkind : f.kind = .control .READY ∨ f.kind = .control .GO) : ∃ w, f.sender = .gateway w := by
  cases hf with
  | data m hk => rcases hkind with h | h <;> rw [hk] at h <;> cases h
  | groupInfo q gid hk => rcases hkind with h | h <;> rw [hk] at h <;> cases h
  | dropped e q src time hk _ hbad =>
    rcases hkind with h | h <;> rw [hk] at h <;> cases e <;>
      simp_all [Emission.type, Emission.Authentic]
  | sync e q src time w v hk _ _ hsender => exact ⟨w, hsender⟩

/-- A background step puts no barrier message in flight. -/
theorem old_of_background (hb : Background d a s s') {f : Flight V} (hf : f ∈ s'.inFlight)
    (hkind : f.kind = .control .READY ∨ f.kind = .control .GO) : f ∈ s.inFlight := by
  obtain ⟨v, port, group, cause, es, -, hsub, -, -, hes, -⟩ := hb.effects
  rcases hsub f hf with hf | ⟨x, hx, hf⟩
  · exact hf
  · obtain ⟨w, hw⟩ := sender_of_barrier (hes x hx f hf) hkind
    rw [(of_mem_copies hf).1] at hw
    cases hw

end Steps

/-! ## The invariant -/

structure BarrierInv (d : Deployment V) (s : State V) : Prop where
  ready : ∀ v, ∀ b ∈ (s.gateways v).proto.syncReadyNodes,
    ∃ w ∈ d.cars (d.group v), b = (d.mac w).str ∧ Reached s w
  readyFlight : ∀ f ∈ s.inFlight, f.kind = .control .READY →
    ∀ w, f.sender = .gateway w → d.isCoordinator w = false ∧ Reached s w
  goSent : ∀ v, (s.gateways v).proto.syncGoSent = true → AllReached d s (d.group v)
  goFlight : ∀ f ∈ s.inFlight, f.kind = .control .GO →
    ∀ w, f.sender = .gateway w → AllReached d s (d.group w)

theorem barrierInv_initial (d : Deployment V) : BarrierInv d (initial d) :=
  ⟨by simp [initial], by simp [initial], by simp [initial], by simp [initial]⟩

section Invariant

variable {d : Deployment V} {s s' : State V} {a : Action V}

/-- Nobody leaves the barrier backwards, so what a step keeps stays right; only what is
new has to be looked at. -/
theorem BarrierInv.transport (hinv : BarrierInv d s) (hmono : ∀ w, Reached s w → Reached s' w)
    (hready : ∀ w, ∀ b ∈ (s'.gateways w).proto.syncReadyNodes,
      b ∈ (s.gateways w).proto.syncReadyNodes ∨
      ∃ u ∈ d.cars (d.group w), b = (d.mac u).str ∧ Reached s' u)
    (hreadyFlight : ∀ f ∈ s'.inFlight, f.kind = .control .READY → f ∈ s.inFlight ∨
      ∀ w, f.sender = .gateway w → d.isCoordinator w = false ∧ Reached s' w)
    (hgoSent : ∀ w, (s'.gateways w).proto.syncGoSent = true →
      (s.gateways w).proto.syncGoSent = true ∨
      AllReached d s' (d.group w))
    (hgoFlight : ∀ f ∈ s'.inFlight, f.kind = .control .GO → f ∈ s.inFlight ∨
      ∀ w, f.sender = .gateway w → AllReached d s' (d.group w)) : BarrierInv d s' := by
  have hall : ∀ g, AllReached d s g → AllReached d s' g := fun g h w hw => hmono w (h w hw)
  refine ⟨fun w b hb => ?_, fun f hf hk w hw => ?_, fun w hw => ?_, fun f hf hk w hw => ?_⟩
  · rcases hready w b hb with hb | hnew
    · obtain ⟨u, hu, hbu, hr⟩ := hinv.ready w b hb
      exact ⟨u, hu, hbu, hmono u hr⟩
    · exact hnew
  · rcases hreadyFlight f hf hk with hf | hnew
    · exact (hinv.readyFlight f hf hk w hw).imp id (hmono w)
    · exact hnew w hw
  · rcases hgoSent w hw with hw | hnew
    · exact hall _ (hinv.goSent w hw)
    · exact hnew
  · rcases hgoFlight f hf hk with hf | hnew
    · exact hall _ (hinv.goFlight f hf hk w hw)
    · exact hnew w hw

theorem barrierInv_act {v : V} {act : GatewayAction} {g : Gateway} {effects : List Effect}
    (hwf : WellFormed d s) (hinv : BarrierInv d s)
    (hact : (s.gateways v).act (d.config v) act = some (g, effects))
    (hstep : step d s (.gateway v act) = some s')
    (hs' : s' = perform d (setGateway s v g) (.gateway v) g.proto.currentGroupId none effects) :
    BarrierInv d s' := by
  have hmono : ∀ w, Reached s w → Reached s' w := fun _ => reached_step hwf hstep
  have heff := act_effects (hwf.gateways v) hact
  have hgw : s'.gateways = Function.update s.gateways v g := by rw [hs']; rfl
  have hold : ∀ f ∈ s'.inFlight, f ∈ s.inFlight ∨
      (f.sender = .gateway v ∧ (f.kind = .control .READY →
        d.isCoordinator v = false ∧ Reached s v) ∧
        f.kind ≠ .control .GO) := by
    intro f hf
    rw [hs'] at hf
    rcases mem_inFlight_perform.mp hf with hf | ⟨x, hx, hf⟩
    · exact Or.inl hf
    · obtain ⟨hsender, hready, hgo⟩ := of_mem_copies hf
      refine Or.inr ⟨hsender, fun hk => ?_, fun hk => ?_⟩
      · obtain ⟨hb, hc, -⟩ := heff.2 x hx (hready hk)
        exact ⟨hc, hb⟩
      · have := hgo hk
        rw [(heff.1 x hx).1] at this
        cases this
  refine hinv.transport hmono (fun w b hb => ?_) (fun f hf hk => ?_) (fun w hw => ?_)
    fun f hf hk => ?_
  · by_cases hwv : w = v
    · subst hwv
      rw [hgw, Function.update_self] at hb
      rcases act_barrier (hwf.gateways w) hact with ⟨hsame, -⟩ | ⟨-, hb', hready, -⟩
      · exact Or.inl (hsame.ready ▸ hb)
      · rw [hready] at hb
        split at hb
        · cases hb
        · rename_i hc
          refine Or.inr ⟨w, by simpa using hc, Finset.mem_singleton.mp hb, ?_⟩
          simpa [Reached, hgw] using hb'
    · exact Or.inl (by rwa [hgw, Function.update_of_ne hwv] at hb)
  · refine (hold f hf).imp id ?_
    rintro ⟨hsender, hready, -⟩ w hw
    rw [hsender] at hw
    cases hw
    exact (hready hk).imp id (hmono v)
  · left
    by_cases hwv : w = v
    · subst hwv
      rw [hgw, Function.update_self] at hw
      rcases act_barrier (hwf.gateways w) hact with ⟨hsame, -⟩ | ⟨-, -, -, hsent, -⟩
      · rwa [← hsame.goSent]
      · rwa [← hsent]
    · rwa [hgw, Function.update_of_ne hwv] at hw
  · exact (hold f hf).imp id fun h => absurd hk h.2.2

/-- Nothing that is delivered makes a gateway send READY. -/
theorem not_ready_of_delivered {v : V} {env : Env} {f : Flight V} {g g' : Gateway}
    {effects : List Effect} (hd : Delivered d v env f g g' effects) :
    ∀ x ∈ effects, isReady x = false := by
  intro x hx
  cases hd with
  | ignored => cases hx
  | packet m _ hh hkind heffects =>
    rcases heffects x hx with ⟨po, rfl, -⟩ | ⟨rx, -, hx⟩
    · rfl
    · obtain ⟨src, dst, m, rfl, -⟩ := Gateway.mem_onReceive hx
      rfl
  | sync e q src time w =>
    rcases mem_syncEffects hx with hx | ⟨po, rfl⟩
    · rcases handleSync_effects hx with ⟨e', q', dst, time', -, hnr, -, -, -, -, hx⟩ | hx
      · rw [mem_send hx]
        cases e' with
        | ready => exact absurd rfl hnr
        | _ => rfl
      · cases x <;> first | rfl | cases hx
    · rfl

/-- The ready set after a delivery, against the state before it. -/
theorem ready_of_delivered {v : V} {f : Flight V} {g : Gateway} {effects : List Effect}
    (hinv : BarrierInv d s) (hf : f ∈ s.inFlight)
    (hbar : BarrierEffect d v f (s.gateways v) g effects) :
    ∀ b ∈ g.proto.syncReadyNodes, ∃ w ∈ d.cars (d.group v), b = (d.mac w).str ∧ Reached s w := by
  intro b hb
  cases hbar with
  | idle hsame => exact hinv.ready v b (hsame.ready ▸ hb)
  | counted w hkind hsender hgroup _ _ hready =>
    rw [hready] at hb
    rcases Finset.mem_insert.mp hb with rfl | hb
    · obtain ⟨hc, hr⟩ := hinv.readyFlight f hf hkind w hsender
      exact ⟨w, by simp [hgroup, hc], rfl, hr⟩
    · exact hinv.ready v b hb
  | go w _ _ _ hready => exact hinv.ready v b (hready ▸ hb)

/-- GO is sent, and remembered as sent, only when the whole group is at the barrier. -/
theorem goSent_of_delivered (hbal : d.Balanced) {v : V} {f : Flight V} {g : Gateway}
    {effects : List Effect} (hinv : BarrierInv d s) (hf : f ∈ s.inFlight)
    (hbar : BarrierEffect d v f (s.gateways v) g effects) :
    (g.proto.syncGoSent = true → AllReached d s (d.group v)) ∧
    ∀ x ∈ effects, isGo x = true → AllReached d s (d.group v) := by
  have hready := ready_of_delivered hinv hf hbar
  cases hbar with
  | idle hsame hnone =>
    refine ⟨fun h => hinv.goSent v (hsame.goSent ▸ h), fun x hx hgo => ?_⟩
    rw [(hnone x hx).1] at hgo
    cases hgo
  | counted w hkind hsender hgroup _ _ _ _ _ _ hsent =>
    rcases hsent with ⟨-, hcard, -, -⟩ | ⟨-, hsame, hnone⟩
    · have hall := forall_cars_of_card hbal hready hcard
      exact ⟨fun _ => hall, fun _ _ _ => hall⟩
    · refine ⟨fun h => hinv.goSent v (hsame ▸ h), fun x hx hgo => ?_⟩
      rw [hnone x hx] at hgo
      cases hgo
  | go w _ _ _ _ hsent hnone =>
    refine ⟨fun h => hinv.goSent v (hsent ▸ h), fun x hx hgo => ?_⟩
    rw [hnone x hx] at hgo
    cases hgo

theorem barrierInv_step (hbal : d.Balanced) (hwf : WellFormed d s) (hinv : BarrierInv d s)
    (h : step d s a = some s') : BarrierInv d s' := by
  have hmono : ∀ w, Reached s w → Reached s' w := fun _ => reached_step hwf h
  have hall : ∀ g, AllReached d s g → AllReached d s' g := fun _ => allReached_step hwf h
  cases step_cases hwf h with
  | act v act g effects hact => exact barrierInv_act hwf hinv hact h rfl
  | deliver i now stray f v g effects hi hr hd =>
    have hf := List.mem_of_getElem? hi
    have hbar := barrierEffect_of_delivered (hwf.gateways v) hd
    obtain ⟨hsent, hgo⟩ := goSent_of_delivered hbal hinv hf hbar
    refine hinv.transport hmono (fun w b hb => ?_) (fun f' hf' hk => ?_) (fun w hw => ?_)
      fun f' hf' hk => ?_
    · by_cases hwv : w = v
      · subst hwv
        obtain ⟨u, hu, hbu, hru⟩ := ready_of_delivered hinv hf hbar b (by simpa using hb)
        exact Or.inr ⟨u, hu, hbu, hmono u hru⟩
      · exact Or.inl (by simpa [hwv] using hb)
    · rcases mem_inFlight_perform.mp hf' with hf' | ⟨x, hx, hf'⟩
      · exact Or.inl (List.mem_of_mem_eraseIdx hf')
      · have := (of_mem_copies hf').2.1 hk
        rw [not_ready_of_delivered hd x hx] at this
        cases this
    · by_cases hwv : w = v
      · subst hwv
        exact Or.inr (hall _ (hsent (by simpa using hw)))
      · exact Or.inl (by simpa [hwv] using hw)
    · rcases mem_inFlight_perform.mp hf' with hf' | ⟨x, hx, hf'⟩
      · exact Or.inl (List.mem_of_mem_eraseIdx hf')
      · obtain ⟨hsender, -, hisGo⟩ := of_mem_copies hf'
        refine Or.inr fun w hw => ?_
        rw [hsender] at hw
        cases hw
        exact hall _ (hgo x hx (hisGo hk))
  | background _ _ hb =>
    exact hinv.transport hmono (fun w b hbm => Or.inl (hb.gateways ▸ hbm))
      (fun f hf hk => Or.inl (old_of_background hb hf (Or.inl hk))) (fun w hw =>
        Or.inl (hb.gateways ▸ hw))
      fun f hf hk => Or.inl (old_of_background hb hf (Or.inr hk))

theorem barrierInv_of_reaches (hbal : d.Balanced) {ok : State V → Action V → Prop}
    (h : Reaches (step d) ok (initial d) s) : BarrierInv d s :=
  h.invariant_of (WellFormed d) (BarrierInv d) (fun _ => wellFormed_of_reaches)
    (barrierInv_initial d)
    fun _ _ _ hwf hinv _ hu => barrierInv_step hbal hwf hinv hu

end Invariant

/-! ## Release -/

/-- The action delivers a GO of another group to a coordinator after its `set_master`, or
to a machine with the sender's vehicle id. -/
def foreignGo (d : Deployment V) (s : State V) : Action V → Bool
  | .deliver i _ _ =>
    match s.inFlight[i]? with
    | none => false
    | some f =>
      match f.sender, f.receiver with
      | .gateway w, .gateway v =>
        f.kind = .control .GO && d.group w ≠ d.group v &&
          ((s.gateways v).proto.isMaster || vmIdFromMac (d.mac w) = vmIdFromMac (d.mac v))
      | _, _ => false
  | _ => false

/-- Whoever is released has its whole group at the barrier. -/
def ReleasedInTime (d : Deployment V) (s : State V) : Prop :=
  ∀ v, (s.gateways v).syncDone = true → AllReached d s (d.group v)

section Release

variable {d : Deployment V} {s s' : State V} {a : Action V}

theorem releasedInTime_step (hwf : WellFormed d s) (hinv : BarrierInv d s)
    (hrel : ReleasedInTime d s) (hok : foreignGo d s a = false) (h : step d s a = some s') :
    ReleasedInTime d s' := by
  have hall := fun {g} => allReached_step hwf h (g := g)
  intro v hv
  refine hall ?_
  cases step_cases hwf h with
  | act u act g effects hact =>
    by_cases hvu : v = u
    · subst hvu
      refine hrel v ?_
      have hv' : g.syncDone = true := by simpa using hv
      rcases act_barrier (hwf.gateways v) hact with ⟨hsame, -⟩ | ⟨-, -, -, -, -, hdone⟩
      · rwa [← hsame.syncDone]
      · rwa [← hdone]
    · exact hrel v (by simpa [hvu] using hv)
  | deliver i now stray f u g effects hi hr hd =>
    by_cases hvu : v = u
    · subst hvu
      have hv' : g.syncDone = true := by simpa using hv
      have hf := List.mem_of_getElem? hi
      have hgw := hwf.gateways v
      cases barrierEffect_of_delivered hgw hd with
      | idle hsame => exact hrel v (hsame.syncDone ▸ hv')
      | counted w _ _ _ _ _ _ _ hdone => exact hrel v (hdone ▸ hv')
      | go w hkind hsender hne hready hsent hgo hreceived hcallback hdone hkeeps =>
        have hw := hinv.goFlight f hf hkind w hsender
        rcases hdone hv' with hold | ⟨hin, hb⟩ | hforward
        · exact hrel v hold
        · -- the protocol's own callback: only for a GO of the group
          rw [hgw.joined_group hb] at hin
          have heq : d.group w = d.group v := UInt8.toNat_inj.mp (by exact_mod_cast hin)
          exact heq ▸ hw
        · -- the observers: the condition excludes other groups
          by_cases heq : d.group w = d.group v
          · exact heq ▸ hw
          · simp only [foreignGo, hi, hsender, hr, hkind] at hok
            rcases hforward with hm | hid <;> simp_all
    · exact hrel v (by simpa [hvu] using hv)
  | background _ _ hb => exact hrel v (hb.gateways ▸ hv)

/-- Barrier safety: in every run in which no coordinator past `set_master`, and no machine
with the sender's vehicle id, is given a GO of another group, whatever else is lost,
duplicated or reordered, a gateway is released only after every car of its own
group has reached the barrier. -/
theorem released_only_with_group (hbal : d.Balanced)
    (h : Reaches (step d) (fun s a => foreignGo d s a = false) (initial d) s) :
    ∀ v, (s.gateways v).syncDone = true → AllReached d s (d.group v) :=
  h.invariant_of (fun s => WellFormed d s ∧ BarrierInv d s) (ReleasedInTime d)
    (fun _ hr => ⟨wellFormed_of_reaches hr, barrierInv_of_reaches hbal hr⟩)
    (by simp [ReleasedInTime, initial])
    fun _ _ _ hwi hrel hok hu => releasedInTime_step hwi.1 hwi.2 hrel hok hu

end Release

instance {n : ℕ} (d : Deployment (Fin n)) : Decidable d.Balanced :=
  inferInstanceAs (Decidable (∀ v, ((d.cars (d.group v)).card : ℤ) = d.totalSyncVms))

/-- A delivery at a time when all clocks are at zero. -/
def deliverNow {n : ℕ} (i : ℕ) : Action (Fin n) := .deliver i (fun _ => 0) (fun _ => 0)

/-- A coordinator and a car come to the barrier and the car sends its READY. -/
def readyPair {n : ℕ} (coordinator car : Fin n) : List (Action (Fin n)) :=
  List.flatten [reachBarrier coordinator, reachBarrier car,
    [.gateway car .checkReady, .gateway car (.sendReady 0)]]

/-- Group 1 passes its barrier while nobody of group 0 has started. -/
theorem secondGroup_released :
    ∃ s, twoGroups.Balanced ∧
      Reaches (step twoGroups) (fun s a => foreignGo twoGroups s a = false) (initial twoGroups) s ∧
      (s.gateways 3).syncDone = true ∧ AllReached twoGroups s (twoGroups.group 3) := by
  have hbal : twoGroups.Balanced := by decide +kernel
  have hrun : ((runIf (fun s a => !foreignGo twoGroups s a) (step twoGroups) (initial twoGroups)
      (readyPair 2 3 ++ [deliverNow 5, deliverNow 7])).map fun s => (s.gateways 3).syncDone) =
        some true := by
    decide +kernel
  obtain ⟨s, hs, hdone⟩ := exists_reaches_of_runIf
    (fun s a => foreignGo twoGroups s a = false) _ (by simp) hrun
  exact ⟨s, hbal, hs, hdone, released_only_with_group hbal hs 3 hdone⟩

/-- The coordinator of group 0 is released by the GO of group 1, before its own car has
even started. -/
theorem coordinator_released_early :
    ∃ s, twoGroups.Balanced ∧ twoGroups.Coordinated ∧
      Reachable (step twoGroups) (initial twoGroups) s ∧
      (s.gateways 0).syncDone = true ∧ ¬ AllReached twoGroups s (twoGroups.group 0) := by
  have hbal : twoGroups.Balanced := by decide +kernel
  have hcoord : twoGroups.Coordinated := by
    intro v
    have h : ∀ v : Fin 4, ∃ c, (twoGroups.isCoordinator c = true ∧
        twoGroups.group c = twoGroups.group v) ∧
        ∀ y, twoGroups.isCoordinator y = true ∧ twoGroups.group y = twoGroups.group v → y = c := by
      decide +kernel
    exact h v
  have hrun : ((run (step twoGroups) (initial twoGroups)
      (reachBarrier 0 ++ readyPair 2 3 ++ [deliverNow 8, deliverNow 8])).map
      fun s => ((s.gateways 0).syncDone, (s.gateways 1).phase)) = some (true, .off) := by
    decide +kernel
  obtain ⟨s, hs, hobs⟩ := exists_reachable_of_run _ hrun
  simp only [Prod.mk.injEq] at hobs
  refine ⟨s, hbal, hcoord, hs, hobs.1, fun hall => ?_⟩
  have hcar := hall 1 (by decide +kernel)
  rw [Reached, hobs.2] at hcar
  cases hcar

/-! ## Each GO and each callback once -/

/-- How many effects of a sort a process has had. -/
def occurrences (sort : Effect → Bool) (n : Node V) (log : List (Event V)) : ℕ :=
  log.countP fun e => decide (e.node = n) && sort e.effect

theorem occurrences_append (sort : Effect → Bool) (n node : Node V) (group : ℤ)
    (cause : Option (Flight V)) (log : List (Event V)) (effects : List Effect) :
    occurrences sort n (log ++ effects.map (⟨node, group, cause, ·⟩)) =
      occurrences sort n log + if node = n then effects.countP sort else 0 := by
  rw [occurrences, List.countP_append, List.countP_map, occurrences]
  congr 1
  split
  · rename_i h
    simp [Function.comp_def, h]
  · rename_i h
    simp [Function.comp_def, h]

/-- The log agrees with the flags: a GO was broadcast at most once and only by a node
that remembers it, and the same for the callback. -/
structure LogInv (d : Deployment V) (s : State V) : Prop where
  goEvent : ∀ e ∈ s.log, isGo e.effect = true → AllReached d s (d.group e.node.vm)
  goCount : ∀ v, occurrences isGo (.gateway v) s.log ≤
    if (s.gateways v).proto.syncGoSent then 1 else 0
  callbackCount : ∀ v, occurrences isCallback (.gateway v) s.log ≤
    if (s.gateways v).proto.syncGoReceived then 1 else 0
  component : ∀ v port, occurrences isGo (.component v port) s.log = 0 ∧
    occurrences isCallback (.component v port) s.log = 0

section Log

variable {d : Deployment V} {s s' : State V} {a : Action V}

/-- Effects of one gateway are counted for it, within what its new state allows, and for no
other gateway. -/
theorem occurrences_le_update (allowed : Gateway → ℕ) {sort : Effect → Bool}
    {gateways : V → Gateway} {v : V} {g : Gateway} {log : List (Event V)} {group : ℤ}
    {cause : Option (Flight V)} {effects : List Effect}
    (hold : ∀ w, occurrences sort (.gateway w) log ≤ allowed (gateways w))
    (hnew : allowed (gateways v) + effects.countP sort ≤ allowed g) (w : V) :
    occurrences sort (.gateway w) (log ++ effects.map (⟨.gateway v, group, cause, ·⟩)) ≤
      allowed (Function.update gateways v g w) := by
  have hw := hold w
  rw [occurrences_append]
  by_cases hwv : w = v
  · subst hwv
    rw [if_pos rfl, Function.update_self]
    omega
  · rw [if_neg (by simpa using Ne.symm hwv), Function.update_of_ne hwv]
    omega

/-- The log invariant after effects of one gateway. -/
theorem logInv_perform {v : V} {g : Gateway} {cause : Option (Flight V)} {effects : List Effect}
    {flights : List (Flight V)} (hlog : LogInv d s) (hwf : WellFormed d s)
    (hs' : s' = perform d (setGateway { s with inFlight := flights } v g) (.gateway v)
      g.proto.currentGroupId cause effects)
    (h : step d s a = some s')
    (hevent : ∀ x ∈ effects, isGo x = true → AllReached d s (d.group v))
    (hgo : (if (s.gateways v).proto.syncGoSent then 1 else 0) + effects.countP isGo ≤
      if g.proto.syncGoSent then 1 else 0)
    (hcallback : (if (s.gateways v).proto.syncGoReceived then 1 else 0) +
      effects.countP isCallback ≤
      if g.proto.syncGoReceived then 1 else 0) : LogInv d s' := by
  have hall := fun {g} => allReached_step hwf h (g := g)
  have hgw : s'.gateways = Function.update s.gateways v g := by rw [hs']; rfl
  have hlog' : s'.log = s.log ++ effects.map (⟨.gateway v, g.proto.currentGroupId, cause, ·⟩) := by
    rw [hs']; rfl
  refine ⟨fun e he hx => ?_, fun w => ?_, fun w => ?_, fun w port => ?_⟩
  · rw [hlog'] at he
    rcases List.mem_append.mp he with he | he
    · exact hall (hlog.goEvent e he hx)
    · obtain ⟨x, hxm, rfl⟩ := List.mem_map.mp he
      exact hall (hevent x hxm hx)
  · rw [hlog', hgw]
    exact occurrences_le_update (fun g => if g.proto.syncGoSent then 1 else 0) hlog.goCount hgo w
  · rw [hlog', hgw]
    exact occurrences_le_update (fun g => if g.proto.syncGoReceived then 1
      else 0) hlog.callbackCount hcallback w
  · rw [hlog', occurrences_append, occurrences_append, if_neg (by simp), if_neg (by simp)]
    exact hlog.component w port

theorem countP_of_forall {p : Effect → Bool} {effects : List Effect}
    (h : ∀ x ∈ effects, p x = false) :
    effects.countP p = 0 := by
  rw [List.countP_eq_zero]
  exact fun x hx => by simp [h x hx]

theorem logInv_step (hbal : d.Balanced) (hwf : WellFormed d s) (hinv : BarrierInv d s)
    (hlog : LogInv d s) (h : step d s a = some s') : LogInv d s' := by
  cases step_cases hwf h with
  | act v act g effects hact =>
    have heff := (act_effects (hwf.gateways v) hact).1
    have hgo0 := countP_of_forall fun x hx => (heff x hx).1
    have hcb0 := countP_of_forall fun x hx => (heff x hx).2
    have hflags : g.proto.syncGoSent = (s.gateways v).proto.syncGoSent ∧
        g.proto.syncGoReceived = (s.gateways v).proto.syncGoReceived := by
      rcases act_barrier (hwf.gateways v) hact with ⟨hsame, -⟩ | ⟨-, -, -, hsent, hrec, -⟩
      exacts [⟨hsame.goSent, hsame.goReceived⟩, ⟨hsent, hrec⟩]
    refine logInv_perform hlog hwf rfl h (fun x hx hgo => ?_) (by rw [hflags.1, hgo0, add_zero])
      (by rw [hflags.2, hcb0, add_zero])
    rw [(heff x hx).1] at hgo
    cases hgo
  | deliver i now stray f v g effects hi hr hd =>
    have hf := List.mem_of_getElem? hi
    have hbar := barrierEffect_of_delivered (hwf.gateways v) hd
    have hevent := (goSent_of_delivered hbal hinv hf hbar).2
    refine logInv_perform hlog hwf rfl h hevent ?_ ?_
    · cases hbar with
      | idle hsame hnone => rw [hsame.goSent, countP_of_forall fun x hx => (hnone x hx).1, add_zero]
      | counted w _ _ _ _ _ _ _ _ _ hsent =>
        rcases hsent with ⟨hfresh, -, hset, src, payload, rest, rfl, hrest⟩ | ⟨-, hsame, hnone⟩
        · rw [List.countP_cons_of_pos (by rfl), countP_of_forall hrest, hfresh, hset]
          simp
        · rw [hsame, countP_of_forall hnone, add_zero]
      | go w _ _ _ _ hsent hnone => rw [hsent, countP_of_forall hnone, add_zero]
    · cases hbar with
      | idle hsame hnone =>
        rw [hsame.goReceived, countP_of_forall fun x hx => (hnone x hx).2, add_zero]
      | counted w _ _ _ _ _ _ hrec _ hcb => rw [hrec, countP_of_forall hcb, add_zero]
      | go w _ _ _ _ _ _ hrec hcb =>
        rw [hrec]
        by_cases hin : ((d.group w).toNat : ℤ) = (s.gateways v).proto.currentGroupId <;>
          cases hgr : (s.gateways v).proto.syncGoReceived <;> simp_all
  | background _ _ hb =>
    obtain ⟨v, port, group, cause, es, hl, -, -, -, -, hes⟩ := hb.effects
    have hall := fun {g} => allReached_step hwf h (g := g)
    have hnone : ∀ x ∈ es, isGo x = false ∧ isCallback x = false := by
      intro x hx
      cases hes x hx with
      | send kind src dst payload hkind => rcases hkind with rfl | rfl | rfl <;> exact ⟨rfl, rfl⟩
      | packet => exact ⟨rfl, rfl⟩
    have hgo0 := countP_of_forall fun x hx => (hnone x hx).1
    have hcb0 := countP_of_forall fun x hx => (hnone x hx).2
    refine ⟨fun e he hx => ?_, fun w => ?_, fun w => ?_, fun w p => ?_⟩
    · rw [hl] at he
      rcases List.mem_append.mp he with he | he
      · exact hall (hlog.goEvent e he hx)
      · obtain ⟨x, hxm, rfl⟩ := List.mem_map.mp he
        rw [(hnone x hxm).1] at hx
        cases hx
    · rw [hl, occurrences_append, if_neg (by simp), hb.gateways]
      exact hlog.goCount w
    · rw [hl, occurrences_append, if_neg (by simp), hb.gateways]
      exact hlog.callbackCount w
    · rw [hl, occurrences_append, occurrences_append, hgo0, hcb0]
      simpa using hlog.component w p

/-- GO soundness: in every run of fleets whose groups have the number of cars that their
barriers wait for, whatever is lost, duplicated or reordered, GO is broadcast only
when every car of the sender's group has reached the barrier, no process broadcasts
it twice, and none is called back twice. -/
theorem go_sound_and_once (hbal : d.Balanced) (h : Reachable (step d) (initial d) s) :
    (∀ e ∈ s.log, isGo e.effect = true → AllReached d s (d.group e.node.vm)) ∧
    (∀ n, occurrences isGo n s.log ≤ 1) ∧ ∀ n, occurrences isCallback n s.log ≤ 1 := by
  have hlog : LogInv d s :=
    h.invariant_of (fun s => WellFormed d s ∧ BarrierInv d s) (LogInv d)
      (fun _ hr => ⟨wellFormed_of_reaches hr, barrierInv_of_reaches hbal hr⟩)
      ⟨by simp [initial], by simp [initial, occurrences], by simp [initial, occurrences],
        by simp [initial, occurrences]⟩
      fun _ _ _ hwi hlog _ hu => logInv_step hbal hwi.1 hwi.2 hlog hu
  refine ⟨hlog.goEvent, fun n => ?_, fun n => ?_⟩
  · cases n with
    | gateway v => exact (hlog.goCount v).trans (by split <;> simp)
    | component v port => simp [(hlog.component v port).1]
  · cases n with
    | gateway v => exact (hlog.callbackCount v).trans (by split <;> simp)
    | component v port => simp [(hlog.component v port).2]

end Log

/-- A run in which the coordinator of group 1 broadcasts GO and the car is called back. -/
theorem secondGroup_go_once :
    ∃ s, twoGroups.Balanced ∧ Reachable (step twoGroups) (initial twoGroups) s ∧
      occurrences isGo (.gateway 2) s.log = 1 ∧ occurrences isCallback (.gateway 3) s.log = 1 ∧
      (∀ e ∈ s.log, isGo e.effect = true → AllReached twoGroups s (twoGroups.group e.node.vm)) ∧
      (∀ n, occurrences isGo n s.log ≤ 1) ∧ ∀ n, occurrences isCallback n s.log ≤ 1 := by
  have hbal : twoGroups.Balanced := by decide +kernel
  have hrun : ((run (step twoGroups) (initial twoGroups)
      (readyPair 2 3 ++ [.duplicate 5, deliverNow 5, deliverNow 5, .duplicate 7, deliverNow 7,
        deliverNow 7])).map
      fun s => (occurrences isGo (.gateway 2) s.log, occurrences isCallback (.gateway 3) s.log)) =
        some (1, 1) := by decide +kernel
  obtain ⟨s, hs, hobs⟩ := exists_reachable_of_run _ hrun
  simp only [Prod.mk.injEq] at hobs
  exact ⟨s, hbal, hs, hobs.1, hobs.2, go_sound_and_once hbal hs⟩

end CarNetwork.Fleet
