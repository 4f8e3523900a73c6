import CarNetwork.BarrierProgress
import CarNetwork.Progress

/-!
# Cars that are left at the barrier

READY is repeated until its sender is released; GO is sent once. A machine sends it when it
has heard a READY of every car of its group, and a released car sends no more of them. So
there is a point from which no machine of the group sends another GO, and a car that has
heard none by then waits at the barrier for ever. The same happens to a car that hears a GO
of group 0 before it has joined its own group: it takes the GO for its own, has nobody to
call yet, and does not react to another one.
-/
namespace CarNetwork.Fleet

open CarNetwork.ByteText CarNetwork.Ethernet CarNetwork.Protocol CarNetwork.Car
open CarNetwork.Runs

variable {V : Type} [DecidableEq V]

/-- The READY thread of a machine has come to its end. -/
structure Silent (s : State V) (u : V) : Prop where
  released : (s.gateways u).syncDone = true
  unchecked : (s.gateways u).readyChecked = false

/-- The machine sends no more GO: it has sent the one it may send, or it lacks the READY of a
car that sends no more of them. -/
def Spent (d : Deployment V) (s : State V) (w : V) : Prop :=
  (s.gateways w).proto.syncGoSent = true ∨
    ∃ u ∈ d.cars (d.group w), u ≠ w ∧ Silent s u ∧
      (d.mac u).str ∉ (s.gateways w).proto.syncReadyNodes ∧
      ¬ Underway s .READY u w

/-- The car has missed every GO of its group. -/
structure Missed (d : Deployment V) (v : V) (s : State V) : Prop where
  waits : (s.gateways v).syncDone = false
  noGo : ∀ w, d.group w = d.group v → ¬ Underway s .GO w v
  spent : ∀ w, w ≠ v → d.group w = d.group v → Spent d s w

section Steps

variable {d : Deployment V} {s s' : State V} {a : Action V} {u v w : V}

/-! ## Silence -/

/-- The own steps of a gateway and its release: none releases it, a round of the READY thread
begins only before the release and the barrier is left only after it. -/
theorem act_release {cfg : Config} {g g' : Gateway} {act : GatewayAction} {effects : List Effect}
    (h : g.act cfg act = some (g', effects)) :
    g'.syncDone = g.syncDone ∧ (g'.readyChecked = true → g.readyChecked = true ∨
      g.syncDone = false) ∧
      (g'.phase = .running → g.phase = .running ∨ g.syncDone = true) := by
  cases act with
  | joinGroup time =>
    obtain ⟨es, heq, -⟩ := setCurrentGroup_spec g.proto cfg.groupId time
    simp only [Gateway.act, heq, Option.ite_none_right_eq_some, Option.some.injEq,
      Prod.mk.injEq] at h
    obtain ⟨-, rfl, -⟩ := h
    exact ⟨rfl, Or.inl, fun hrunning => by cases hrunning⟩
  | checkReady =>
    simp only [Gateway.act, Option.ite_none_right_eq_some, Option.some.injEq, Prod.mk.injEq] at h
    obtain ⟨⟨-, -, -, hwaits⟩, rfl, -⟩ := h
    exact ⟨rfl, fun _ => Or.inr hwaits, Or.inl⟩
  | sendReady time =>
    simp only [Gateway.act, Option.ite_none_right_eq_some, Option.some.injEq, Prod.mk.injEq] at h
    obtain ⟨-, rfl, -⟩ := h
    exact ⟨rfl, fun hchecked => (by cases hchecked), Or.inl⟩
  | leaveBarrier =>
    simp only [Gateway.act, Option.ite_none_right_eq_some, Option.some.injEq, Prod.mk.injEq] at h
    obtain ⟨⟨-, hdone⟩, rfl, -⟩ := h
    exact ⟨rfl, Or.inl, fun _ => Or.inr hdone⟩
  | tick now =>
    simp only [Gateway.act, Option.ite_none_right_eq_some, Option.some.injEq] at h
    obtain ⟨ptp, timeout, request, last, heq⟩ := Gateway.onTick_fst cfg g now
    rw [h.2] at heq
    dsimp only at heq
    subst heq
    exact ⟨rfl, Or.inl, Or.inl⟩
  | _ =>
    simp only [Gateway.act, Option.ite_none_right_eq_some, Option.some.injEq, Prod.mk.injEq] at h
    obtain ⟨-, rfl, -⟩ := h
    exact ⟨rfl, Or.inl, fun hrunning => by cases hrunning⟩

theorem Silent.step (hwf : WellFormed d s) (h : step d s a = some s') (hu : Silent s u) :
    Silent s' u := by
  refine ⟨syncDone_step hwf h hu.released, ?_⟩
  cases step_cases hwf h with
  | act v act g effects hact =>
    by_cases huv : u = v
    · subst huv
      rw [gateways_perform, gateways_setGateway, Function.update_self, ← Bool.not_eq_true]
      intro hnow
      rcases (act_release hact).2.1 hnow with hbefore | hwaits
      · rw [hu.unchecked] at hbefore
        cases hbefore
      · rw [hu.released] at hwaits
        cases hwaits
    · simpa [huv] using hu.unchecked
  | deliver i now stray f v g effects hi hr hd =>
    by_cases huv : u = v
    · subst huv
      have hchecked : g.readyChecked = (s.gateways u).readyChecked := by cases hd <;> rfl
      simpa [hchecked] using hu.unchecked
    · simpa [huv] using hu.unchecked
  | background _ _ hb => rw [hb.gateways, hu.unchecked]

/-- Whoever is silent sends no READY. -/
theorem Silent.underway (hwf : WellFormed d s) (h : Fleet.step d s a = some s') (hu : Silent s u)
    (hold : ¬ Underway s .READY u w) : ¬ Underway s' .READY u w := by
  rintro ⟨f, hf, hkind, hsender, hreceiver⟩
  have hnew : f ∉ s.inFlight := fun hf => hold ⟨f, hf, hkind, hsender, hreceiver⟩
  cases step_cases hwf h with
  | act v act g effects hact =>
    rcases mem_inFlight_perform.mp hf with hf | ⟨x, hx, hf⟩
    · exact hnew hf
    · obtain ⟨hnode, hready, -⟩ := of_mem_copies hf
      have hisReady := hready hkind
      rw [hsender] at hnode
      cases hnode
      cases Gateway.ownSend_of_act hact hx with
      | group kind src dst payload hgroup => rcases hgroup with rfl | rfl | rfl <;> cases hisReady
      | ready src payload _ hchecked =>
        rw [hu.unchecked] at hchecked
        cases hchecked
      | syncReq => cases hisReady
  | deliver i now stray f' v g effects hi hr hd =>
    rcases mem_inFlight_perform.mp hf with hf | ⟨x, hx, hf⟩
    · exact hnew (List.mem_of_mem_eraseIdx hf)
    · have hready := (of_mem_copies hf).2.1 hkind
      rw [not_ready_of_delivered hd x hx] at hready
      cases hready
  | background _ _ hb => exact hnew (old_of_background hb hf (Or.inl hkind))

/-! ## No more GO -/

/-- Without a READY of this car the set is never as large as the group. -/
theorem incomplete_of_delivered (hbal : d.Balanced) (hinv : BarrierInv d s)
    {f : Flight V} {g : Gateway} {effects : List Effect} (hf : f ∈ s.inFlight)
    (hbar : BarrierEffect d w f (s.gateways w) g effects)
    (hu : u ∈ d.cars (d.group w)) (hnot : (d.mac u).str ∉ (s.gateways w).proto.syncReadyNodes)
    (hflight : f.kind = .control .READY → f.sender ≠ .gateway u) :
    (d.mac u).str ∉ g.proto.syncReadyNodes ∧ ∀ x ∈ effects, isGo x = false := by
  have hready := ready_of_delivered hinv hf hbar
  cases hbar with
  | idle hsame hnone => exact ⟨hsame.ready ▸ hnot, fun x hx => (hnone x hx).1⟩
  | counted w' hkind hsender _ _ _ hinsert _ _ _ hsent =>
    have hlacks : (d.mac u).str ∉ g.proto.syncReadyNodes := by
      rw [hinsert, Finset.mem_insert]
      rintro (heq | hmem)
      · exact hflight hkind (by rw [hsender, d.mac_injective (Address.str_injective heq)])
      · exact hnot hmem
    refine ⟨hlacks, ?_⟩
    rcases hsent with ⟨-, hcard, -⟩ | ⟨-, -, hnone⟩
    · refine absurd (forall_cars_of_card (P := fun w => (d.mac w).str ∈ g.proto.syncReadyNodes)
        hbal ?_ hcard u hu)
        hlacks
      intro b hb
      obtain ⟨w, hw, rfl, -⟩ := hready b hb
      exact ⟨w, hw, rfl, hb⟩
    · exact hnone
  | go w' _ _ _ hsame _ hnone => exact ⟨hsame ▸ hnot, hnone⟩

theorem once_of_barrierEffect {f : Flight V} {g g' : Gateway} {effects : List Effect}
    (h : BarrierEffect d v f g g' effects) (hsent : g.proto.syncGoSent = true) :
    ∀ x ∈ effects, isGo x = false := by
  cases h with
  | idle _ hnone => exact fun x hx => (hnone x hx).1
  | counted _ _ _ _ _ _ _ _ _ _ hcases =>
    rcases hcases with ⟨hfresh, -⟩ | ⟨-, -, hnone⟩
    · rw [hsent] at hfresh
      cases hfresh
    · exact hnone
  | go _ _ _ _ _ _ hnone => exact hnone

/-- The own steps put no other address into the ready set. -/
theorem lacks_act {g : Gateway} {act : GatewayAction} {effects : List Effect} (hwf : WellFormed d s)
    (h : (s.gateways w).act (d.config w) act = some (g, effects)) (hne : u ≠ w)
    (hnot : (d.mac u).str ∉ (s.gateways w).proto.syncReadyNodes) :
    (d.mac u).str ∉ g.proto.syncReadyNodes := by
  rcases act_barrier (hwf.gateways w) h with ⟨hsame, -⟩ | ⟨-, -, hready, -⟩
  · exact hsame.ready ▸ hnot
  · rw [hready]
    split
    · exact Finset.notMem_empty _
    · rw [Finset.mem_singleton]
      exact fun heq => hne (d.mac_injective (Address.str_injective heq))

/-- A delivery at a machine that is spent makes it send no GO. -/
theorem Spent.delivered (hbal : d.Balanced) (hinv : BarrierInv d s) {f : Flight V} {g : Gateway}
    {effects : List Effect} (hw : Spent d s w) (hf : f ∈ s.inFlight) (hr : f.receiver = .gateway w)
    (hbar : BarrierEffect d w f (s.gateways w) g effects) : ∀ x ∈ effects, isGo x = false := by
  rcases hw with hsent | ⟨u, hu, -, -, hnot, hnone⟩
  · exact once_of_barrierEffect hbar hsent
  · exact (incomplete_of_delivered hbal hinv hf hbar hu hnot fun hk hs =>
      hnone ⟨f, hf, hk, hs, hr⟩).2

theorem Spent.step (hbal : d.Balanced) (hwf : WellFormed d s) (hinv : BarrierInv d s)
    (h : Fleet.step d s a = some s') (hw : Spent d s w) : Spent d s' w := by
  rcases hw with hsent | ⟨u, hu, hne, hsilent, hnot, hnone⟩
  · exact Or.inl (goSent_step hwf h hsent)
  · refine Or.inr ⟨u, hu, hne, hsilent.step hwf h, ?_, hsilent.underway hwf h hnone⟩
    cases step_cases hwf h with
    | act v act g effects hact =>
      by_cases hwv : w = v
      · subst hwv
        simpa using lacks_act hwf hact hne hnot
      · simpa [hwv] using hnot
    | deliver i now stray f v g effects hi hr hd =>
      by_cases hwv : w = v
      · subst hwv
        have hf := List.mem_of_getElem? hi
        have hbar := barrierEffect_of_delivered (hwf.gateways w) hd
        simpa using (incomplete_of_delivered hbal hinv hf hbar hu hnot
          fun hk hs => hnone ⟨f, hf, hk, hs, hr⟩).1
      · simpa [hwv] using hnot
    | background _ _ hb => rwa [hb.gateways]

/-! ## The car that waits -/

/-- Whoever is released in a step is released by what it receives. -/
theorem delivered_of_released (hwf : WellFormed d s) (h : Fleet.step d s a = some s')
    (hwaits : (s.gateways v).syncDone = false) (hdone : (s'.gateways v).syncDone = true) :
    ∃ f ∈ s.inFlight, f.receiver = .gateway v ∧
      ∃ env effects, Delivered d v env f (s.gateways v) (s'.gateways v) effects := by
  have hchanged : s'.gateways v ≠ s.gateways v := by
    intro hsame
    rw [hsame, hwaits] at hdone
    cases hdone
  cases step_cases hwf h with
  | act u act g effects hact =>
    by_cases hvu : v = u
    · subst hvu
      have hsame := (act_release hact).1.trans hwaits
      rw [gateways_perform, gateways_setGateway, Function.update_self, hsame] at hdone
      cases hdone
    · exact absurd (by simp [hvu]) hchanged
  | deliver i now stray f u g effects hi hr hd =>
    by_cases hvu : v = u
    · subst hvu
      exact ⟨f, List.mem_of_getElem? hi, hr, _, effects, by simpa using hd⟩
    · exact absurd (by simp [hvu]) hchanged
  | background _ _ hb => exact absurd (congrFun hb.gateways v) hchanged

/-- A car is released at the barrier, by a GO of its own group. -/
theorem released_car (hcar : d.isCoordinator v = false)
    (hid : ∀ w, vmIdFromMac (d.mac w) = vmIdFromMac (d.mac v) → w = v) {f : Flight V} {g : Gateway}
    {effects : List Effect} (hg : GatewayOk d v (s.gateways v)) (hf : f ∈ s.inFlight)
    (hr : f.receiver = .gateway v) (hbar : BarrierEffect d v f (s.gateways v) g effects)
    (hwaits : (s.gateways v).syncDone = false) (hdone : g.syncDone = true) :
    Reached s v ∧ ∃ w, d.group w = d.group v ∧ Underway s .GO w v := by
  cases hbar with
  | idle hsame =>
    rw [hsame.syncDone, hwaits] at hdone
    cases hdone
  | counted _ _ _ _ _ _ _ _ hsame =>
    rw [hsame, hwaits] at hdone
    cases hdone
  | go w hkind hsender hne _ _ _ _ _ hwhy =>
    rcases hwhy hdone with hold | ⟨hin, hb⟩ | hmaster | hsame
    · rw [hwaits] at hold
      cases hold
    · rw [hg.joined_group hb] at hin
      exact ⟨hb, w, UInt8.toNat_inj.mp (by exact_mod_cast hin), f, hf, hkind, hsender, hr⟩
    · rw [hg.isMaster, hcar, Bool.and_false] at hmaster
      cases hmaster
    · exact absurd (hid w hsame) hne

theorem Missed.waits_step (hcar : d.isCoordinator v = false)
    (hid : ∀ w, vmIdFromMac (d.mac w) = vmIdFromMac (d.mac v) → w = v) (hwf : WellFormed d s)
    (h : Fleet.step d s a = some s') (hm : Missed d v s) : (s'.gateways v).syncDone = false := by
  rw [← Bool.not_eq_true]
  intro hdone
  obtain ⟨f, hf, hr, env, effects, hd⟩ := delivered_of_released hwf h hm.waits hdone
  have hbar := barrierEffect_of_delivered (hwf.gateways v) hd
  obtain ⟨-, w, hgroup, hgo⟩ := released_car hcar hid (hwf.gateways v) hf hr hbar hm.waits hdone
  exact hm.noGo w hgroup hgo

/-- No process receives what it sends. -/
theorem receiver_ne_of_mem_copies {node : Node V} {group : ℤ} {x : Effect} {f : Flight V}
    (hf : f ∈ copies d node group x) : f.receiver ≠ node := by
  cases x with
  | transmit kind src dst payload =>
    obtain ⟨r, hr, rfl⟩ := mem_copies hf
    by_cases hown : dst.mac = d.mac node.vm
    · simp only [receivers, if_pos hown] at hr
      obtain ⟨n, hn, rfl⟩ := List.mem_map.mp hr
      exact of_decide_eq_true (List.mem_filter.mp hn).2
    · cases node with
      | component v port =>
        simp only [receivers, if_neg hown] at hr
        cases hr
      | gateway v =>
        obtain ⟨w, hne, hw, -⟩ := mem_receivers_gateway hown hr
        intro heq
        rw [hw] at heq
        cases heq
        exact hne rfl
  | _ => cases hf

/-- Nobody of the group sends the car another GO. -/
theorem Missed.noGo_step (hbal : d.Balanced) (hwf : WellFormed d s) (hinv : BarrierInv d s)
    (h : Fleet.step d s a = some s') (hm : Missed d v s) (hgroup : d.group w = d.group v) :
    ¬ Underway s' .GO w v := by
  rintro ⟨f, hf, hkind, hsender, hreceiver⟩
  have hnew : f ∉ s.inFlight := fun hf => hm.noGo w hgroup ⟨f, hf, hkind, hsender, hreceiver⟩
  cases step_cases hwf h with
  | act u act g effects hact =>
    rcases mem_inFlight_perform.mp hf with hf | ⟨x, hx, hf⟩
    · exact hnew hf
    · have hgo := (of_mem_copies hf).2.2 hkind
      rw [((act_effects (hwf.gateways u) hact).1 x hx).1] at hgo
      cases hgo
  | deliver i now stray f' u g effects hi hr hd =>
    rcases mem_inFlight_perform.mp hf with hf | ⟨x, hx, hf⟩
    · exact hnew (List.mem_of_mem_eraseIdx hf)
    · obtain ⟨hnode, -, hisGo⟩ := of_mem_copies hf
      rw [hsender] at hnode
      cases hnode
      have hbar := barrierEffect_of_delivered (hwf.gateways w) hd
      by_cases hwv : w = v
      · exact receiver_ne_of_mem_copies hf (hreceiver.trans (by rw [hwv]))
      · have hgo := hisGo hkind
        rw [(hm.spent w hwv hgroup).delivered hbal hinv (List.mem_of_getElem? hi) hr hbar x hx]
          at hgo
        cases hgo
  | background _ _ hb => exact hnew (old_of_background hb hf (Or.inr hkind))

theorem Missed.step (hbal : d.Balanced) (hcar : d.isCoordinator v = false)
    (hid : ∀ w, vmIdFromMac (d.mac w) = vmIdFromMac (d.mac v) → w = v) (hwf : WellFormed d s)
    (hinv : BarrierInv d s) (h : Fleet.step d s a = some s') (hm : Missed d v s) : Missed d v s' :=
  ⟨hm.waits_step hcar hid hwf h, fun _ hgroup => hm.noGo_step hbal hwf hinv h hgroup,
    fun w hne hgroup => (hm.spent w hne hgroup).step hbal hwf hinv h⟩

/-- Only a released machine is past the barrier. -/
theorem released_of_running (hs : Reachable (Fleet.step d) (initial d) s) :
    ∀ v, (s.gateways v).phase = .running → (s.gateways v).syncDone = true := by
  refine hs.invariant_of (WellFormed d)
    (fun s => ∀ v, (s.gateways v).phase = .running → (s.gateways v).syncDone = true)
    (fun _ => wellFormed_of_reaches) (by simp [initial]) ?_
  intro s a s' hwf hinv _ h v hv
  refine syncDone_step hwf h ?_
  cases step_cases hwf h with
  | act u act g effects hact =>
    by_cases hvu : v = u
    · subst hvu
      exact ((act_release hact).2.2 (by simpa using hv)).elim (hinv v) id
    · exact hinv v (by simpa [hvu] using hv)
  | deliver i now stray f u g effects hi hr hd =>
    by_cases hvu : v = u
    · subst hvu
      have hphase : g.phase = (s.gateways v).phase := by cases hd <;> rfl
      exact hinv v (by simpa [hphase] using hv)
    · exact hinv v (by simpa [hvu] using hv)
  | background _ _ hb => exact hinv v (hb.gateways ▸ hv)

theorem reached_of_released (hcar : d.isCoordinator v = false)
    (hid : ∀ w, vmIdFromMac (d.mac w) = vmIdFromMac (d.mac v) → w = v)
    (hs : Reachable (Fleet.step d) (initial d) s) :
    (s.gateways v).syncDone = true → Reached s v := by
  refine hs.invariant_of (WellFormed d) (fun s => (s.gateways v).syncDone = true → Reached s v)
    (fun _ => wellFormed_of_reaches) (by simp [initial]) ?_
  intro s a s' hwf hinv _ h hdone
  refine reached_step hwf h ?_
  cases hold : (s.gateways v).syncDone with
  | true => exact hinv hold
  | false =>
    obtain ⟨f, hf, hr, env, effects, hd⟩ := delivered_of_released hwf h hold hdone
    have hbar := barrierEffect_of_delivered (hwf.gateways v) hd
    exact (released_car hcar hid (hwf.gateways v) hf hr hbar hold hdone).1

theorem Missed.reaches (hbal : d.Balanced) (hcar : d.isCoordinator v = false)
    (hid : ∀ w, vmIdFromMac (d.mac w) = vmIdFromMac (d.mac v) → w = v)
    (hs : Reachable (Fleet.step d) (initial d) s) (hlater : Reachable (Fleet.step d) s s')
    (hm : Missed d v s) :
    Missed d v s' := by
  refine hlater.invariant_of (fun t => WellFormed d t ∧ BarrierInv d t) (Missed d v)
    (fun t ht => ?_) hm
    fun _ _ _ hwi hm _ h => hm.step hbal hcar hid hwi.1 hwi.2 h
  exact ⟨wellFormed_of_reaches (hs.trans ht), barrierInv_of_reaches hbal (hs.trans ht)⟩

/-! ## The car that has heard a GO too early -/

/-- The car takes every GO for a repetition, and has not been released. -/
structure Deaf (s : State V) (v : V) : Prop where
  heard : (s.gateways v).proto.syncGoReceived = true
  waits : (s.gateways v).syncDone = false

/-- The callback is called for the first GO only. -/
theorem released_again {env : Env} {f : Flight V} {g g' : Gateway} {effects : List Effect}
    (hg : GatewayOk d v g) (hd : Delivered d v env f g g' effects)
    (hheard : g.proto.syncGoReceived = true) (hdone : g'.syncDone = true) :
    g.syncDone = true ∨ g.proto.isMaster = true ∨
      ∃ w, w ≠ v ∧ vmIdFromMac (d.mac w) = vmIdFromMac (d.mac v) := by
  cases hd with
  | ignored => exact Or.inl hdone
  | packet => exact Or.inl hdone
  | sync e q src time w hh hkind hpayload he hsender hne hmac hgroup hbarrier =>
    by_cases hgo : e = .go
    · subst hgo
      have hhandled : syncHandled env g .go q src time f.capsule = { inst := g.proto } := by
        simp only [syncHandled, handleSync]
        split
        · simp [onGo, hheard]
        · rfl
      simp only [syncResult, syncEffects, hhandled, if_true, List.nil_append,
        Bool.or_eq_true] at hdone
      refine hdone.imp id fun hforward => ?_
      exact ((released_by_observers g.proto q time hg hh (hbarrier (Or.inr rfl)).2 rfl
        rfl f.capsule).1
        hforward).imp id fun hsame => ⟨w, hne, hsame⟩
    · exact Or.inl ((no_release_of_ne_go env g q src time f.capsule hgo).2 ▸ hdone)

theorem goReceived_step (hwf : WellFormed d s) (h : Fleet.step d s a = some s')
    (hheard : (s.gateways v).proto.syncGoReceived = true) :
    (s'.gateways v).proto.syncGoReceived = true := by
  cases step_cases hwf h with
  | act u act g effects hact =>
    by_cases hvu : v = u
    · subst hvu
      rcases act_barrier (hwf.gateways v) hact with ⟨hsame, -⟩ | ⟨-, -, -, -, hsame, -⟩
      · simpa using hsame.goReceived.trans hheard
      · simpa using hsame.trans hheard
    · simpa [hvu] using hheard
  | deliver i now stray f u g effects hi hr hd =>
    by_cases hvu : v = u
    · subst hvu
      cases barrierEffect_of_delivered (hwf.gateways v) hd with
      | idle hsame => simpa using hsame.goReceived.trans hheard
      | counted _ _ _ _ _ _ _ hsame => simpa using hsame.trans hheard
      | go _ _ _ _ _ _ _ hreceived => simp [hreceived, hheard]
    · simpa [hvu] using hheard
  | background _ _ hb => rwa [hb.gateways]

theorem Deaf.step (hcar : d.isCoordinator v = false)
    (hid : ∀ w, vmIdFromMac (d.mac w) = vmIdFromMac (d.mac v) → w = v) (hwf : WellFormed d s)
    (h : Fleet.step d s a = some s') (hdeaf : Deaf s v) : Deaf s' v := by
  refine ⟨goReceived_step hwf h hdeaf.heard, ?_⟩
  rw [← Bool.not_eq_true]
  intro hdone
  obtain ⟨f, -, -, env, effects, hd⟩ := delivered_of_released hwf h hdeaf.waits hdone
  rcases released_again (hwf.gateways v) hd hdeaf.heard hdone with hold | hmaster | ⟨w, hne, hsame⟩
  · exact Bool.false_ne_true (hdeaf.waits.symm.trans hold)
  · rw [(hwf.gateways v).isMaster, hcar, Bool.and_false] at hmaster
    cases hmaster
  · exact hne (hid w hsame)

theorem Deaf.reaches (hcar : d.isCoordinator v = false)
    (hid : ∀ w, vmIdFromMac (d.mac w) = vmIdFromMac (d.mac v) → w = v)
    (hs : Reachable (Fleet.step d) (initial d) s) (hlater : Reachable (Fleet.step d) s s')
    (hdeaf : Deaf s v) :
    Deaf s' v :=
  hlater.invariant_of (WellFormed d) (Deaf · v) (fun _ ht =>
    wellFormed_of_reaches (hs.trans ht)) hdeaf
    fun _ _ _ hwf hdeaf _ h => hdeaf.step hcar hid hwf h

/-- While a machine listens it belongs to group 0, and a GO of that group is internal. -/
theorem deaf_of_early_go (hwf : WellFormed d s) (hwaits : (s.gateways v).syncDone = false)
    (hlistening : (s.gateways v).phase = .listening) (hcar : d.isCoordinator v = false)
    (hid : ∀ w, vmIdFromMac (d.mac w) = vmIdFromMac (d.mac v) → w = v) (hzero : d.group w = 0)
    {f : Flight V} {i : ℕ} (hi : s.inFlight[i]? = some f) (hkind : f.kind = .control .GO)
    (hsender : f.sender = .gateway w) (hr : f.receiver = .gateway v) {now : ℕ → UInt64}
    {stray : ℤ → ℤ} (hs' : Fleet.step d s (.deliver i now stray) = some s') : Deaf s' v := by
  obtain ⟨effects, hbar⟩ := barrierEffect_at hwf hi hr hs'
  have hg := hwf.gateways v
  cases hbar with
  | idle _ _ _ hno => exact absurd hkind (hno (by rw [hlistening]; rfl))
  | counted _ hready => rw [hkind] at hready; cases hready
  | go w' _ hsender' hne _ _ _ hreceived _ hdone =>
    rw [hsender] at hsender'
    cases hsender'
    constructor
    · rw [hreceived, hg.group, hlistening, hzero]
      simp [Phase.hasJoined]
    · rw [← Bool.not_eq_true]
      intro hnow
      rcases hdone hnow with hold | ⟨-, hb⟩ | hmaster | hsame
      · exact Bool.false_ne_true (hwaits.symm.trans hold)
      · rw [hlistening] at hb
        cases hb
      · rw [hg.isMaster, hcar, Bool.and_false] at hmaster
        cases hmaster
      · exact hne (hid w hsame)

/-- A GO of group 0 that is in flight to a car which has opened its channels and not joined
its group: every delivery of it is possible, and after each of them the car never starts,
in any state of any run. -/
theorem early_go_deafens (hcar : d.isCoordinator v = false)
    (hid : ∀ w, vmIdFromMac (d.mac w) = vmIdFromMac (d.mac v) → w = v)
    (hs : Reachable (Fleet.step d) (initial d) s)
    (hlistening : (s.gateways v).phase = .listening) (hzero : d.group w = 0) {f : Flight V} {i : ℕ}
    (hi : s.inFlight[i]? = some f) (hkind : f.kind = .control .GO)
    (hsender : f.sender = .gateway w) (hr : f.receiver = .gateway v) (now : ℕ → UInt64)
    (stray : ℤ → ℤ) :
    ∃ s₁, Fleet.step d s (.deliver i now stray) = some s₁ ∧
      ∀ s', Reachable (Fleet.step d) s₁ s' → (s'.gateways v).phase ≠ .running := by
  have hwaits : (s.gateways v).syncDone = false := by
    rw [← Bool.not_eq_true]
    intro hdone
    have hreached := reached_of_released hcar hid hs hdone
    rw [Reached, hlistening] at hreached
    cases hreached
  obtain ⟨s₁, hstep⟩ : ∃ s₁, Fleet.step d s (.deliver i now stray) = some s₁ := by
    simp only [Fleet.step, hi]
    exact ⟨_, rfl⟩
  have hdeaf := deaf_of_early_go (wellFormed_of_reaches hs) hwaits hlistening hcar hid hzero hi
    hkind hsender hr hstep
  have hs₁ : Reachable (Fleet.step d) (initial d) s₁ := hs.tail trivial hstep
  refine ⟨s₁, hstep, fun s' hlater hrunning => ?_⟩
  have hdone := released_of_running (hs₁.trans hlater) v hrunning
  exact Bool.false_ne_true ((hdeaf.reaches hcar hid hs₁ hlater).waits.symm.trans hdone)

end Steps

/-- A car of group 1 opens its channels while group 0 passes its barrier, and misses its own
start. -/
theorem car_of_group_one_deafened :
    ∃ s₁, Reachable (step twoGroups) (initial twoGroups) s₁ ∧
      ∀ s', Reachable (step twoGroups) s₁ s' → (s'.gateways 3).phase ≠ .running := by
  have hrun : ((run (step twoGroups) (initial twoGroups)
      ([.gateway 3 .listen] ++ readyPair 0 1 ++ [deliverNow 3])).map fun s =>
        ((s.gateways 3).phase, s.inFlight.any fun f =>
          f.kind = .control .GO ∧ f.sender = .gateway 0 ∧ f.receiver = .gateway 3)) =
      some (.listening, true) := by
    decide +kernel
  obtain ⟨s, hs, hobs⟩ := exists_reachable_of_run _ hrun
  simp only [Prod.mk.injEq, List.any_eq_true, decide_eq_true_eq] at hobs
  obtain ⟨hlistening, f, hf, hkind, hsender, hr⟩ := hobs
  obtain ⟨i, hi⟩ := List.getElem?_of_mem hf
  have hid : ∀ w, vmIdFromMac (twoGroups.mac w) = vmIdFromMac (twoGroups.mac 3) → w = 3 := by
    decide +kernel
  obtain ⟨s₁, hstep, hnever⟩ := early_go_deafens (by decide +kernel) hid hs hlistening
    (by decide +kernel) hi hkind hsender hr (fun _ => 0) (fun _ => 0)
  exact ⟨s₁, hs.tail trivial hstep, hnever⟩

end CarNetwork.Fleet
