import CarNetwork.StartBarrier

/-!
# The start barrier does not wedge

One group on a network that loses nothing. The first car at the barrier hears a
READY of every other car, so once all cars are released it has broadcast a GO of
its own, and that GO releases the coordinator, if it finds the coordinator past
`set_master`. With a single car nobody but the coordinator ever sends GO, and a
node does not hear itself.
-/
namespace CarNetwork.Fleet

open CarNetwork.ByteText CarNetwork.Ethernet CarNetwork.Protocol CarNetwork.Car
open CarNetwork.Runs

variable {V : Type} [DecidableEq V]

/-- The network neither loses nor duplicates. -/
def lossless : Action V → Bool
  | .lose _ => false
  | .duplicate _ => false
  | _ => true

/-- The action delivers a GO to a coordinator that has not executed `set_master` yet. -/
def earlyGo (d : Deployment V) (s : State V) : Action V → Bool
  | .deliver i _ _ =>
    match s.inFlight[i]? with
    | none => false
    | some f =>
      match f.receiver with
      | .gateway v => f.kind = .control .GO && d.isCoordinator v && !(s.gateways v).proto.isMaster
      | .component _ _ => false
  | _ => false

/-- The node has broadcast READY. -/
def SentReady (s : State V) (w : V) : Prop :=
  ∃ e ∈ s.log, e.node = .gateway w ∧ isReady e.effect = true

/-- A copy of a control message from one gateway to another is in flight. -/
def Underway (s : State V) (t : ControlType) (w v : V) : Prop :=
  ∃ f ∈ s.inFlight, f.kind = .control t ∧ f.sender = .gateway w ∧ f.receiver = .gateway v

section Steps

variable {d : Deployment V} {s s' : State V} {a : Action V}

/-- What a step does to the barrier's data of one gateway. -/
inductive GatewayCase (d : Deployment V) (s s' : State V) (a : Action V) (v : V) : Prop
  | same (hsame : SameBarrier (s.gateways v) (s'.gateways v)) (hback : Reached s' v → Reached s v)
  | enabled (hbefore : ¬ Reached s v)
      (hready : (s'.gateways v).proto.syncReadyNodes =
        if d.isCoordinator v then ∅ else {(d.mac v).str})
      (hsent : (s'.gateways v).proto.syncGoSent = (s.gateways v).proto.syncGoSent)
      (hdone : (s'.gateways v).syncDone = (s.gateways v).syncDone)
  | delivered (f : Flight V) (effects : List Effect) (group : ℤ) (hf : f ∈ s.inFlight)
      (hbar : BarrierEffect d v f (s.gateways v) (s'.gateways v) effects)
      (hback : Reached s' v → Reached s v)
      (hcopies : ∀ x ∈ effects, ∀ f ∈ copies d (.gateway v) group x, f ∈ s'.inFlight)

theorem gateway_cases (hwf : WellFormed d s) (h : step d s a = some s') (v : V) :
    GatewayCase d s s' a v := by
  cases step_cases hwf h with
  | act u act g effects hact =>
    by_cases hvu : v = u
    · subst hvu
      rcases act_barrier (hwf.gateways v) hact with ⟨hsame, hback⟩ |
        ⟨hb, hb', hready, hsent, -, hdone⟩
      · exact .same (by simpa using hsame) (by simpa [Reached] using hback)
      · exact .enabled (by simp [Reached, hb]) (by simpa using hready) (by simpa using hsent)
          (by simpa using hdone)
    · exact .same (by simpa [hvu] using SameBarrier.refl _) (by simp [Reached, hvu])
  | deliver i now stray f u g effects hi hr hd =>
    by_cases hvu : v = u
    · subst hvu
      have hbar := barrierEffect_of_delivered (hwf.gateways v) hd
      have hphase : g.phase = (s.gateways v).phase := by cases hd <;> rfl
      refine .delivered f effects g.proto.currentGroupId (List.mem_of_getElem? hi)
        (by simpa using hbar) (by simp [Reached, hphase]) fun x hx f' hf' => ?_
      exact mem_inFlight_perform.mpr (Or.inr ⟨x, hx, hf'⟩)
    · exact .same (by simpa [hvu] using SameBarrier.refl _) (by simp [Reached, hvu])
  | background _ _ hb =>
    exact .same (by simpa [hb.gateways] using SameBarrier.refl _) (by simp [Reached, hb.gateways])

/-- The receiver of a delivered copy, with its effect on the barrier. -/
theorem barrierEffect_at {i : ℕ} {now : ℕ → UInt64} {stray : ℤ → ℤ} {f : Flight V} {v : V}
    (hwf : WellFormed d s) (hi : s.inFlight[i]? = some f) (hr : f.receiver = .gateway v)
    (h : step d s (.deliver i now stray) = some s') :
    ∃ effects, BarrierEffect d v f (s.gateways v) (s'.gateways v) effects := by
  have hd := delivered_of_content now stray (s.gateways v)
    (hwf.flights f (List.mem_of_getElem? hi)) hr
  simp only [step, hi, arrive, hr] at h
  cases h
  exact ⟨_, by simpa using barrierEffect_of_delivered (hwf.gateways v) hd⟩

/-- On a network that loses nothing a copy stays in flight until it is delivered. -/
theorem flight_persists (hwf : WellFormed d s) (hok : lossless a = true) (h : step d s a = some s')
    {f : Flight V} {v : V} (hf : f ∈ s.inFlight) (hr : f.receiver = .gateway v) :
    f ∈ s'.inFlight ∨ ∃ i now stray, a = .deliver i now stray ∧ s.inFlight[i]? = some f := by
  cases step_cases hwf h with
  | act u act g effects hact => exact Or.inl (mem_inFlight_perform.mpr (Or.inl hf))
  | deliver i now stray f' u g effects hi hr' hd =>
    by_cases hff : f = f'
    · subst hff
      exact Or.inr ⟨i, now, stray, rfl, hi⟩
    · exact Or.inl (mem_inFlight_perform.mpr (Or.inl (mem_eraseIdx_of_ne hi hf hff)))
  | background _ _ hb =>
    rcases hb.keeps f hf v hr with hf | ⟨i, rfl⟩
    · exact Or.inl hf
    · cases hok

/-- A broadcast is put in flight for every other gateway. -/
theorem mem_copies_broadcast {v w : V} (hne : w ≠ v) (kind : SendKind) (src : Endpoint) (group : ℤ)
    (port : UInt16) (payload : Bytes) :
    ∃ f ∈ copies d (.gateway v) group (.transmit kind src ⟨Address.BROADCAST, port⟩ payload),
      f.kind = kind ∧ f.sender = .gateway v ∧ f.receiver = .gateway w := by
  have hr : (Node.gateway w, ChannelOrigin.ethernet) ∈
      receivers d (.gateway v) Address.BROADCAST := by
    rw [receivers, if_neg (show ¬ Address.BROADCAST = d.mac (Node.gateway v).vm from
      (d.individual v).symm)]
    exact List.mem_map.mpr ⟨w, by simp [d.complete w, hne], rfl⟩
  exact ⟨_, List.mem_map.mpr ⟨_, hr, rfl⟩, rfl, rfl, rfl⟩

theorem sentReady_step (hwf : WellFormed d s) (h : step d s a = some s') {w : V}
    (hw : SentReady s w) :
    SentReady s' w := by
  obtain ⟨e, he, hnode, hready⟩ := hw
  refine ⟨e, ?_, hnode, hready⟩
  cases step_cases hwf h with
  | act => exact List.mem_append_left _ he
  | deliver => exact List.mem_append_left _ he
  | background _ _ hb =>
    obtain ⟨v, port, group, cause, es, hl, -⟩ := hb.effects
    rw [hl]
    exact List.mem_append_left _ he

/-- A first READY is broadcast to all by a node at the barrier. -/
theorem sentReady_new (hwf : WellFormed d s) (h : step d s a = some s') {w : V}
    (hw : SentReady s' w) :
    SentReady s w ∨ (Reached s w ∧ ∀ v, v ≠ w → Underway s' .READY w v) := by
  obtain ⟨e, he, hnode, hready⟩ := hw
  cases step_cases hwf h with
  | act u act g effects hact =>
    rcases List.mem_append.mp he with he | he
    · exact Or.inl ⟨e, he, hnode, hready⟩
    · obtain ⟨x, hx, rfl⟩ := List.mem_map.mp he
      cases hnode
      obtain ⟨hb, -, src, payload, rfl⟩ := (act_effects (hwf.gateways w) hact).2 x hx hready
      refine Or.inr ⟨hb, fun v hv => ?_⟩
      obtain ⟨f, hf, hkind⟩ := mem_copies_broadcast (d := d) hv (.control .READY) src
        g.proto.currentGroupId GATEWAY_PORT payload
      exact ⟨f, mem_inFlight_perform.mpr (Or.inr ⟨_, hx, hf⟩), hkind⟩
  | deliver i now stray f u g effects hi hr hd =>
    rcases List.mem_append.mp he with he | he
    · exact Or.inl ⟨e, he, hnode, hready⟩
    · obtain ⟨x, hx, rfl⟩ := List.mem_map.mp he
      rw [not_ready_of_delivered hd x hx] at hready
      cases hready
  | background _ _ hb =>
    obtain ⟨v, port, group, cause, es, hl, -⟩ := hb.effects
    rw [hl] at he
    rcases List.mem_append.mp he with he | he
    · exact Or.inl ⟨e, he, hnode, hready⟩
    · obtain ⟨x, hx, rfl⟩ := List.mem_map.mp he
      cases hnode

theorem ready_subset {v : V} {f : Flight V} {g g' : Gateway} {effects : List Effect}
    (h : BarrierEffect d v f g g' effects) : g.proto.syncReadyNodes ⊆ g'.proto.syncReadyNodes := by
  cases h with
  | idle hsame => rw [hsame.ready]
  | counted w _ _ _ _ _ hready => rw [hready]; exact Finset.subset_insert _ _
  | go w _ _ _ hready => rw [hready]

/-- Who broadcasts GO remembers it. -/
theorem goSent_of_mem {v : V} {f : Flight V} {g g' : Gateway} {effects : List Effect}
    (h : BarrierEffect d v f g g' effects) {x : Effect} (hx : x ∈ effects) (hgo : isGo x = true) :
    g'.proto.syncGoSent = true := by
  cases h with
  | idle _ hnone => rw [(hnone x hx).1] at hgo; cases hgo
  | counted w _ _ _ _ _ _ _ _ _ hsent =>
    rcases hsent with ⟨-, -, hset, -⟩ | ⟨-, -, hnone⟩
    · exact hset
    · rw [hnone x hx] at hgo; cases hgo
  | go w _ _ _ _ _ hnone => rw [hnone x hx] at hgo; cases hgo

/-- A node at the barrier forgets nobody. -/
theorem ready_step (hwf : WellFormed d s) (h : step d s a = some s') {v : V} (hv : Reached s v) :
    (s.gateways v).proto.syncReadyNodes ⊆ (s'.gateways v).proto.syncReadyNodes := by
  cases gateway_cases hwf h v with
  | same hsame => rw [hsame.ready]
  | enabled hbefore => exact (hbefore hv).elim
  | delivered f effects group hf hbar => exact ready_subset hbar

/-- The flag is set, if it was not, by a delivery that broadcasts GO. -/
theorem goSent_cases (hwf : WellFormed d s) (h : step d s a = some s') (v : V) :
    (s'.gateways v).proto.syncGoSent = (s.gateways v).proto.syncGoSent ∨
    ((s'.gateways v).proto.syncGoSent = true ∧
      ((s'.gateways v).proto.syncReadyNodes.card : ℤ) = d.totalSyncVms ∧
      ∀ w, w ≠ v → Underway s' .GO v w) := by
  cases gateway_cases hwf h v with
  | same hsame => exact Or.inl hsame.goSent
  | enabled _ _ hsent => exact Or.inl hsent
  | delivered f effects group hf hbar hback hcopies =>
    cases hbar with
    | idle hsame => exact Or.inl hsame.goSent
    | go w _ _ _ _ hsent => exact Or.inl hsent
    | counted w _ _ _ _ _ _ _ _ _ hsent =>
      rcases hsent with ⟨-, hcard, hset, src, payload, rest, rfl, -⟩ | ⟨-, hkeep, -⟩
      · refine Or.inr ⟨hset, hcard, fun u hu => ?_⟩
        obtain ⟨f', hf', hkind⟩ := mem_copies_broadcast (d := d) hu (.control .GO) src group
          GATEWAY_PORT payload
        exact ⟨f', hcopies _ List.mem_cons_self f' hf', hkind⟩
      · exact Or.inl hkeep

theorem goSent_step (hwf : WellFormed d s) (h : step d s a = some s') {v : V}
    (hv : (s.gateways v).proto.syncGoSent = true) : (s'.gateways v).proto.syncGoSent = true := by
  rcases goSent_cases hwf h v with hsame | ⟨hset, -⟩
  · rw [hsame, hv]
  · exact hset

theorem syncDone_step (hwf : WellFormed d s) (h : step d s a = some s') {v : V}
    (hv : (s.gateways v).syncDone = true) : (s'.gateways v).syncDone = true := by
  cases gateway_cases hwf h v with
  | same hsame => rw [hsame.syncDone, hv]
  | enabled _ _ _ hdone => rw [hdone, hv]
  | delivered f effects group hf hbar =>
    cases hbar with
    | idle hsame => rw [hsame.syncDone, hv]
    | counted w _ _ _ _ _ _ _ hdone => rw [hdone, hv]
    | go w _ _ _ _ _ _ _ _ _ hkeeps => exact hkeeps (Or.inl hv)

/-- Barrier messages that were not in flight before: a READY of a node that has now sent
one, or a GO of a node that now remembers it. -/
theorem new_flight (hwf : WellFormed d s) (h : step d s a = some s') {f : Flight V}
    (hf : f ∈ s'.inFlight) {w : V} (hw : f.sender = .gateway w) :
    f ∈ s.inFlight ∨ ((f.kind = .control .READY → SentReady s' w) ∧
      (f.kind = .control .GO → (s'.gateways w).proto.syncGoSent = true)) := by
  by_cases hkind : f.kind = .control .READY ∨ f.kind = .control .GO
  swap
  · rw [not_or] at hkind
    exact Or.inr ⟨fun hk => (hkind.1 hk).elim, fun hk => (hkind.2 hk).elim⟩
  cases step_cases hwf h with
  | act u act g effects hact =>
    rcases mem_inFlight_perform.mp hf with hf | ⟨x, hx, hf⟩
    · exact Or.inl hf
    · obtain ⟨hsender, hready, hgo⟩ := of_mem_copies hf
      cases hw.symm.trans hsender
      refine Or.inr
        ⟨fun hk => ⟨_, List.mem_append_right _ (List.mem_map_of_mem hx), rfl, hready hk⟩,
          fun hk => ?_⟩
      have := hgo hk
      rw [((act_effects (hwf.gateways w) hact).1 x hx).1] at this
      cases this
  | deliver i now stray f' u g effects hi hr hd =>
    rcases mem_inFlight_perform.mp hf with hf | ⟨x, hx, hf⟩
    · exact Or.inl (List.mem_of_mem_eraseIdx hf)
    · obtain ⟨hsender, hready, hgo⟩ := of_mem_copies hf
      cases hw.symm.trans hsender
      refine Or.inr ⟨fun hk => ?_, fun hk => ?_⟩
      · have := hready hk
        rw [not_ready_of_delivered hd x hx] at this
        cases this
      · simpa using goSent_of_mem (barrierEffect_of_delivered (hwf.gateways w) hd) hx (hgo hk)
  | background _ _ hb => exact Or.inl (old_of_background hb hf hkind)

end Steps

/-! ## One group -/

/-- The machines are one coordinator and the cars of its group. -/
structure OneGroup (d : Deployment V) (c : V) : Prop where
  group : ∀ v, d.group v = d.group c
  coordinator : ∀ v, d.isCoordinator v = true ↔ v = c
  balanced : d.Balanced

namespace OneGroup

variable {d : Deployment V} {c : V}

theorem mem_cars (hd : OneGroup d c) {v w : V} : w ∈ d.cars (d.group v) ↔ w ≠ c := by
  rw [Deployment.mem_cars, hd.group w, hd.group v, ne_eq, ← hd.coordinator w]
  simp

theorem isCoordinator_eq_false (hd : OneGroup d c) {v : V} (hv : v ≠ c) :
    d.isCoordinator v = false := by
  simpa [← hd.coordinator v] using hv

end OneGroup

/-- What keeps the coordinator from being left alone at the barrier. -/
structure ProgressInv (d : Deployment V) (c : V) (s : State V) : Prop where
  sentReached : ∀ w, SentReady s w → Reached s w
  readyFlight : ∀ f ∈ s.inFlight, f.kind = .control .READY →
    ∀ w, f.sender = .gateway w → SentReady s w
  goFlight : ∀ f ∈ s.inFlight, f.kind = .control .GO →
    ∀ w, f.sender = .gateway w → (s.gateways w).proto.syncGoSent = true
  ready : ∀ v, ∀ b ∈ (s.gateways v).proto.syncReadyNodes,
    ∃ w ∈ d.cars (d.group v), b = (d.mac w).str ∧ (w = v ∨ SentReady s w)
  self : ∀ u, u ≠ c → Reached s u → (d.mac u).str ∈ (s.gateways u).proto.syncReadyNodes
  full : ∀ u, u ≠ c → Reached s u →
    ((s.gateways u).proto.syncReadyNodes.card : ℤ) = d.totalSyncVms →
    (s.gateways u).proto.syncGoSent = true
  goSent : ∀ v, (s.gateways v).proto.syncGoSent = true → ∀ w, w ≠ c → w ≠ v → SentReady s w
  goHeard : ∀ u, u ≠ c → (s.gateways u).proto.syncGoSent = true →
    (s.gateways c).syncDone = true ∨ Underway s .GO u c
  released : ∀ v, (s.gateways v).syncDone = true → ∃ w, (s.gateways w).proto.syncGoSent = true
  first : ∀ u, u ≠ c → Reached s u → ∃ x, x ≠ c ∧ Reached s x ∧ ∀ w, w ≠ c → w ≠ x →
    SentReady s w → (d.mac w).str ∈ (s.gateways x).proto.syncReadyNodes ∨ Underway s .READY w x

section Invariant

variable {d : Deployment V} {c : V} {s s' : State V} {a : Action V}

theorem progressInv_initial (d : Deployment V) (c : V) : ProgressInv d c (initial d) := by
  constructor <;> simp [initial, SentReady, Reached, Phase.atBarrier]

theorem goSent_next (hd : OneGroup d c) (hwf : WellFormed d s) (hinv : ProgressInv d c s)
    (h : step d s a = some s')
    (hready : ∀ v, ∀ b ∈ (s'.gateways v).proto.syncReadyNodes,
      ∃ w ∈ d.cars (d.group v), b = (d.mac w).str ∧ (w = v ∨ SentReady s' w)) (v : V)
    (hv : (s'.gateways v).proto.syncGoSent = true) : ∀ w, w ≠ c → w ≠ v → SentReady s' w := by
  intro w hw hwv
  rcases goSent_cases hwf h v with hsame | ⟨-, hcard, -⟩
  · exact sentReady_step hwf h (hinv.goSent v (hsame ▸ hv) w hw hwv)
  · exact (forall_cars_of_card hd.balanced (hready v) hcard w (hd.mem_cars.mpr hw)).resolve_left hwv

theorem ready_next (hd : OneGroup d c) (hwf : WellFormed d s) (hinv : ProgressInv d c s)
    (hbar : BarrierInv d s) (h : step d s a = some s') (v : V) :
    ∀ b ∈ (s'.gateways v).proto.syncReadyNodes,
      ∃ w ∈ d.cars (d.group v), b = (d.mac w).str ∧ (w = v ∨ SentReady s' w) := by
  have hmono : ∀ b ∈ (s.gateways v).proto.syncReadyNodes,
      ∃ w ∈ d.cars (d.group v), b = (d.mac w).str ∧ (w = v ∨ SentReady s' w) := by
    intro b hb
    obtain ⟨w, hw, hbw, hsent⟩ := hinv.ready v b hb
    exact ⟨w, hw, hbw, hsent.imp_right (sentReady_step hwf h)⟩
  intro b hb
  cases gateway_cases hwf h v with
  | same hsame => exact hmono b (hsame.ready ▸ hb)
  | enabled hbefore hready =>
    rw [hready] at hb
    split at hb
    · cases hb
    · rename_i hcar
      refine ⟨v, hd.mem_cars.mpr ?_, Finset.mem_singleton.mp hb, Or.inl rfl⟩
      rwa [hd.coordinator v] at hcar
  | delivered f effects group hf hbe =>
    cases hbe with
    | idle hsame => exact hmono b (hsame.ready ▸ hb)
    | go w _ _ _ hready => exact hmono b (hready ▸ hb)
    | counted w hkind hsender _ _ _ hready =>
      rw [hready] at hb
      rcases Finset.mem_insert.mp hb with rfl | hb
      · refine ⟨w, hd.mem_cars.mpr fun hwc => ?_, rfl,
          Or.inr (sentReady_step hwf h (hinv.readyFlight f hf hkind w hsender))⟩
        have := (hbar.readyFlight f hf hkind w hsender).1
        rw [(hd.coordinator w).mpr hwc] at this
        cases this
      · exact hmono b hb

/-- A car has itself in its ready set, and a full set makes it broadcast GO. -/
theorem self_full_next (hd : OneGroup d c) (htwo : 2 ≤ d.totalSyncVms) (hwf : WellFormed d s)
    (hinv : ProgressInv d c s) (h : step d s a = some s') (u : V) (hu : u ≠ c) (hr : Reached s' u) :
    (d.mac u).str ∈ (s'.gateways u).proto.syncReadyNodes ∧
    (((s'.gateways u).proto.syncReadyNodes.card : ℤ) = d.totalSyncVms →
      (s'.gateways u).proto.syncGoSent = true) := by
  cases gateway_cases hwf h u with
  | same hsame hback =>
    rw [hsame.ready, hsame.goSent]
    exact ⟨hinv.self u hu (hback hr), hinv.full u hu (hback hr)⟩
  | enabled hbefore hready =>
    rw [hready, hd.isCoordinator_eq_false hu]
    refine ⟨by simp, fun hcard => ?_⟩
    simp at hcard
    omega
  | delivered f effects group hf hbe hback =>
    refine ⟨ready_subset hbe (hinv.self u hu (hback hr)), fun hcard => ?_⟩
    cases hbe with
    | idle hsame =>
      rw [hsame.goSent]
      exact hinv.full u hu (hback hr) (hsame.ready ▸ hcard)
    | go w _ _ _ hready hsent =>
      rw [hsent]
      exact hinv.full u hu (hback hr) (hready ▸ hcard)
    | counted w _ _ _ _ _ _ _ _ _ hsent =>
      rcases hsent with ⟨-, -, hset, -⟩ | ⟨hold | hcard', hkeep, -⟩
      · exact hset
      · rw [hkeep, hold]
      · exact (hcard' hcard).elim

/-- A GO that a car has sent reaches the coordinator after `set_master`, and releases it. -/
theorem goHeard_next (hd : OneGroup d c) (hwf : WellFormed d s) (hinv : ProgressInv d c s)
    (hok : lossless a = true ∧ earlyGo d s a = false) (h : step d s a = some s')
    (u : V) (hu : u ≠ c) (hsent : (s'.gateways u).proto.syncGoSent = true) :
    (s'.gateways c).syncDone = true ∨ Underway s' .GO u c := by
  rcases goSent_cases hwf h u with hsame | ⟨-, -, hsend⟩
  swap
  · exact Or.inr (hsend c hu.symm)
  rcases hinv.goHeard u hu (hsame ▸ hsent) with hdone | ⟨f, hf, hkind, hsender, hr⟩
  · exact Or.inl (syncDone_step hwf h hdone)
  rcases flight_persists hwf hok.1 h hf hr with hf' | ⟨i, now, stray, rfl, hi⟩
  · exact Or.inr ⟨f, hf', hkind, hsender, hr⟩
  have hmaster : (s.gateways c).proto.isMaster = true := by
    have := hok.2
    simpa [earlyGo, hi, hr, hkind, (hd.coordinator c).mpr rfl] using this
  have hhears : (s.gateways c).phase.hears = true := by
    rw [(hwf.gateways c).isMaster] at hmaster
    revert hmaster
    cases (s.gateways c).phase <;> simp [Phase.hears, Phase.hasRole]
  obtain ⟨effects, hbe⟩ := barrierEffect_at hwf hi hr h
  cases hbe with
  | idle _ _ _ hgo => exact (hgo hhears hkind).elim
  | counted w hready => rw [hkind] at hready; cases hready
  | go w _ _ _ _ _ _ _ _ _ hkeeps => exact Or.inl (hkeeps (Or.inr hmaster))

theorem released_next (hwf : WellFormed d s) (hinv : ProgressInv d c s)
    (h : step d s a = some s') (v : V) (hv : (s'.gateways v).syncDone = true) :
    ∃ w, (s'.gateways w).proto.syncGoSent = true := by
  have hold (hdone : (s.gateways v).syncDone = true) :
      ∃ w, (s'.gateways w).proto.syncGoSent = true := by
    obtain ⟨w, hw⟩ := hinv.released v hdone
    exact ⟨w, goSent_step hwf h hw⟩
  cases gateway_cases hwf h v with
  | same hsame => exact hold (hsame.syncDone ▸ hv)
  | enabled _ _ _ hdone => exact hold (hdone ▸ hv)
  | delivered f effects group hf hbe =>
    cases hbe with
    | idle hsame => exact hold (hsame.syncDone ▸ hv)
    | counted w _ _ _ _ _ _ _ hdone => exact hold (hdone ▸ hv)
    | go w hkind hsender => exact ⟨w, goSent_step hwf h (hinv.goFlight f hf hkind w hsender)⟩

/-- A READY on its way to a car at the barrier is counted or stays on its way. -/
theorem heard_next (hd : OneGroup d c) (htwo : 2 ≤ d.totalSyncVms) (hwf : WellFormed d s)
    (hok : lossless a = true) (h : step d s a = some s') {w x : V} (hx : Reached s x)
    (hw : (d.mac w).str ∈ (s.gateways x).proto.syncReadyNodes ∨ Underway s .READY w x) :
    (d.mac w).str ∈ (s'.gateways x).proto.syncReadyNodes ∨ Underway s' .READY w x := by
  rcases hw with hin | ⟨f, hf, hkind, hsender, hr⟩
  · exact Or.inl (ready_step hwf h hx hin)
  rcases flight_persists hwf hok h hf hr with hf' | ⟨i, now, stray, rfl, hi⟩
  · exact Or.inr ⟨f, hf', hkind, hsender, hr⟩
  obtain ⟨effects, hbe⟩ := barrierEffect_at hwf hi hr h
  cases hbe with
  | idle _ _ hready =>
    exact (hready hx (by omega) hkind w hsender ((hd.group w).trans (hd.group x).symm)).elim
  | counted u _ hsender' _ _ _ hready =>
    cases hsender.symm.trans hsender'
    exact Or.inl (hready ▸ Finset.mem_insert_self _ _)
  | go u hgo => rw [hkind] at hgo; cases hgo

/-- The first car at the barrier hears all the others: nobody sends READY before it has
come there itself. -/
theorem first_next (hd : OneGroup d c) (htwo : 2 ≤ d.totalSyncVms) (hwf : WellFormed d s)
    (hinv : ProgressInv d c s) (hok : lossless a = true) (h : step d s a = some s')
    (u : V) (hu : u ≠ c) (hr : Reached s' u) : ∃ x, x ≠ c ∧ Reached s' x ∧ ∀ w, w ≠ c → w ≠ x →
      SentReady s' w →
      (d.mac w).str ∈ (s'.gateways x).proto.syncReadyNodes ∨ Underway s' .READY w x := by
  by_cases hsome : ∃ y, y ≠ c ∧ Reached s y
  · obtain ⟨y, hy, hry⟩ := hsome
    obtain ⟨x, hx, hrx, hall⟩ := hinv.first y hy hry
    refine ⟨x, hx, reached_step hwf h hrx, fun w hw hwx hsent => ?_⟩
    rcases sentReady_new hwf h hsent with hsent | ⟨-, hnew⟩
    · exact heard_next hd htwo hwf hok h hrx (hall w hw hwx hsent)
    · exact Or.inr (hnew x hwx.symm)
  · refine ⟨u, hu, hr, fun w hw hwu hsent => (hsome ⟨w, hw, ?_⟩).elim⟩
    rcases sentReady_new hwf h hsent with hsent | ⟨hrw, -⟩
    · exact hinv.sentReached w hsent
    · exact hrw

theorem progressInv_step (hd : OneGroup d c) (htwo : 2 ≤ d.totalSyncVms) (hwf : WellFormed d s)
    (hbar : BarrierInv d s) (hinv : ProgressInv d c s)
    (hok : lossless a = true ∧ earlyGo d s a = false) (h : step d s a = some s') :
    ProgressInv d c s' where
  sentReached w hw := by
    rcases sentReady_new hwf h hw with hw | ⟨hr, -⟩
    · exact reached_step hwf h (hinv.sentReached w hw)
    · exact reached_step hwf h hr
  readyFlight f hf hkind w hw := by
    rcases new_flight hwf h hf hw with hf | hnew
    · exact sentReady_step hwf h (hinv.readyFlight f hf hkind w hw)
    · exact hnew.1 hkind
  goFlight f hf hkind w hw := by
    rcases new_flight hwf h hf hw with hf | hnew
    · exact goSent_step hwf h (hinv.goFlight f hf hkind w hw)
    · exact hnew.2 hkind
  ready := ready_next hd hwf hinv hbar h
  self u hu hr := (self_full_next hd htwo hwf hinv h u hu hr).1
  full u hu hr := (self_full_next hd htwo hwf hinv h u hu hr).2
  goSent := goSent_next hd hwf hinv h (ready_next hd hwf hinv hbar h)
  goHeard := goHeard_next hd hwf hinv hok h
  released := released_next hwf hinv h
  first := first_next hd htwo hwf hinv hok.1 h

/-- With the group complete and nothing in flight, the first car at the barrier holds a
full ready set as soon as somebody has sent GO. -/
theorem exists_goSent (hd : OneGroup d c) (hinv : ProgressInv d c s) (hquiet : s.inFlight = [])
    (hall : ∀ v, Reached s v) (hcars : ∀ v, v ≠ c → (s.gateways v).syncDone = true)
    {u : V} (hu : u ≠ c) :
    ∃ x, x ≠ c ∧ (s.gateways x).proto.syncGoSent = true := by
  obtain ⟨w, hw⟩ := hinv.released u (hcars u hu)
  by_cases hwc : w = c
  swap
  · exact ⟨w, hwc, hw⟩
  -- the coordinator has sent it, so every car has sent READY
  subst hwc
  obtain ⟨x, hx, hrx, hheard⟩ := hinv.first u hu (hall u)
  refine ⟨x, hx, hinv.full x hx hrx ?_⟩
  have himage : (s.gateways x).proto.syncReadyNodes =
      (d.cars (d.group x)).image fun w => (d.mac w).str := by
    ext b
    rw [Finset.mem_image]
    constructor
    · intro hb
      obtain ⟨w, hw, hbw, -⟩ := hinv.ready x b hb
      exact ⟨w, hw, hbw.symm⟩
    · rintro ⟨y, hy, rfl⟩
      have hyc := hd.mem_cars.mp hy
      by_cases hyx : y = x
      · rw [hyx]
        exact hinv.self x hx hrx
      · rcases hheard y hyc hyx (hinv.goSent w hw y hyc hyc) with hin | ⟨f, hf, -⟩
        · exact hin
        · rw [hquiet] at hf
          cases hf
  rw [himage, Finset.card_image_of_injective _ fun v w hvw =>
    d.mac_injective (Address.str_injective hvw)]
  exact hd.balanced x

/-- The barrier does not wedge: one coordinator and at least two cars on a network that
loses and duplicates nothing, in a run that gives the coordinator no GO before its
`set_master`. When all are at the barrier, nothing is in flight and all cars are
released, so is the coordinator. -/
theorem coordinator_not_left_waiting (hd : OneGroup d c) (htwo : 2 ≤ d.totalSyncVms)
    (h : Reaches (step d) (fun s a => lossless a = true ∧ earlyGo d s a = false) (initial d) s)
    (hall : ∀ v, Reached s v) (hquiet : s.inFlight = [])
    (hcars : ∀ v, v ≠ c → (s.gateways v).syncDone = true) : (s.gateways c).syncDone = true := by
  have hinv : ProgressInv d c s :=
    h.invariant_of (fun s => WellFormed d s ∧ BarrierInv d s) (ProgressInv d c)
      (fun _ hr => ⟨wellFormed_of_reaches hr, barrierInv_of_reaches hd.balanced hr⟩)
      (progressInv_initial d c)
      fun _ _ _ hwi hinv hok hu => progressInv_step hd htwo hwi.1 hwi.2 hinv hok hu
  have hcar : ∃ u, u ≠ c := by
    have hcard : 0 < (d.cars (d.group c)).card := by
      have := hd.balanced c
      omega
    obtain ⟨u, hu⟩ := Finset.card_pos.mp hcard
    exact ⟨u, hd.mem_cars.mp hu⟩
  obtain ⟨u, hu⟩ := hcar
  obtain ⟨x, hx, hsent⟩ := exists_goSent hd hinv hquiet hall hcars hu
  rcases hinv.goHeard x hx hsent with hdone | ⟨f, hf, -⟩
  · exact hdone
  · rw [hquiet] at hf
    cases hf

end Invariant

/-- One coordinator with two cars. -/
def twoCars : Deployment (Fin 3) := .ofVmIds ![0, 1, 2] (by decide) 2

/-- What the statements about the end of a barrier run look at: is everybody at the
barrier, is nothing in flight, are the cars released, is the coordinator. -/
def barrierEnd {n : ℕ} (s : State (Fin (n + 1))) : Bool × Bool × Bool × Bool :=
  (decide (∀ v, Reached s v), s.inFlight.isEmpty,
    decide (∀ v, v ≠ 0 → (s.gateways v).syncDone = true),
    (s.gateways 0).syncDone)

theorem twoCars_released :
    ∃ s, OneGroup twoCars 0 ∧ 2 ≤ twoCars.totalSyncVms ∧
      Reaches (step twoCars) (fun s a => lossless a = true ∧ earlyGo twoCars s a = false)
        (initial twoCars) s ∧
      (∀ v, Reached s v) ∧ s.inFlight = [] ∧ (∀ v, v ≠ 0 → (s.gateways v).syncDone = true) ∧
      (s.gateways 0).syncDone = true := by
  have hd : OneGroup twoCars 0 := ⟨by decide, by decide, by decide +kernel⟩
  have hrun : ((runIf (fun s a => lossless a && !earlyGo twoCars s a) (step twoCars)
      (initial twoCars)
      (barrierRun 2 12)).map barrierEnd) = some (true, true, true, true) := by decide +kernel
  obtain ⟨s, hs, hend⟩ := exists_reaches_of_runIf
    (fun s a => lossless a = true ∧ earlyGo twoCars s a = false) _ (by simp) hrun
  simp only [barrierEnd, Prod.mk.injEq, decide_eq_true_eq, List.isEmpty_iff] at hend
  obtain ⟨hall, hquiet, hcars, -⟩ := hend
  exact ⟨s, hd, by decide, hs, hall, hquiet, hcars,
    coordinator_not_left_waiting hd (by decide) hs hall hquiet hcars⟩

/-- With one car the GO of the coordinator is the only one, and the coordinator does not
hear itself. -/
theorem coordinator_left_waiting :
    ∃ s, OneGroup oneCar 0 ∧ 1 ≤ oneCar.totalSyncVms ∧
      Reaches (step oneCar) (fun _ a => lossless a = true) (initial oneCar) s ∧
      (∀ v, Reached s v) ∧ s.inFlight = [] ∧ (∀ v, v ≠ 0 → (s.gateways v).syncDone = true) ∧
      (s.gateways 0).syncDone = false := by
  have hd : OneGroup oneCar 0 := ⟨by decide, by decide, by decide +kernel⟩
  have hrun : ((runIf (fun _ a => lossless a) (step oneCar) (initial oneCar)
      (barrierRun 1 3)).map barrierEnd) = some (true, true, true, false) := by decide +kernel
  obtain ⟨s, hs, hend⟩ := exists_reaches_of_runIf (fun _ a => lossless a = true) _ (by simp) hrun
  simp only [barrierEnd, Prod.mk.injEq, decide_eq_true_eq, List.isEmpty_iff] at hend
  obtain ⟨hall, hquiet, hcars, hwaiting⟩ := hend
  exact ⟨s, hd, by decide, hs, hall, hquiet, hcars, hwaiting⟩

/-- Two cars reach the barrier and all that follows from it is delivered before the
coordinator executes `set_master`. -/
def lateMasterRun : List (Action (Fin 3)) :=
  List.flatten [[.gateway 0 .listen, .gateway 0 (.joinGroup 0), .gateway 0 .installCallback],
    reachBarrier 1, reachBarrier 2,
    [.gateway 1 .checkReady, .gateway 1 (.sendReady 0), .gateway 2 .checkReady,
      .gateway 2 (.sendReady 0)],
    List.replicate 10 (deliverNow 0), [.gateway 0 .setMaster, .gateway 0 .enableStartSync]]

-- The coordinator is left waiting as well.
example : ((run (step twoCars) (initial twoCars) lateMasterRun).map barrierEnd) =
    some (true, true, true, false) := by
  decide +kernel

end CarNetwork.Fleet
