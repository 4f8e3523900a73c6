import CarNetwork.FleetInvariant
import CarNetwork.GroupNews

/-!
# The coordinators' maps of the groups

All machines of a fleet, with the group messages between them. Every tag is accepted and
nothing is lost, but messages arrive in any order. A vehicle joins once and then asks to be
moved; the request goes to everybody, the coordinator of the new group assigns it, and the
vehicle tells that coordinator that it has joined. If a vehicle waits for all of this before
it asks again, the coordinators agree with it whenever nothing is in flight.
-/
namespace CarNetwork.GroupMap

open CarNetwork.ByteText CarNetwork.DecimalText CarNetwork.Conversions CarNetwork.Ethernet
open CarNetwork.Protocol CarNetwork.Runs GroupTable
open CarNetwork.Fleet (mem_eraseIdx_of_ne)

/-! ## The system -/

/-- The machines, with distinct vehicle ids and all four coordinators. -/
structure Vehicles (V : Type) where
  vms : List V
  complete : ∀ v, v ∈ vms
  nodup : vms.Nodup
  mac : V → Address
  distinct : ∀ v w, vmIdFromMac (mac v) = vmIdFromMac (mac w) → v = w
  coordinators : ∀ c ∈ GROUP_COORDINATORS, ∃ v, vmIdFromMac (mac v) = c

structure State (V : Type) where
  inst : V → Instance
  joined : V → Bool
  flight : List (V × AsyncCapsule)

inductive Action (V : Type)
  | join (v : V) (gid : ℤ) (time : UInt64)
  | move (v : V) (gid : ℤ) (time : UInt64)
  | deliver (i : ℕ) (now : ℕ → UInt64) (stray : ℤ → ℤ)

section System

variable {V : Type} [DecidableEq V] (d : Vehicles V)

def Vehicles.id (v : V) : ℤ := vmIdFromMac (d.mac v)

def Vehicles.isCoordinator (v : V) : Bool := decide (d.id v ∈ GROUP_COORDINATORS)

def initial : State V where
  inst v := { address := d.mac v, controlLocal := ⟨d.mac v, GATEWAY_PORT⟩ }
  joined _ := false
  flight := []

/-- The copies of a frame: one for every other machine, or for the machine with the vehicle
id in the last octet. -/
def copies (sender : V) : Effect → List (V × AsyncCapsule)
  | .transmit _ src dst payload =>
    (d.vms.filter fun w => w ≠ sender ∧
      (dst.mac = Address.BROADCAST ∨ d.id w = vmIdFromMac dst.mac)).map
      fun w => (w, ⟨src, dst, .ethernet, payload⟩)
  | _ => []

/-- A vehicle joins before it asks for another group. -/
def step (s : State V) : Action V → Option (State V)
  | .join v gid time =>
    if s.joined v = false ∧ 0 ≤ gid ∧ gid < 4 then
      match setCurrentGroup (s.inst v) gid time with
      | .ok (p, effects) => some {
          inst := Function.update s.inst v p
          joined := Function.update s.joined v true
          flight := s.flight ++ effects.flatMap (copies d v) }
      | .error _ => none
    else none
  | .move v gid time =>
    if s.joined v = true ∧ 0 ≤ gid ∧ gid < 4 then
      some { s with flight := s.flight ++ (moveGroup (s.inst v) gid time).flatMap (copies d v) }
    else none
  | .deliver i now stray =>
    match s.flight[i]? with
    | none => none
    | some (w, c) =>
      match update { accepts := fun _ _ => true, now, stray } (s.inst w) c with
      | .ok (p, effects) => some { s with
          inst := Function.update s.inst w p
          flight := s.flight.eraseIdx i ++ effects.flatMap (copies d w) }
      | .error _ => none

/-- The copy is a message about the vehicle. -/
def concerns (v : V) (e : V × AsyncCapsule) : Bool :=
  match news e.2 with
  | .request vmId _ => vmId = d.id v
  | .notify vmId _ _ => vmId = d.id v
  | .assign _ => e.1 = v
  | _ => false

/-- The condition on a step: a vehicle that asks to be moved is not a coordinator, and no
message about it is in flight. -/
def patient (s : State V) : Action V → Bool
  | .move v _ _ => !d.isCoordinator v && s.flight.all fun e => !concerns d v e
  | _ => true

end System

/-! ## The invariant -/

section Invariant

variable {V : Type} {d : Vehicles V} {goal : V → ℤ} {s s' : State V}

/-- A request about the vehicle is on its way to the machine. -/
def Asked (s : State V) (w : V) (vmId : ℤ) : Prop :=
  ∃ e ∈ s.flight, e.1 = w ∧ ∃ g, news e.2 = .request vmId g

/-- An assignment is on its way to the machine. -/
def Assigned (s : State V) (v : V) : Prop := ∃ e ∈ s.flight, e.1 = v ∧ ∃ g, news e.2 = .assign g

/-- A message names the group that the vehicle it is about is to be in. -/
def NewsOk (d : Vehicles V) (goal : V → ℤ) (joined : V → Bool) (receiver : V) : News → Prop
  | .request vmId gid => ∃ v, d.id v = vmId ∧ joined v = true ∧ gid = goal v ∧ v ≠ receiver
  | .notify vmId _ gid => ∃ v, d.id v = vmId ∧ joined v = true ∧ gid = goal v
  | .assign gid => joined receiver = true ∧ gid = goal receiver
  | .data => True
  | .other => False

/-- Each vehicle that has joined has one group that it is in or is to be in. A coordinator
has the vehicle in that group alone unless it has still to hear the request; and the vehicle
itself is in it unless the request has still to reach the coordinator of that group or the
assignment has still to reach the vehicle. -/
structure Agree (d : Vehicles V) (goal : V → ℤ) (s : State V) : Prop where
  address : ∀ v, (s.inst v).address = d.mac v
  endpoint : ∀ v, (s.inst v).controlLocal.mac = d.mac v
  valid : ∀ v, s.joined v = true → 0 ≤ goal v ∧ goal v < 4
  flight : ∀ e ∈ s.flight, NewsOk d goal s.joined e.1 (news e.2)
  table : ∀ w, d.isCoordinator w = true → ∀ u g, InGroup (s.inst w).groups u g →
    ∃ v, d.id v = u ∧ s.joined v = true ∧ (g = goal v ∨ Asked s w u)
  current : ∀ v, s.joined v = true → (s.inst v).currentGroupId = goal v ∨
    (∃ w, d.id w = knownCoordinator (goal v) ∧ Asked s w (d.id v)) ∨ Assigned s v

theorem Asked.mono {w : V} {u : ℤ} (h : Asked s w u) (hkeep : ∀ e ∈ s.flight, e ∈ s'.flight) :
    Asked s' w u := by
  obtain ⟨e, he, hw, g, hg⟩ := h
  exact ⟨e, hkeep e he, hw, g, hg⟩

theorem Assigned.mono {v : V} (h : Assigned s v) (hkeep : ∀ e ∈ s.flight, e ∈ s'.flight) :
    Assigned s' v := by
  obtain ⟨e, he, hv, g, hg⟩ := h
  exact ⟨e, hkeep e he, hv, g, hg⟩

theorem ne_of_isCoordinator {v w : V} (hw : d.isCoordinator w = true)
    (hv : d.isCoordinator v = false) : w ≠ v := by
  rintro rfl
  rw [hw] at hv
  cases hv

theorem agree_initial : Agree d (fun _ => 0) (initial d) where
  address _ := rfl
  endpoint _ := rfl
  valid _ h := by cases h
  flight _ h := by cases h
  table _ _ _ _ h := by simp [initial] at h
  current _ h := by cases h

variable [DecidableEq V]

theorem mem_copies {w : V} {effects : List Effect} {Q : Address → News → Prop} (h : Sends Q effects)
    {e : V × AsyncCapsule} (he : e ∈ effects.flatMap (copies d w)) :
    ∃ mac, Q mac (news e.2) ∧ e.1 ≠ w ∧ (mac = Address.BROADCAST ∨ d.id e.1 = vmIdFromMac mac) := by
  obtain ⟨x, hx, hex⟩ := List.mem_flatMap.mp he
  cases x with
  | transmit kind src dst payload =>
    obtain ⟨u, hu, rfl⟩ := List.mem_map.mp hex
    have hu' := (List.mem_filter.mp hu).2
    simp only [decide_eq_true_eq] at hu'
    exact ⟨dst.mac, h _ _ _ _ hx, hu'.1, hu'.2⟩
  | _ => cases hex

theorem copy_of_transmit {w v : V} {effects : List Effect} {kind : SendKind} {src dst : Endpoint}
    {payload : Bytes} (hx : .transmit kind src dst payload ∈ effects) (hv : v ≠ w)
    (hdst : dst.mac = Address.BROADCAST ∨ d.id v = vmIdFromMac dst.mac) :
    (v, ⟨src, dst, .ethernet, payload⟩) ∈ effects.flatMap (copies d w) := by
  refine List.mem_flatMap.mpr ⟨_, hx, List.mem_map.mpr ⟨v, ?_, rfl⟩⟩
  exact List.mem_filter.mpr ⟨d.complete v, by simpa using ⟨hv, hdst⟩⟩

/-- Messages are about vehicles that have joined. -/
theorem joined_of_concerns {joined : V → Bool} {e : V × AsyncCapsule} {v : V}
    (h : NewsOk d goal joined e.1 (news e.2)) (hc : concerns d v e = true) : joined v = true := by
  unfold concerns at hc
  cases hn : news e.2 with
  | request vmId gid =>
    simp only [hn, decide_eq_true_eq] at hc
    rw [hn] at h
    obtain ⟨u, hu, hj, -, -⟩ := h
    rwa [d.distinct u v (hu.trans hc)] at hj
  | notify vmId oldGid newGid =>
    simp only [hn, decide_eq_true_eq] at hc
    rw [hn] at h
    obtain ⟨u, hu, hj, -⟩ := h
    rwa [d.distinct u v (hu.trans hc)] at hj
  | assign gid =>
    simp only [hn, decide_eq_true_eq] at hc
    rw [hn] at h
    rw [← hc]
    exact h.1
  | data => simp [hn] at hc
  | other => simp [hn] at hc

/-- Another vehicle's goal does not matter to a message. -/
theorem NewsOk.setGoal {joined joined' : V → Bool} {e : V × AsyncCapsule} {v : V} (gid : ℤ)
    (h : NewsOk d goal joined e.1 (news e.2)) (hc : concerns d v e = false)
    (hjoined : ∀ u, joined u = true → joined' u = true) :
    NewsOk d (Function.update goal v gid) joined' e.1 (news e.2) := by
  unfold concerns at hc
  cases hn : news e.2 with
  | request vmId g =>
    simp only [hn, decide_eq_false_iff_not] at hc
    rw [hn] at h
    obtain ⟨u, hu, hj, hg, hne⟩ := h
    have huv : u ≠ v := fun heq => hc (heq ▸ hu.symm)
    exact ⟨u, hu, hjoined u hj, by rw [Function.update_of_ne huv, hg], hne⟩
  | notify vmId oldGid newGid =>
    simp only [hn, decide_eq_false_iff_not] at hc
    rw [hn] at h
    obtain ⟨u, hu, hj, hg⟩ := h
    have huv : u ≠ v := fun heq => hc (heq ▸ hu.symm)
    exact ⟨u, hu, hjoined u hj, by rw [Function.update_of_ne huv, hg]⟩
  | assign g =>
    simp only [hn, decide_eq_false_iff_not] at hc
    rw [hn] at h
    exact ⟨hjoined _ h.1, by rw [Function.update_of_ne hc, h.2]⟩
  | data => trivial
  | other =>
    rw [hn] at h
    exact h

theorem inGroup_inGroup {p : Instance} {gid u g : ℤ} (h : InGroup (inGroup p gid).groups u g) :
    InGroup p.groups u g ∨ (u = vmIdFromMac p.address ∧ g = gid) :=
  (inGroup_update_add fun info => GroupInfo.mem_insertMember (vmIdFromMac p.address) u
    { info with groupId := gid }).mp h

theorem Agree.address_update (hi : Agree d goal s) {v : V} {p : Instance}
    (hp : p.address = (s.inst v).address) :
    ∀ u, (Function.update s.inst v p u).address = d.mac u :=
  (Function.forall_update_iff s.inst fun u q => q.address = d.mac u).mpr
    ⟨hp.trans (hi.address v), fun u _ => hi.address u⟩

theorem Agree.endpoint_update (hi : Agree d goal s) {v : V} {p : Instance}
    (hp : p.controlLocal = (s.inst v).controlLocal) :
    ∀ u, (Function.update s.inst v p u).controlLocal.mac = d.mac u :=
  (Function.forall_update_iff s.inst fun u q => q.controlLocal.mac = d.mac u).mpr
    ⟨(congrArg Endpoint.mac hp).trans (hi.endpoint v), fun u _ => hi.endpoint u⟩

section NewGoal

variable {v : V} {gid : ℤ}

/-- A new goal of one vehicle is a group, and those of the others stay. -/
theorem Agree.valid_update (hi : Agree d goal s) (hgid : 0 ≤ gid ∧ gid < 4) {joined : V → Bool}
    (hsame : ∀ u, u ≠ v → joined u = s.joined u) (u : V) (hu : joined u = true) :
    0 ≤ Function.update goal v gid u ∧ Function.update goal v gid u < 4 := by
  by_cases huv : u = v
  · rw [huv, Function.update_self]
    exact hgid
  · rw [Function.update_of_ne huv]
    exact hi.valid u (hsame u huv ▸ hu)

/-- Where another vehicle is on its way is not affected by more messages. -/
theorem Agree.current_of_ne (hi : Agree d goal s) (hkeep : ∀ e ∈ s.flight, e ∈ s'.flight) {u : V}
    (huv : u ≠ v) (hu : s.joined u = true)
    (hcur : (s'.inst u).currentGroupId = (s.inst u).currentGroupId) :
    (s'.inst u).currentGroupId = Function.update goal v gid u ∨
      (∃ w, d.id w = knownCoordinator (Function.update goal v gid u) ∧ Asked s' w (d.id u)) ∨
      Assigned s' u := by
  rw [Function.update_of_ne huv, hcur]
  rcases hi.current u hu with hgoal | ⟨w, hw, ha⟩ | ha
  · exact Or.inl hgoal
  · exact Or.inr (Or.inl ⟨w, hw, ha.mono hkeep⟩)
  · exact Or.inr (Or.inr (ha.mono hkeep))

end NewGoal

/-- A vehicle joins: nobody knew of it. -/
theorem Agree.join {v : V} {gid : ℤ} {time : UInt64} (hi : Agree d goal s)
    (h : step d s (.join v gid time) = some s') : Agree d (Function.update goal v gid) s' := by
  simp only [step, Option.ite_none_right_eq_some] at h
  obtain ⟨⟨hfirst, hgid⟩, h⟩ := h
  split at h
  swap
  · cases h
  rename_i p effects hset
  cases h
  obtain ⟨rfl, hsends⟩ := sends_setCurrentGroup hgid hset
  have hid : vmIdFromMac (s.inst v).address = d.id v := congrArg vmIdFromMac (hi.address v)
  have hjoined : ∀ u, s.joined u = true → Function.update s.joined v true u = true := by
    intro u hu
    by_cases huv : u = v
    · rw [huv, Function.update_self]
    · rwa [Function.update_of_ne huv]
  have hother : ∀ u, s.joined u = true → u ≠ v := by
    rintro u hu rfl
    rw [hfirst] at hu
    cases hu
  have hkeep : ∀ e ∈ s.flight, e ∈ s.flight ++ effects.flatMap (copies d v) :=
    fun e he => List.mem_append_left _ he
  refine ⟨hi.address_update rfl, hi.endpoint_update rfl,
    hi.valid_update hgid fun u huv => Function.update_of_ne huv _ _, fun e he => ?_,
    fun w hw u g hin => ?_, fun u hu => ?_⟩
  · rcases List.mem_append.mp he with he | he
    · have hc : concerns d v e = false := by
        rw [← Bool.not_eq_true]
        intro hc
        exact hother v (joined_of_concerns (hi.flight e he) hc) rfl
      exact (hi.flight e he).setGoal gid hc hjoined
    · obtain ⟨mac, hnews | hnews, -, -⟩ := mem_copies hsends he
      · rw [hnews, hid]
        exact ⟨v, rfl, Function.update_self _ _ _, by rw [Function.update_self]⟩
      · rw [hnews]
        trivial
  · have hold : InGroup (s.inst w).groups u g → ∃ v', d.id v' = u ∧
        Function.update s.joined v true v' = true ∧ (g = Function.update goal v gid v' ∨
          Asked { s with flight := s.flight ++ effects.flatMap (copies d v) } w u) := by
      intro hin
      obtain ⟨v', hv', hj, hg⟩ := hi.table w hw u g hin
      refine ⟨v', hv', hjoined v' hj, hg.imp (fun hg => ?_) fun ha => ha.mono hkeep⟩
      rw [Function.update_of_ne (hother v' hj), hg]
    dsimp only at hin
    by_cases hwv : w = v
    · subst hwv
      rw [Function.update_self] at hin
      rcases inGroup_inGroup hin with hin | ⟨rfl, rfl⟩
      · exact hold hin
      · exact ⟨w, hid.symm, Function.update_self _ _ _, Or.inl (by rw [Function.update_self])⟩
    · rw [Function.update_of_ne hwv] at hin
      exact hold hin
  · by_cases huv : u = v
    · subst huv
      dsimp only
      rw [Function.update_self, Function.update_self]
      exact Or.inl rfl
    · dsimp only at hu
      rw [Function.update_of_ne huv] at hu
      exact hi.current_of_ne hkeep huv hu (by dsimp only; rw [Function.update_of_ne huv])

theorem sends_moveGroup {p : Instance} {gid : ℤ} {time : UInt64} (hgid : 0 ≤ gid ∧ gid < 4) :
    Sends (fun _ n => n = .request (vmIdFromMac p.controlLocal.mac) gid) (moveGroup p gid time) :=
  sends_sendControl fun _ hc => news_request (inInt_group hgid) hc

/-- A patient vehicle asks for another group: from now on everybody is to hear of it. -/
theorem Agree.move {v : V} {gid : ℤ} {time : UInt64} (hi : Agree d goal s)
    (hpatient : patient d s (.move v gid time) = true) (h : step d s (.move v gid time) = some s') :
    Agree d (Function.update goal v gid) s' := by
  simp only [step, Option.ite_none_right_eq_some, Option.some.injEq] at h
  obtain ⟨⟨hjoined, hgid⟩, rfl⟩ := h
  simp only [patient, Bool.and_eq_true, Bool.not_eq_true', List.all_eq_true] at hpatient
  obtain ⟨hcar, hquiet⟩ := hpatient
  have hid : vmIdFromMac (s.inst v).controlLocal.mac = d.id v :=
    congrArg vmIdFromMac (hi.endpoint v)
  have hkeep : ∀ e ∈ s.flight,
      e ∈ s.flight ++ (moveGroup (s.inst v) gid time).flatMap (copies d v) :=
    fun e he => List.mem_append_left _ he
  have hasked : ∀ w, w ≠ v → Asked { s with
      flight := s.flight ++ (moveGroup (s.inst v) gid time).flatMap (copies d v) } w (d.id v) := by
    intro w hw
    have hx : .transmit (.control .GROUP_MOVE_REQUEST) ⟨(s.inst v).address,
        (s.inst v).controlLocal.port⟩
        (broadcastEndpoint (s.inst v))
        (buildMessage (controlMessage (s.inst v) (s.inst v).controlLocal
          .GROUP_MOVE_REQUEST 0 (intText gid) time)) ∈ moveGroup (s.inst v) gid time :=
      mem_sendControl ((length_intText_int (inInt_group hgid)).trans (by norm_num))
    refine ⟨_, List.mem_append_right _ (copy_of_transmit hx hw (Or.inl rfl)), rfl, gid, ?_⟩
    rw [news_request (inInt_group hgid) rfl, hid]
  refine ⟨hi.address, hi.endpoint, hi.valid_update hgid fun _ _ => rfl, fun e he => ?_,
    fun w hw u g hin => ?_, fun u hu => ?_⟩
  · rcases List.mem_append.mp he with he | he
    · exact (hi.flight e he).setGoal gid (hquiet e he) fun _ h => h
    · obtain ⟨mac, hnews, hne, -⟩ := mem_copies (sends_moveGroup hgid) he
      rw [hnews, hid]
      exact ⟨v, rfl, hjoined, by rw [Function.update_self], hne.symm⟩
  · obtain ⟨v', hv', hj, hg⟩ := hi.table w hw u g hin
    refine ⟨v', hv', hj, ?_⟩
    by_cases hvv : v' = v
    · subst hvv hv'
      exact Or.inr (hasked w (ne_of_isCoordinator hw hcar))
    · rw [Function.update_of_ne hvv]
      exact hg.imp_right fun ha => ha.mono hkeep
  · by_cases huv : u = v
    · subst huv
      rw [Function.update_self]
      obtain ⟨w, hw⟩ := d.coordinators _ (knownCoordinator_mem hgid)
      have hwc : d.isCoordinator w = true := by
        rw [Vehicles.isCoordinator, decide_eq_true_iff, Vehicles.id, hw]
        exact knownCoordinator_mem hgid
      exact Or.inr (Or.inl ⟨w, hw, hasked w (ne_of_isCoordinator hwc hcar)⟩)
    · exact hi.current_of_ne hkeep huv hu rfl

/-- The state after a machine has taken in a copy. -/
def received (d : Vehicles V) (s : State V) (i : ℕ) (w : V) (p : Instance)
    (effects : List Effect) : State V :=
  { s with
    inst := Function.update s.inst w p
    flight := s.flight.eraseIdx i ++ effects.flatMap (copies d w) }

section Received

variable {i : ℕ} {w : V} {c : AsyncCapsule} {p : Instance} {effects : List Effect}

/-- Copies for other machines and copies with other news stay in flight. -/
theorem keep_received (h : s.flight[i]? = some (w, c)) {e : V × AsyncCapsule} (he : e ∈ s.flight)
    (hne : e.1 ≠ w ∨ news e.2 ≠ news c) : e ∈ (received d s i w p effects).flight := by
  refine List.mem_append_left _ (mem_eraseIdx_of_ne h he ?_)
  rintro rfl
  rcases hne with hne | hne <;> exact hne rfl

theorem Asked.received {u : ℤ} {w' : V} (ha : Asked s w' u) (h : s.flight[i]? = some (w, c))
    (hne : w' ≠ w ∨ ∀ g, news c ≠ .request u g) : Asked (received d s i w p effects) w' u := by
  obtain ⟨e, he, hw', g, hg⟩ := ha
  refine ⟨e, keep_received h he ?_, hw', g, hg⟩
  rcases hne with hne | hne
  · exact Or.inl (hw' ▸ hne)
  · exact Or.inr (hg ▸ fun heq => hne g heq.symm)

theorem Assigned.received {v : V} (ha : Assigned s v) (h : s.flight[i]? = some (w, c))
    (hne : v ≠ w ∨ ∀ g, news c ≠ .assign g) : Assigned (received d s i w p effects) v := by
  obtain ⟨e, he, hv, g, hg⟩ := ha
  refine ⟨e, keep_received h he ?_, hv, g, hg⟩
  rcases hne with hne | hne
  · exact Or.inl (hv ▸ hne)
  · exact Or.inr (hg ▸ fun heq => hne g heq.symm)

/-- What has to be shown about a reception: the messages it sends, the receiver's own table,
and the groups. -/
theorem Agree.received (hi : Agree d goal s) (h : s.flight[i]? = some (w, c))
    (haddress : p.address = (s.inst w).address)
    (hendpoint : p.controlLocal = (s.inst w).controlLocal)
    (hnew : ∀ e ∈ effects.flatMap (copies d w), NewsOk d goal s.joined e.1 (news e.2))
    (htable : d.isCoordinator w = true → ∀ u g, InGroup p.groups u g →
      ∃ v, d.id v = u ∧ s.joined v = true ∧
        (g = goal v ∨ Asked (GroupMap.received d s i w p effects) w u)) (hcurrent :
          ∀ v, s.joined v = true →
      ((GroupMap.received d s i w p effects).inst v).currentGroupId = goal v ∨
      (∃ w', d.id w' = knownCoordinator (goal v) ∧
        Asked (GroupMap.received d s i w p effects) w' (d.id v)) ∨
      Assigned (GroupMap.received d s i w p effects) v) :
    Agree d goal (GroupMap.received d s i w p effects) := by
  refine ⟨hi.address_update haddress, hi.endpoint_update hendpoint, hi.valid, fun e he => ?_,
    fun w' hw' u g hin => ?_, hcurrent⟩
  · rcases List.mem_append.mp he with he | he
    · exact hi.flight e (List.mem_of_mem_eraseIdx he)
    · exact hnew e he
  · simp only [GroupMap.received] at hin
    by_cases hww : w' = w
    · subst hww
      rw [Function.update_self] at hin
      exact htable hw' u g hin
    · rw [Function.update_of_ne hww] at hin
      obtain ⟨v, hv, hj, hg⟩ := hi.table w' hw' u g hin
      exact ⟨v, hv, hj, hg.imp_right fun ha => ha.received h (Or.inl hww)⟩

/-- The groups are as before if the receiver keeps its own and the copy is neither a request
nor an assignment. -/
theorem Agree.current_received (hi : Agree d goal s) (h : s.flight[i]? = some (w, c))
    (hkeep : p.currentGroupId = (s.inst w).currentGroupId) (hrequest : ∀ u g, news c ≠ .request u g)
    (hassign : ∀ g, news c ≠ .assign g) (v : V) (hv : s.joined v = true) :
    ((GroupMap.received d s i w p effects).inst v).currentGroupId = goal v ∨
      (∃ w', d.id w' = knownCoordinator (goal v) ∧
        Asked (GroupMap.received d s i w p effects) w' (d.id v)) ∨
      Assigned (GroupMap.received d s i w p effects) v := by
  rcases hi.current v hv with hcur | ⟨w', hw', ha⟩ | ha
  · left
    simp only [GroupMap.received]
    by_cases hvw : v = w
    · subst hvw
      rw [Function.update_self, hkeep, hcur]
    · rw [Function.update_of_ne hvw, hcur]
  · exact Or.inr (Or.inl ⟨w', hw', ha.received h (Or.inr (hrequest _))⟩)
  · exact Or.inr (Or.inr (ha.received h (Or.inr hassign)))

variable {now : ℕ → UInt64} {stray : ℤ → ℤ}

theorem Agree.data (hi : Agree d goal s) (h : s.flight[i]? = some (w, c)) (hnews : news c = .data)
    (hupdate : update { accepts := fun _ _ => true, now, stray } (s.inst w) c = .ok (p, effects)) :
    Agree d goal (GroupMap.received d s i w p effects) := by
  obtain ⟨rfl, hsends⟩ : p = s.inst w ∧ Sends (fun _ _ => False) effects :=
    received_data hupdate hnews
  refine hi.received h rfl rfl (fun e he => ?_) (fun hw u g hin => ?_)
    (hi.current_received h rfl (by simp [hnews]) (by simp [hnews]))
  · obtain ⟨mac, hfalse, -⟩ := mem_copies hsends he
    exact hfalse.elim
  · obtain ⟨v, hv, hj, hg⟩ := hi.table w hw u g hin
    exact ⟨v, hv, hj, hg.imp_right fun ha => ha.received h (Or.inr (by simp [hnews]))⟩

theorem Agree.notify (hi : Agree d goal s) (h : s.flight[i]? = some (w, c)) {u o n : ℤ}
    (hnews : news c = .notify u o n)
    (hupdate : update { accepts := fun _ _ => true, now, stray } (s.inst w) c = .ok (p, effects)) :
    Agree d goal (GroupMap.received d s i w p effects) := by
  obtain ⟨groups, rfl, hgroups, hsends⟩ : ∃ groups, p = { s.inst w with groups } ∧
      (∀ u' g, InGroup groups u' g → InGroup (s.inst w).groups u' g ∨ (u' = u ∧ g = n)) ∧
      Sends (fun _ _ => False) effects := received_notify hupdate hnews
  have hok := hi.flight (w, c) (List.mem_of_getElem? h)
  rw [hnews] at hok
  obtain ⟨v, hv, hj, hn⟩ := hok
  refine hi.received h rfl rfl (fun e he => ?_) (fun hw u' g hin => ?_)
    (hi.current_received h rfl (by simp [hnews]) (by simp [hnews]))
  · obtain ⟨mac, hfalse, -⟩ := mem_copies hsends he
    exact hfalse.elim
  · rcases hgroups u' g hin with hin | ⟨rfl, rfl⟩
    · obtain ⟨v', hv', hj', hg⟩ := hi.table w hw u' g hin
      exact ⟨v', hv', hj', hg.imp_right fun ha => ha.received h (Or.inr (by simp [hnews]))⟩
    · exact ⟨v, hv, hj, Or.inl hn⟩

/-- The vehicle is assigned its group. -/
theorem Agree.assign (hi : Agree d goal s) (h : s.flight[i]? = some (w, c)) {gid : ℤ}
    (hnews : news c = .assign gid)
    (hupdate : update { accepts := fun _ _ => true, now, stray } (s.inst w) c = .ok (p, effects)) :
    Agree d goal (GroupMap.received d s i w p effects) := by
  have hok := hi.flight (w, c) (List.mem_of_getElem? h)
  rw [hnews] at hok
  obtain ⟨hj, rfl⟩ : s.joined w = true ∧ gid = goal w := hok
  obtain ⟨rfl, hsends⟩ := received_assign (hi.valid w hj) hupdate hnews
  have hid : vmIdFromMac (s.inst w).address = d.id w := congrArg vmIdFromMac (hi.address w)
  refine hi.received h rfl rfl (fun e he => ?_) (fun hw u g hin => ?_) (fun v hv => ?_)
  · obtain ⟨mac, hn | hn, -, -⟩ := mem_copies hsends he
    · rw [hn, hid]
      exact ⟨w, rfl, hj, rfl⟩
    · rw [hn]
      trivial
  · rcases inGroup_inGroup hin with hin | ⟨rfl, rfl⟩
    · obtain ⟨v, hv, hjv, hg⟩ := hi.table w hw u g hin
      exact ⟨v, hv, hjv, hg.imp_right fun ha => ha.received h (Or.inr (by simp [hnews]))⟩
    · exact ⟨w, hid.symm, hj, Or.inl rfl⟩
  · by_cases hvw : v = w
    · subst hvw
      left
      simp only [GroupMap.received, Function.update_self]
      rfl
    · rcases hi.current v hv with hcur | ⟨w', hw', ha⟩ | ha
      · left
        simp only [GroupMap.received]
        rw [Function.update_of_ne hvw, hcur]
      · exact Or.inr (Or.inl ⟨w', hw', ha.received h (Or.inr (by simp [hnews]))⟩)
      · exact Or.inr (Or.inr (ha.received h (Or.inl hvw)))

/-- A machine hears a request; the coordinator of the new group answers with the assignment
that the vehicle then waits for. -/
theorem Agree.request (hi : Agree d goal s) (h : s.flight[i]? = some (w, c)) {r gid : ℤ}
    (hnews : news c = .request r gid)
    (hupdate : update { accepts := fun _ _ => true, now, stray } (s.inst w) c = .ok (p, effects)) :
    Agree d goal (GroupMap.received d s i w p effects) := by
  have hok := hi.flight (w, c) (List.mem_of_getElem? h)
  rw [hnews] at hok
  obtain ⟨v, rfl, hj, rfl, hne⟩ := hok
  obtain ⟨groups, rfl, hplaced, hsends, hanswer⟩ := received_request (hi.valid v hj) hupdate hnews
  refine hi.received h rfl rfl (fun e he => ?_) (fun hw u g hin => ?_) (fun u hu => ?_)
  · obtain ⟨mac, hn | ⟨hn, hmac, hcast⟩, -, hdst⟩ := mem_copies hsends he
    · rw [hn]
      exact ⟨v, rfl, hj, rfl⟩
    · have hev : e.1 = v := d.distinct _ _ ((hdst.resolve_left hcast).trans hmac)
      rw [hn, hev]
      exact ⟨hj, rfl⟩
  · dsimp only at hin
    by_cases hu : u = d.id v
    · subst hu
      exact ⟨v, rfl, hj, Or.inl ((hplaced.self g).mp hin)⟩
    · obtain ⟨v', hv', hj', hg⟩ := hi.table w hw u g ((hplaced.of_ne hu g).mp hin)
      refine ⟨v', hv', hj', hg.imp_right fun ha => ha.received h (Or.inr fun g' heq => ?_)⟩
      rw [hnews] at heq
      injection heq with heq
      exact hu heq.symm
  · rcases hi.current u hu with hcur | ⟨w', hw', ha⟩ | ha
    · left
      simp only [GroupMap.received]
      by_cases huw : u = w
      · subst huw
        rw [Function.update_self]
        exact hcur
      · rw [Function.update_of_ne huw, hcur]
    · by_cases hlast : w' = w ∧ u = v
      · obtain ⟨rfl, rfl⟩ := hlast
        have hcoord : vmIdFromMac (s.inst w').address = knownCoordinator (goal u) :=
          (congrArg vmIdFromMac (hi.address w')).trans hw'
        obtain ⟨kind, src, dst, payload, hx, hdst, hassign⟩ := hanswer hcoord
        refine Or.inr (Or.inr ⟨_,
          List.mem_append_right _ (copy_of_transmit hx hne (Or.inr hdst.symm)), rfl, _, hassign⟩)
      · refine Or.inr (Or.inl ⟨w', hw', ha.received h ?_⟩)
        by_cases hww : w' = w
        · refine Or.inr fun g heq => hlast ⟨hww, ?_⟩
          rw [hnews] at heq
          injection heq with heq
          exact d.distinct _ _ heq.symm
        · exact Or.inl hww
    · exact Or.inr (Or.inr (ha.received h (Or.inr (by simp [hnews]))))

end Received

theorem agree_step {a : Action V} (hi : ∃ goal, Agree d goal s) (hpatient : patient d s a = true)
    (h : step d s a = some s') : ∃ goal, Agree d goal s' := by
  obtain ⟨goal, hi⟩ := hi
  cases a with
  | join v gid time => exact ⟨_, hi.join h⟩
  | move v gid time => exact ⟨_, hi.move hpatient h⟩
  | deliver i now stray =>
    simp only [step] at h
    split at h
    · cases h
    · rename_i w c hflight
      split at h
      · rename_i p effects hupdate
        cases h
        refine ⟨goal, ?_⟩
        cases hnews : news c with
        | request r gid => exact hi.request hflight hnews hupdate
        | notify u o n => exact hi.notify hflight hnews hupdate
        | assign gid => exact hi.assign hflight hnews hupdate
        | data => exact hi.data hflight hnews hupdate
        | other =>
          have hok := hi.flight (w, c) (List.mem_of_getElem? hflight)
          rw [hnews] at hok
          exact hok.elim
      · cases h

end Invariant

section Agreement

variable {V : Type} [DecidableEq V] (d : Vehicles V)

/-- No message about groups is in flight; a coordinator's announcement of its members is not
one. -/
def Quiet (s : State V) : Prop := ∀ e ∈ s.flight, news e.2 = .data

/-- In every run in which the vehicles that ask for another group are no coordinators and
have no message about themselves in flight when they ask, whatever the order of delivery,
all coordinators that know a vehicle have it in its own current group alone whenever nothing
is in flight. -/
theorem coordinators_agree (s : State V)
    (h : Reaches (step d) (fun s a => patient d s a = true) (initial d) s) (hquiet : Quiet s) :
    ∀ w, d.isCoordinator w = true → ∀ v g, InGroup (s.inst w).groups (d.id v) g →
      g = (s.inst v).currentGroupId := by
  obtain ⟨goal, hagree⟩ : ∃ goal, Agree d goal s :=
    h.invariant (fun s => ∃ goal, Agree d goal s) ⟨_, agree_initial⟩
      fun _ _ _ hi hpatient hstep => agree_step hi hpatient hstep
  have hasked : ∀ w u, ¬ Asked s w u := by
    rintro w u ⟨e, he, -, g, hg⟩
    rw [hquiet e he] at hg
    cases hg
  have hassigned : ∀ v, ¬ Assigned s v := by
    rintro v ⟨e, he, -, g, hg⟩
    rw [hquiet e he] at hg
    cases hg
  intro w hw v g hin
  obtain ⟨v', hv', hj, hg⟩ := hagree.table w hw _ g hin
  obtain rfl := d.distinct _ _ hv'
  have hgoal : g = goal v' := hg.resolve_right (hasked _ _)
  rcases hagree.current v' hj with hcur | ⟨w', -, ha⟩ | ha
  · exact hgoal.trans hcur.symm
  · exact (hasked _ _ ha).elim
  · exact (hassigned _ ha).elim

end Agreement

section Sample

open CarNetwork.Fleet.Deployment (vmMac)

/-- The four coordinators and one car. -/
inductive SampleVm
  | zero
  | ten
  | twenty
  | thirty
  | car
  deriving DecidableEq

def SampleVm.octet : SampleVm → UInt8
  | zero => 0
  | ten => 10
  | twenty => 20
  | thirty => 30
  | car => 5

def sampleVehicles : Vehicles SampleVm where
  vms := [.zero, .ten, .twenty, .thirty, .car]
  complete v := by cases v <;> decide
  nodup := by decide
  mac v := vmMac v.octet
  distinct v w h := by
    have hoctet : (v.octet.toNat : ℤ) = w.octet.toNat := h
    revert hoctet
    cases v <;> cases w <;> decide
  coordinators c hc := by
    simp only [GROUP_COORDINATORS, List.mem_cons, List.not_mem_nil, or_false] at hc
    rcases hc with rfl | rfl | rfl | rfl
    exacts [⟨.zero, rfl⟩, ⟨.ten, rfl⟩, ⟨.twenty, rfl⟩, ⟨.thirty, rfl⟩]

def deliverAt (i : ℕ) : Action SampleVm := .deliver i (fun _ => 0) (fun _ => 0)

/-- The car joins group 1, everything is delivered, and then it moves to group 2. -/
theorem patient_car_agrees :
    ∃ s, Reaches (step sampleVehicles) (fun s a => patient sampleVehicles s a = true)
      (initial sampleVehicles) s ∧ InGroup (s.inst .ten).groups 5 2 ∧
        (s.inst .car).currentGroupId = 2 ∧
      ∀ g, InGroup (s.inst .ten).groups 5 g → g = (s.inst .car).currentGroupId := by
  have hrun : (runIf (patient sampleVehicles) (step sampleVehicles) (initial sampleVehicles)
      ([.join .car 1 0, deliverAt 0, .move .car 2 0] ++ List.replicate 9 (deliverAt 0))).map
      (fun s => (decide (InGroup (s.inst .ten).groups 5 2), (s.inst .car).currentGroupId,
        s.flight)) =
        some (true, 2, []) := by
    decide +kernel
  obtain ⟨s, hs, hobs⟩ := exists_reaches_of_runIf (fun s a => patient sampleVehicles s a = true) _
    (fun _ _ _ h => h) hrun
  obtain ⟨hin, hrest⟩ := Prod.mk.inj hobs
  obtain ⟨hcur, hflight⟩ := Prod.mk.inj hrest
  have hquiet : Quiet s := by simp [Quiet, hflight]
  exact ⟨s, hs, of_decide_eq_true hin, hcur,
    fun g hg => coordinators_agree sampleVehicles s hs hquiet .ten (by decide) .car g hg⟩

/-- The car moves to group 2 while its first notification is still under way; when that
arrives last, coordinator 10 has the car in two groups. -/
theorem late_notification_disagrees :
    ∃ s, Reachable (step sampleVehicles) (initial sampleVehicles) s ∧ s.flight = [] ∧
      InGroup (s.inst .ten).groups 5 1 ∧ InGroup (s.inst .ten).groups 5 2 ∧
      (s.inst .car).currentGroupId = 2 := by
  have hrun : (run (step sampleVehicles) (initial sampleVehicles)
      ([.join .car 1 0, .move .car 2 0] ++ List.replicate 9 (deliverAt 1) ++ [deliverAt 0])).map
      (fun s => (s.flight, decide (InGroup (s.inst .ten).groups 5 1),
        decide (InGroup (s.inst .ten).groups 5 2),
        (s.inst .car).currentGroupId)) = some ([], true, true, 2) := by
    decide +kernel
  obtain ⟨s, hs, hobs⟩ := exists_reachable_of_run _ hrun
  obtain ⟨hflight, hrest⟩ := Prod.mk.inj hobs
  obtain ⟨hone, hrest⟩ := Prod.mk.inj hrest
  obtain ⟨htwo, hcur⟩ := Prod.mk.inj hrest
  exact ⟨s, hs, hflight, of_decide_eq_true hone, of_decide_eq_true htwo, hcur⟩

end Sample

end CarNetwork.GroupMap
