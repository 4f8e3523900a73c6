import CarNetwork.CarGroups
import CarNetwork.GroupMessages

/-!
# The group table of one node

Six places of the program write into `_groups`, and each of them removes a vehicle from
other groups than the next one does. What they have in common, as long as they are used
with care, is that they leave one vehicle in one group alone and all others where they
were.
-/
namespace CarNetwork.Protocol

open CarNetwork.ByteText CarNetwork.DecimalText CarNetwork.Conversions CarNetwork.Ethernet
open CarNetwork.Runs GroupTable

/-- A protocol instance; `joined` once its group has been set. -/
structure TableNode where
  inst : Instance
  joined : Bool := false

inductive TableAction
  | setCurrentGroup (gid : ℤ) (time : UInt64)
  | setGroupForVm (vmId gid : ℤ)
  | receive (env : Env) (c : AsyncCapsule)

theorem assignedGroup_eq {env : Env} {c : AsyncCapsule} : assignedGroup env c =
    (acceptedMessage env c).bind fun msg =>
      if msg.control = .GROUP_ASSIGN then (stoi msg.body).toOption else none := by
  unfold assignedGroup acceptedMessage
  cases parseMessage c.payload with
  | error e => rfl
  | ok msg =>
    dsimp only
    by_cases hassign : msg.control = .GROUP_ASSIGN
    · by_cases haccepts : env.accepts msg.msgac msg.body = true
      · cases hs : stoi (cleanBody msg.body) <;> simp [hassign, haccepts, hs, Except.toOption]
      · simp [hassign, haccepts]
    · by_cases hok : msg.control ≠ .NONE ∧ env.accepts msg.msgac msg.body = true
      · simp [hassign, hok]
      · simp [hassign, hok]

namespace TableNode

def own (s : TableNode) : ℤ := vmIdFromMac s.inst.address

/-- An exception ends the process. -/
def step (s : TableNode) : TableAction → Option TableNode
  | .setCurrentGroup gid time =>
    match Protocol.setCurrentGroup s.inst gid time with
    | .ok (p, _) => some ⟨p, true⟩
    | .error _ => none
  | .setGroupForVm vmId gid =>
    some { s with inst := { s.inst with groups := s.inst.groups.setGroupForVm vmId gid } }
  | .receive env c =>
    match update env s.inst c with
    | .ok (p, _) => some ⟨p, s.joined || (assignedGroup env c).isSome⟩
    | .error _ => none

/-- A node with an empty table. -/
def start (p : Instance) : TableNode := ⟨{ p with groups := [] }, false⟩

/-! ## Steps with care -/

/-- The vehicle is in no group but those of the list. -/
def alone (s : TableNode) (vmId : ℤ) (gids : List ℤ) : Bool :=
  s.inst.groups.all fun e => decide (vmId ∈ e.2.members → e.1 ∈ gids)

/-- Once the node has joined, its own vehicle is only put in its current group. -/
def agrees (s : TableNode) (vmId gid : ℤ) : Bool :=
  decide (vmId = s.own → s.joined = true → gid = s.inst.currentGroupId)

/-- The entry of the group is there, or a new entry has the right id by default. -/
def prepared (s : TableNode) (gid : ℤ) : Bool := s.inst.groups.hasEntry gid || decide (gid = 0)

def carefulMessage (s : TableNode) (env : Env) (msg : Message) : Bool :=
  match msg.control with
  | .GROUP_MOVE_REQUEST =>
    match stoi msg.body with
    | .ok gid =>
      (decide (s.own = knownCoordinator gid) || s.prepared gid) && s.agrees msg.origVm.toNat gid
    | .error _ => true
  | .GROUP_MOVE_NOTIFY =>
    match scanNotify msg.body with
    | some (vmId, oldGid, newGid) =>
      !(decide (s.own = coordinatorForGroup env oldGid ∨ s.own = coordinatorForGroup env newGid)) ||
        (s.alone vmId [oldGid, newGid] && s.agrees vmId newGid)
    | none => true
  | .GROUP_ASSIGN =>
    match stoi msg.body with
    | .ok gid => s.alone s.own [gid]
    | .error _ => true
  | _ => true

/-- The condition on a step, in the state before it: the own vehicle is assigned a group
while it is in no other one; a vehicle is moved to a group that has an entry, away from all
the groups it is in, and the own vehicle only to the current group. -/
def careful (s : TableNode) : TableAction → Bool
  | .setCurrentGroup gid _ => s.alone s.own [gid]
  | .setGroupForVm vmId gid => s.prepared gid && s.agrees vmId gid
  | .receive env c =>
    match acceptedMessage env c with
    | some msg => s.carefulMessage env msg
    | none => true

theorem alone_iff {s : TableNode} {vmId : ℤ} {gids : List ℤ} :
    s.alone vmId gids = true ↔ ∀ g, InGroup s.inst.groups vmId g → g ∈ gids := by
  simp only [alone, List.all_eq_true, decide_eq_true_eq, InGroup]
  constructor
  · rintro h g ⟨e, he, rfl, hv⟩
    exact h e he hv
  · intro h e he hv
    exact h e.1 ⟨e, he, rfl, hv⟩

theorem agrees_iff {s : TableNode} {vmId gid : ℤ} :
    s.agrees vmId gid = true ↔ (vmId = s.own → s.joined = true → gid = s.inst.currentGroupId) :=
  decide_eq_true_iff

theorem prepared_iff {s : TableNode} {gid : ℤ} :
    s.prepared gid = true ↔ s.inst.groups.hasEntry gid = true ∨ gid = 0 := by
  simp [prepared]

/-! ## The invariant -/

structure Ok (s : TableNode) : Prop where
  wellFormed : WellFormed s.inst.groups
  single : ∀ v g g', InGroup s.inst.groups v g → InGroup s.inst.groups v g' → g = g'
  own : s.joined = true → ∀ g, InGroup s.inst.groups s.own g ↔ g = s.inst.currentGroupId

/-- What a careful step does to the table and the group. -/
inductive Change (s s' : TableNode) : Prop
  | unchanged (groups : s'.inst.groups = s.inst.groups)
      (current : s'.inst.currentGroupId = s.inst.currentGroupId) (joined : s'.joined = s.joined)
  | moved (vmId gid : ℤ) (placed : Placed s.inst.groups s'.inst.groups vmId gid)
      (agrees : vmId = s.own → s.joined = true → gid = s.inst.currentGroupId)
      (current : s'.inst.currentGroupId = s.inst.currentGroupId) (joined : s'.joined = s.joined)
  | joins (placed : Placed s.inst.groups s'.inst.groups s.own s'.inst.currentGroupId)
      (joined : s'.joined = true)

theorem Ok.change {s s' : TableNode} (hi : Ok s) (hwf : WellFormed s'.inst.groups)
    (haddress : s'.inst.address = s.inst.address) (h : Change s s') : Ok s' := by
  have hown : s'.own = s.own := congrArg vmIdFromMac haddress
  have hsingle : ∀ r gid, Placed s.inst.groups s'.inst.groups r gid → ∀ v g g',
      InGroup s'.inst.groups v g → InGroup s'.inst.groups v g' → g = g' := by
    intro r gid hplaced v g g' hg hg'
    by_cases hv : v = r
    · subst hv
      exact ((hplaced.self g).mp hg).trans ((hplaced.self g').mp hg').symm
    · exact hi.single v g g' ((hplaced.of_ne hv g).mp hg) ((hplaced.of_ne hv g').mp hg')
  cases h with
  | unchanged groups current joined =>
    refine ⟨hwf, ?_, ?_⟩
    · rw [groups]
      exact hi.single
    · rw [joined, hown, groups, current]
      exact hi.own
  | moved vmId gid placed agrees current joined =>
    refine ⟨hwf, hsingle vmId gid placed, ?_⟩
    rw [joined, hown, current]
    intro hj g
    by_cases hv : s.own = vmId
    · rw [hv, placed.self, agrees hv.symm hj]
    · rw [placed.of_ne hv]
      exact hi.own hj g
  | joins placed joined =>
    refine ⟨hwf, hsingle _ _ placed, fun _ g => ?_⟩
    rw [hown]
    exact placed.self g

/-! ## The steps -/

section Steps

variable {s s' : TableNode} {env : Env} {msg : Message} {c : AsyncCapsule} {r : Handled}

theorem wellFormed_join (hi : Ok s) (gid : ℤ) : WellFormed (inGroup s.inst gid).groups :=
  hi.wellFormed.update_id fun _ => groupId_insertMember _

theorem placed_join {gid : ℤ} (halone : s.alone s.own [gid] = true) :
    Placed s.inst.groups (inGroup s.inst gid).groups s.own gid := by
  have hother : ∀ g, InGroup s.inst.groups s.own g → g = gid := by simpa using alone_iff.mp halone
  exact placed_registered hother

/-- The coordinator registers a vehicle in the group where it knows it, or in its own. -/
theorem register_change (hi : Ok s) (h : onGroupRegister env s.inst msg = .ok r) :
    r.inst.address = s.inst.address ∧ WellFormed r.inst.groups ∧ Change s ⟨r.inst, s.joined⟩ := by
  rw [onGroupRegister_eq] at h
  cases h
  split
  · have hknown : ∀ g, InGroup s.inst.groups msg.origVm.toNat g →
        g = registerGroup s.inst msg.origVm.toNat := by
      intro g hg
      rw [registerGroup, (getGroupOf_eq_some_iff (hi.single _)).mpr hg]
      rfl
    refine ⟨rfl, hi.wellFormed.update_id fun _ => groupId_insertMember _,
      .moved msg.origVm.toNat _ (placed_registered hknown) ?_ rfl rfl⟩
    intro hown hj
    exact (hknown _ (hown ▸ (hi.own hj _).mpr rfl)).symm
  · exact ⟨rfl, hi.wellFormed, .unchanged rfl rfl rfl⟩

theorem request_change (hi : Ok s) (hcontrol : msg.control = .GROUP_MOVE_REQUEST)
    (hcareful : s.carefulMessage env msg = true) (h : onGroupMoveRequest env s.inst msg = .ok r) :
    r.inst.address = s.inst.address ∧ WellFormed r.inst.groups ∧ Change s ⟨r.inst, s.joined⟩ := by
  cases hbody : stoi msg.body with
  | error e => simp [onGroupMoveRequest, hbody, bind, Except.bind] at h
  | ok gid =>
    simp only [carefulMessage, hcontrol, hbody, Bool.and_eq_true, Bool.or_eq_true,
      decide_eq_true_eq] at hcareful
    obtain ⟨hready, hagrees⟩ := hcareful
    by_cases hcoord : vmIdFromMac s.inst.address = knownCoordinator gid
    · rw [onGroupMoveRequest_coordinator hbody hcoord] at h
      cases h
      exact ⟨rfl, wellFormed_answeredTable hi.wellFormed _ _,
        .moved _ gid (placed_answeredTable _ _ _) (agrees_iff.mp hagrees) rfl rfl⟩
    · rw [onGroupMoveRequest_other hbody hcoord] at h
      cases h
      exact ⟨rfl, hi.wellFormed.setGroupForVm (prepared_iff.mp (hready.resolve_left hcoord)),
        .moved _ gid (placed_setGroupForVm _ _ _) (agrees_iff.mp hagrees) rfl rfl⟩

theorem notify_change (hi : Ok s) (hcontrol : msg.control = .GROUP_MOVE_NOTIFY)
    (hcareful : s.carefulMessage env msg = true) :
    (onGroupMoveNotify env s.inst msg).inst.address = s.inst.address ∧
      WellFormed (onGroupMoveNotify env s.inst msg).inst.groups ∧
      Change s ⟨(onGroupMoveNotify env s.inst msg).inst, s.joined⟩ := by
  cases hbody : scanNotify msg.body with
  | none =>
    rw [onGroupMoveNotify, hbody]
    exact ⟨rfl, hi.wellFormed, .unchanged rfl rfl rfl⟩
  | some b =>
    obtain ⟨vmId, oldGid, newGid⟩ := b
    rw [onGroupMoveNotify_eq hbody]
    split
    · rename_i happlies
      simp only [carefulMessage, hcontrol, hbody, Bool.or_eq_true, Bool.and_eq_true,
        Bool.not_eq_true', decide_eq_false_iff_not] at hcareful
      obtain ⟨halone, hagrees⟩ := hcareful.resolve_left fun hno => hno happlies
      have hthird : ∀ g, InGroup s.inst.groups vmId g → g = oldGid ∨ g = newGid := by
        simpa using alone_iff.mp halone
      exact ⟨rfl, wellFormed_notifiedTable hi.wellFormed _ _ _,
        .moved vmId newGid (placed_notifiedTable hi.wellFormed.keys hthird)
          (agrees_iff.mp hagrees) rfl rfl⟩
    · exact ⟨rfl, hi.wellFormed, .unchanged rfl rfl rfl⟩

theorem assign_change (hi : Ok s) (hcontrol : msg.control = .GROUP_ASSIGN)
    (hcareful : s.carefulMessage env msg = true) (h : onGroupAssign env s.inst msg = .ok r) :
    r.inst.address = s.inst.address ∧ WellFormed r.inst.groups ∧
      Change s ⟨r.inst, s.joined || (stoi msg.body).toOption.isSome⟩ := by
  cases hbody : stoi msg.body with
  | error e =>
    rw [onGroupAssign_error hbody] at h
    cases h
    exact ⟨rfl, hi.wellFormed, .unchanged rfl rfl (Bool.or_false _)⟩
  | ok gid =>
    obtain ⟨effects, -, heq⟩ := onGroupAssign_ok env s.inst hbody
    simp only [carefulMessage, hcontrol, hbody] at hcareful
    rw [heq] at h
    cases h
    exact ⟨rfl, wellFormed_join hi gid, .joins (placed_join hcareful) (Bool.or_true _)⟩

/-- A careful message changes the table as a move or a join does. -/
theorem handle_change (hi : Ok s) (hcareful : s.carefulMessage env msg = true)
    (h : handle env s.inst msg c = .ok r) :
    r.inst.address = s.inst.address ∧ WellFormed r.inst.groups ∧ Change s ⟨r.inst, s.joined ||
      (if msg.control = .GROUP_ASSIGN then (stoi msg.body).toOption else none).isSome⟩ := by
  by_cases hgroup : msg.control.isGroup = false
  · obtain ⟨hgroups, hcurrent, haddress⟩ := handle_keeps h hgroup
    have hassign : msg.control ≠ .GROUP_ASSIGN := by
      intro ht
      simp [ht, ControlType.isGroup] at hgroup
    refine ⟨haddress, hgroups ▸ hi.wellFormed, .unchanged hgroups hcurrent ?_⟩
    simp [hassign]
  · unfold ControlType.isGroup at hgroup
    split at hgroup
    · rename_i ht
      rw [handle, ht] at h
      simpa [ht] using register_change hi h
    · rename_i ht
      rw [handle, ht] at h
      simpa [ht] using request_change hi ht hcareful h
    · rename_i ht
      rw [handle, ht] at h
      cases h
      simpa [ht] using notify_change hi ht hcareful
    · rename_i ht
      rw [handle, ht] at h
      simpa [ht] using assign_change hi ht hcareful h
    · exact (hgroup rfl).elim

theorem step_ok {a : TableAction} (hi : Ok s) (hcareful : s.careful a = true)
    (h : s.step a = some s') : Ok s' := by
  cases a with
  | setCurrentGroup gid time =>
    obtain ⟨effects, heq, -⟩ := setCurrentGroup_spec s.inst gid time
    simp only [step, heq, Option.some.injEq] at h
    subst h
    exact hi.change (wellFormed_join hi gid) rfl (.joins (placed_join hcareful) rfl)
  | setGroupForVm vmId gid =>
    simp only [step, Option.some.injEq] at h
    subst h
    simp only [careful, Bool.and_eq_true] at hcareful
    exact hi.change (hi.wellFormed.setGroupForVm (prepared_iff.mp hcareful.1)) rfl
      (.moved vmId gid (placed_setGroupForVm _ _ _) (agrees_iff.mp hcareful.2) rfl rfl)
  | receive env c =>
    simp only [step] at h
    split at h
    · rename_i p effects hupdate
      cases h
      rcases update_cases hupdate with ⟨hnone, rfl, -⟩ | ⟨msg, r, more, hmsg, hr, rfl, -, -⟩
      · refine hi.change hi.wellFormed rfl (.unchanged rfl rfl ?_)
        simp [assignedGroup_eq, hnone]
      · simp only [careful, hmsg] at hcareful
        obtain ⟨haddress, hwf, hchange⟩ := handle_change hi hcareful hr
        rw [assignedGroup_eq, hmsg, Option.bind_some]
        exact hi.change hwf haddress hchange
    · cases h

end Steps

theorem start_ok (p : Instance) : Ok (start p) where
  wellFormed := ⟨List.nodup_nil, by simp [start]⟩
  single v g g' h := by simp [start] at h
  own h := by cases h

/-- In every run of careful steps a vehicle is in one group at most, so that the search does
not depend on the order of the entries; the own vehicle is in the current group alone once
that has been set; and every entry carries its key. -/
theorem group_table_ok (p : Instance) (s : TableNode)
    (h : Reaches step (fun s a => s.careful a = true) (start p) s) :
    (∀ v g g', InGroup s.inst.groups v g → InGroup s.inst.groups v g' → g = g') ∧
    (∀ v t', t'.Perm s.inst.groups → getGroupOf t' v = getGroupOf s.inst.groups v) ∧
    (s.joined = true → ∀ g, InGroup s.inst.groups s.own g ↔ g = s.inst.currentGroupId) ∧
    ∀ e ∈ s.inst.groups, e.2.groupId = e.1 := by
  have hok : Ok s := h.invariant Ok (start_ok p) fun _ _ _ hi hcareful hstep =>
    step_ok hi hcareful hstep
  exact ⟨hok.single, fun v t' hperm => getGroupOf_perm (hok.single v) hperm, hok.own,
    hok.wellFormed.ids⟩

section Sample

/-- The frame of a control message from vehicle 7. -/
def sampleFrame (type : ControlType) (body : Bytes) : AsyncCapsule where
  src := ⟨vmAddress 7, GATEWAY_PORT⟩
  dst := ⟨Address.BROADCAST, GATEWAY_PORT⟩
  origin := .ethernet
  payload := buildMessage { control := type, origVm := 7, body }

/-- The coordinator of group 0 registers vehicle 7 and is told that it has moved to group 1. -/
theorem registered_vehicle_moves :
    ∃ s, Reaches step (fun s a => s.careful a = true) (start { address := vmAddress 0 }) s ∧
      InGroup s.inst.groups 7 1 ∧ ∀ g, InGroup s.inst.groups s.own g ↔
        g = s.inst.currentGroupId := by
  have hrun : (runIf careful step (start { address := vmAddress 0 })
      [.setCurrentGroup 0 0, .receive acceptingEnv (sampleFrame .GROUP_REGISTER []),
        .receive acceptingEnv (sampleFrame .GROUP_MOVE_NOTIFY (notifyBody 7 0 1))]).map
      (fun s => (s.joined, decide (InGroup s.inst.groups 7 1))) = some (true, true) := by
    decide +kernel
  obtain ⟨s, hs, hobs⟩ := exists_reaches_of_runIf (fun s a => careful s a = true) _
    (fun _ _ _ h => h) hrun
  obtain ⟨hjoined, hseven⟩ := Prod.mk.inj hobs
  exact ⟨s, hs, of_decide_eq_true hseven, (group_table_ok _ s hs).2.2.1 hjoined⟩

/-- A vehicle that has joined group 0 and is assigned group 1 is in both. -/
theorem assigned_vehicle_in_two_groups :
    ∃ s, Reachable step (start { address := vmAddress 5 }) s ∧
      InGroup s.inst.groups 5 0 ∧ InGroup s.inst.groups 5 1 := by
  have hrun : (run step (start { address := vmAddress 5 })
      [.setCurrentGroup 0 0, .receive acceptingEnv (sampleFrame .GROUP_ASSIGN (intText 1))]).map
      (fun s => (decide (InGroup s.inst.groups 5 0), decide (InGroup s.inst.groups 5 1))) =
        some (true, true) := by
    decide +kernel
  obtain ⟨s, hs, hobs⟩ := exists_reachable_of_run _ hrun
  obtain ⟨hold, hnew⟩ := Prod.mk.inj hobs
  exact ⟨s, hs, of_decide_eq_true hold, of_decide_eq_true hnew⟩

end Sample

end TableNode

end CarNetwork.Protocol
