import CarNetwork.GroupMessages
import CarNetwork.Fleet

/-!
# A move request and its answer

A vehicle that wants to change its group broadcasts a request. Every machine that hears it
first moves the vehicle in its own table and then decides from that table whether it is the
one to answer.
-/
namespace CarNetwork.Protocol

open CarNetwork.ByteText CarNetwork.DecimalText CarNetwork.Conversions CarNetwork.Ethernet
open GroupTable

/-- The answer to a move request: one notification for each other coordinator and the
assignment. -/
def answers (myVm r gid : ℤ) : List (SendKind × ℤ × Bytes) :=
  (GROUP_COORDINATORS.filter (· ≠ myVm)).map
      (fun c => (.control .GROUP_MOVE_NOTIFY, c, notifyBody r gid gid)) ++
    [(.control .GROUP_ASSIGN, r, intText gid)]

theorem sent_notes (env : Env) (p : Instance) (body : Bytes) {cs : List ℤ}
    (hcs : ∀ c ∈ cs, 0 ≤ c ∧ c ≤ 255) (i : ℕ) :
    sent ((cs.zipIdx i).map fun e => note env p body e.2 e.1) =
      cs.map fun c => (.control .GROUP_MOVE_NOTIFY, c, body) := by
  induction cs generalizing i with
  | nil => rfl
  | cons c cs ih =>
    obtain ⟨h0, h255⟩ := hcs c List.mem_cons_self
    have hid : ((UInt8.ofNat c.toNat).toNat : ℤ) = c := by
      rw [UInt8.toNat_ofNat']
      omega
    have hhead : (note env p body i c).sent = some (.control .GROUP_MOVE_NOTIFY, c, body) := by
      simp only [note, Effect.sent, parse_build, controlMessage, vmIdFromMac_vmAddress, hid]
    have htail := ih (fun c hc => hcs c (List.mem_cons_of_mem _ hc)) (i + 1)
    simp only [List.zipIdx_cons, List.map_cons, sent, List.filterMap_cons, hhead] at htail ⊢
    rw [htail]

/-- Reception of an accepted move request. -/
theorem update_moveRequest (env : Env) (p : Instance) {c : AsyncCapsule} {m : Message} {gid : ℤ}
    (hp : c.payload = buildMessage m) (hm : m.control = .GROUP_MOVE_REQUEST)
    (hbody : m.body = intText gid) (hgid : 0 ≤ gid ∧ gid < 4)
    (haccepts : env.accepts m.msgac m.body = true) :
    ∃ groups effects, update env p c = .ok ({ p with groups }, effects) ∧
      Placed p.groups groups m.origVm.toNat gid ∧
      sent effects = if vmIdFromMac p.address = knownCoordinator gid
        then answers (vmIdFromMac p.address) m.origVm.toNat gid else [] := by
  have hstoi : stoi (cleanBody m.body) = .ok gid := by
    rw [hbody, cleanBody_intText, stoi_intText gid (inInt_group hgid)]
  rw [update_build hp, if_neg (by simp [haccepts])]
  simp only [handle, hm]
  by_cases hcoord : vmIdFromMac p.address = knownCoordinator gid
  · rw [onGroupMoveRequest_coordinator hstoi hcoord, if_pos hcoord]
    refine ⟨_, _, rfl, placed_answeredTable _ _ _, ?_⟩
    have hlen : (intText gid).length ≤ 1000 :=
      (length_intText_int (inInt_group hgid)).trans (by norm_num)
    have hcs : ∀ c ∈ GROUP_COORDINATORS.filter (· ≠ vmIdFromMac p.address), 0 ≤ c ∧ c ≤ 255 :=
      fun c hc => coordinators_range c (List.mem_filter.mp hc).1
    simp only [if_true, sent_append, sent_forwardToObservers, List.append_nil,
      sent_sendControl hlen, sent_notes env _ _ hcs, vmIdFromMac_vmAddress, answers]
  · rw [onGroupMoveRequest_other hstoi hcoord, if_neg hcoord]
    exact ⟨_, _, rfl, placed_setGroupForVm _ _ _, rfl⟩

/-! ## All machines -/

/-- The gateways of a fleet: every vehicle id once, the four coordinators among them, and
every control endpoint with the machine's own address, as `enable_start_sync` sets it. -/
structure Machines (V : Type) where
  inst : V → Instance
  distinct : Function.Injective fun v => vmIdFromMac (inst v).address
  coordinators : ∀ c ∈ GROUP_COORDINATORS, ∃ v, vmIdFromMac (inst v).address = c
  ownEndpoint : ∀ v, (inst v).controlLocal.mac = (inst v).address

namespace Machines

variable {V : Type} (s : Machines V)

def vm (v : V) : ℤ := vmIdFromMac (s.inst v).address

/-- The message of a machine's `move_group`. -/
def request (r : V) (gid : ℤ) (time : UInt64) : Message :=
  controlMessage (s.inst r) (s.inst r).controlLocal .GROUP_MOVE_REQUEST 0 (intText gid) time

theorem request_origVm (r : V) (gid : ℤ) (time : UInt64) :
    ((s.request r gid time).origVm.toNat : ℤ) = s.vm r := by
  have hbyte := uint8_ofInt_toNat (s.inst r).address.lastOctet
  simp only [request, controlMessage, s.ownEndpoint, vm, vmIdFromMac, hbyte]

theorem moveGroup_eq (r : V) {gid : ℤ} (hgid : 0 ≤ gid ∧ gid < 4) (time : UInt64) :
    moveGroup (s.inst r) gid time = [.transmit (.control .GROUP_MOVE_REQUEST)
      ⟨(s.inst r).address, (s.inst r).controlLocal.port⟩ (broadcastEndpoint (s.inst r))
      (buildMessage (s.request r gid time))] :=
  sendControl_eq ((length_intText_int (inInt_group hgid)).trans (by norm_num))

/-- What every machine makes of a request. -/
theorem update_request (env : V → Env) (haccepts : ∀ v tag body, (env v).accepts tag body = true)
    {r : V} {gid : ℤ} (hgid : 0 ≤ gid ∧ gid < 4) {time : UInt64} {c : AsyncCapsule}
    (hc : c.payload = buildMessage (s.request r gid time)) (v : V) :
    ∃ groups effects, update (env v) (s.inst v) c = .ok ({ s.inst v with groups }, effects) ∧
      Placed (s.inst v).groups groups (s.vm r) gid ∧
      sent effects = if s.vm v = knownCoordinator gid then answers (s.vm v)
        (s.vm r) gid else [] := by
  have hupdate := update_moveRequest (env v) (s.inst v) hc rfl rfl hgid (haccepts v _ _)
  rwa [s.request_origVm] at hupdate

end Machines

theorem answers_ne_nil (myVm r gid : ℤ) : answers myVm r gid ≠ [] := by simp [answers]

theorem three_other_coordinators {gid : ℤ} (hgid : 0 ≤ gid ∧ gid < 4) :
    (GROUP_COORDINATORS.filter (· ≠ knownCoordinator gid)).length = 3 := by
  obtain ⟨h0, h4⟩ := hgid
  interval_cases gid <;> decide

theorem knownCoordinator_injective {g g' : ℤ} (hg : 0 ≤ g ∧ g < 4) (hg' : 0 ≤ g' ∧ g' < 4)
    (h : knownCoordinator g = knownCoordinator g') : g = g' := by
  obtain ⟨h0, h4⟩ := hg
  obtain ⟨h0', h4'⟩ := hg'
  interval_cases g <;> interval_cases g' <;> first | rfl | exact absurd h (by decide)

/-- The machine that answers is the coordinator of the requester's old group, the others
leave their tables alone, and the notification names the old group. -/
def HandledByOldCoordinator {V : Type} (s : Machines V) (r : V) (old gid : ℤ)
    (after : V → Instance × List Effect) : Prop :=
  (∀ v, v ≠ r → (sent (after v).2 ≠ [] ↔ s.vm v = knownCoordinator old)) ∧
  (∀ v, v ≠ r → s.vm v ≠ knownCoordinator old → (after v).1.groups = (s.inst v).groups) ∧
  ∀ v, v ≠ r → ∀ m ∈ sent (after v).2, m.1 = .control .GROUP_MOVE_NOTIFY →
    m.2.2 = notifyBody (s.vm r) old gid

section Requests

variable {V : Type} (s : Machines V) (env : V → Env)
  (haccepts : ∀ v tag body, (env v).accepts tag body = true)
include haccepts

/-- One answer to a move request, whatever the tables of the machines say: the coordinator
of the requested group sends one notification to each other coordinator and the assignment,
nobody else sends anything, and everybody has the requester in that group alone. -/
theorem one_answer_per_move_request (r : V) (gid : ℤ) (hgid : 0 ≤ gid ∧ gid < 4)
    (hr : knownCoordinator gid ≠ s.vm r) (time : UInt64) :
    ∃ c : AsyncCapsule,
      moveGroup (s.inst r) gid time =
        [.transmit (.control .GROUP_MOVE_REQUEST) c.src c.dst c.payload] ∧
      c.dst.mac = Address.BROADCAST ∧
      ∃ after : V → Instance × List Effect,
        (∀ v, v ≠ r → update (env v) (s.inst v) c = .ok (after v)) ∧
        (∃ w, w ≠ r ∧ sent (after w).2 = answers (s.vm w) (s.vm r) gid ∧
          (GROUP_COORDINATORS.filter (· ≠ s.vm w)).length = 3 ∧
          ∀ v, v ≠ r → v ≠ w → sent (after v).2 = []) ∧
        ∀ v, v ≠ r → (after v).1.currentGroupId = (s.inst v).currentGroupId ∧
          ∀ u g, InGroup (after v).1.groups u g ↔
            if u = s.vm r then g = gid else InGroup (s.inst v).groups u g := by
  let c : AsyncCapsule := ⟨⟨(s.inst r).address, (s.inst r).controlLocal.port⟩,
    broadcastEndpoint (s.inst r), .ethernet, buildMessage (s.request r gid time)⟩
  choose groups effects hupdate hgroups hsent using s.update_request env haccepts hgid (c := c) rfl
  refine ⟨c, s.moveGroup_eq r hgid time, rfl,
    fun v => ({ s.inst v with groups := groups v }, effects v), fun v _ => hupdate v, ?_,
    fun v _ => ⟨rfl, hgroups v⟩⟩
  obtain ⟨w, hw⟩ := s.coordinators _ (knownCoordinator_mem hgid)
  have hvm : s.vm w = knownCoordinator gid := hw
  refine ⟨w, ?_, ?_, ?_, ?_⟩
  · rintro rfl
    exact hr hvm.symm
  · rw [hsent w, if_pos hvm]
  · rw [hvm]
    exact three_other_coordinators hgid
  · intro v _ hv
    have hne : s.vm v ≠ knownCoordinator gid := fun h => hv (s.distinct (h.trans hvm.symm))
    rw [hsent v, if_neg hne]

/-- A request for another group is never handled by the coordinator of the old one: the
coordinator of the new group answers if it hears the request, and nobody does otherwise. -/
theorem old_coordinator_never_handles (r : V) (old gid : ℤ) (hold : 0 ≤ old ∧ old < 4)
    (hgid : 0 ≤ gid ∧ gid < 4) (hne : gid ≠ old) (time : UInt64) (c : AsyncCapsule)
    (hc : moveGroup (s.inst r) gid time =
      [.transmit (.control .GROUP_MOVE_REQUEST) c.src c.dst c.payload]) (after :
        V → Instance × List Effect) (hafter :
          ∀ v, v ≠ r → update (env v) (s.inst v) c = .ok (after v)) :
    ¬ HandledByOldCoordinator s r old gid after := by
  rintro ⟨hanswers, -, -⟩
  have hpayload : c.payload = buildMessage (s.request r gid time) := by
    rw [s.moveGroup_eq r hgid time] at hc
    injection hc with hhead
    injection hhead with _ _ _ hpayload
    exact hpayload.symm
  have hcoord : knownCoordinator gid ≠ knownCoordinator old :=
    fun h => hne (knownCoordinator_injective hgid hold h)
  have hsent : ∀ v, v ≠ r → (sent (after v).2 ≠ [] ↔ s.vm v = knownCoordinator gid) := by
    intro v hv
    obtain ⟨groups, effects, hupdate, -, hsent⟩ := s.update_request env haccepts hgid hpayload v
    have heffects := congrArg Prod.snd (Except.ok.inj ((hafter v hv).symm.trans hupdate))
    rw [heffects, hsent]
    split
    · simp [answers_ne_nil, *]
    · simp [*]
  obtain ⟨w, hw⟩ := s.coordinators _ (knownCoordinator_mem hgid)
  obtain ⟨o, ho⟩ := s.coordinators _ (knownCoordinator_mem hold)
  by_cases hwr : w = r
  · -- the requester coordinates the new group, so the old coordinator is another machine
    have hor : o ≠ r := by
      rintro rfl
      exact hcoord (hw.symm.trans
        ((congrArg (fun v => vmIdFromMac (s.inst v).address) hwr).trans ho))
    exact hcoord (((hsent o hor).mp ((hanswers o hor).mpr ho)).symm.trans ho)
  · exact hcoord (hw.symm.trans ((hanswers w hwr).mp ((hsent w hwr).mpr hw)))

end Requests

section Sample

open CarNetwork.Fleet.Deployment (vmMac)

/-- All 256 vehicle ids; every table has vehicle 5 in group 0. -/
def sampleMachines : Machines UInt8 where
  inst b :=
    { address := vmMac b
      controlLocal := ⟨vmMac b, GATEWAY_PORT⟩
      groups := [(0, { groupId := 0, members := [0, 5] })] }
  distinct a b h := UInt8.toNat_inj.mp (Int.ofNat_inj.mp h)
  coordinators := by
    intro c hc
    obtain ⟨h0, h255⟩ := coordinators_range c hc
    refine ⟨UInt8.ofNat c.toNat, ?_⟩
    change ((UInt8.ofNat c.toNat).toNat : ℤ) = c
    rw [UInt8.toNat_ofNat']
    omega
  ownEndpoint _ := rfl

/-- Vehicle 5 asks for group 1 and is in group 1 for everybody. -/
theorem vehicle_five_moves :
    ∃ c : AsyncCapsule, ∃ after : UInt8 → Instance × List Effect,
      (∀ v, v ≠ 5 → update acceptingEnv (sampleMachines.inst v) c = .ok (after v)) ∧
      ∀ v, v ≠ 5 → InGroup (after v).1.groups 5 1 := by
  obtain ⟨c, -, -, after, hafter, -, hgroups⟩ := one_answer_per_move_request sampleMachines
    (fun _ => acceptingEnv) (fun _ _ _ => rfl) 5 1 (by decide) (by decide) 0
  exact ⟨c, after, hafter, fun v hv => ((hgroups v hv).2 5 1).mpr (by rw [if_pos (by decide)])⟩

def sampleRequest : AsyncCapsule where
  src := ⟨vmMac 5, GATEWAY_PORT⟩
  dst := ⟨Address.BROADCAST, GATEWAY_PORT⟩
  origin := .ethernet
  payload := buildMessage (sampleMachines.request 5 1 0)

def sampleAfter (v : UInt8) : Instance × List Effect :=
  (update acceptingEnv (sampleMachines.inst v) sampleRequest).toOption.getD
    (sampleMachines.inst v, [])

theorem update_sampleRequest (v : UInt8) :
    update acceptingEnv (sampleMachines.inst v) sampleRequest = .ok (sampleAfter v) := by
  obtain ⟨groups, effects, hupdate, -, -⟩ := sampleMachines.update_request (fun _ => acceptingEnv)
    (fun _ _ _ => rfl) (by decide) (show sampleRequest.payload =
      buildMessage (sampleMachines.request 5 1 0) from rfl) v
  rw [sampleAfter, hupdate]
  rfl

/-- The request of vehicle 5, which is in group 0, is not handled by the coordinator of
group 0. -/
theorem vehicle_five_not_handled : ¬ HandledByOldCoordinator sampleMachines 5 0 1 sampleAfter :=
  old_coordinator_never_handles sampleMachines (fun _ => acceptingEnv) (fun _ _ _ =>
    rfl) 5 0 1 (by decide)
    (by decide) (by decide) 0 sampleRequest
      (sampleMachines.moveGroup_eq 5 (by decide) 0) sampleAfter
    (fun v _ => update_sampleRequest v)

/-- The coordinator of group 1 answers, with 1 for the old group; that of group 0 does not. -/
theorem new_coordinator_answers :
    sent (sampleAfter 10).2 = answers 10 5 1 ∧ sent (sampleAfter 0).2 = [] := by
  decide +kernel

end Sample

end CarNetwork.Protocol
