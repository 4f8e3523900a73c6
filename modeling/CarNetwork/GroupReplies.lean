import CarNetwork.GroupMoves

/-!
# Refused moves and misaddressed replies

What a move request leaves behind when nobody answers it, and where the answers go. Every
machine that hears a request has changed its table before it finds out whether it is the
one to answer. An answer is addressed through the vehicle id, which keeps only the last
octet of an address.
-/
namespace CarNetwork.Protocol

open CarNetwork.ByteText CarNetwork.DecimalText CarNetwork.Conversions CarNetwork.Ethernet
open GroupTable

/-! ## Tables that a move does not change -/

namespace GroupTable

/-- What the containers of the source guarantee: one entry for each key, and the members of
a group in increasing order. -/
structure Representable (t : GroupTable) : Prop where
  keys : (t.map Prod.fst).Nodup
  members : ∀ e ∈ t, e.2.members.Pairwise (· < ·)

instance (t : GroupTable) : Decidable (Representable t) :=
  decidable_of_iff ((t.map Prod.fst).Nodup ∧ ∀ e ∈ t, e.2.members.Pairwise (· < ·))
    ⟨fun h => ⟨h.1, h.2⟩, fun h => ⟨h.keys, h.members⟩⟩

theorem Representable.tail {e : ℤ × GroupInfo} {t : GroupTable} (h : Representable (e :: t)) :
    Representable t :=
  ⟨(List.nodup_cons.mp h.keys).2, fun a ha => h.members a (List.mem_cons_of_mem _ ha)⟩

theorem eraseMember_eq_self {r : ℤ} {info : GroupInfo} (h : r ∉ info.members) :
    info.eraseMember r = info := by
  have hfilter : info.members.filter (· ≠ r) = info.members := by
    rw [List.filter_eq_self]
    intro v hv
    simpa using fun hvr : v = r => h (hvr ▸ hv)
  rw [GroupInfo.eraseMember, hfilter]

/-- Taking a member out and putting it back gives the same set. -/
theorem insertMember_eraseMember {r : ℤ} {info : GroupInfo} (h : r ∈ info.members)
    (hsorted : info.members.Pairwise (· < ·)) : (info.eraseMember r).insertMember r = info := by
  have hnodup : info.members.Nodup := hsorted.imp ne_of_lt
  have herase : info.members.filter (· ≠ r) = info.members.erase r := by
    rw [hnodup.erase_eq_filter]
    exact List.filter_congr fun v _ => by by_cases hv : v = r <;> simp [hv]
  have hback : (info.members.erase r).orderedInsert (· ≤ ·) r = info.members :=
    List.orderedInsert_erase r info.members h (hsorted.imp le_of_lt)
  have hnot : r ∉ info.members.erase r := hnodup.not_mem_erase
  rw [GroupInfo.insertMember, GroupInfo.eraseMember, herase]
  simp only [hnot, if_false, hback]

/-- A table stays as it is if and only if it has the vehicle in the group and in no other. -/
theorem setGroupForVm_eq_self_iff {t : GroupTable} (ht : Representable t) (r gid : ℤ) :
    t.setGroupForVm r gid = t ↔ ∀ g, InGroup t r g ↔ g = gid := by
  constructor
  · intro h g
    have hmoved : InGroup (t.setGroupForVm r gid) r g ↔ if r = r then g = gid else InGroup t r g :=
      inGroup_setGroupForVm
    rwa [h, if_pos rfl] at hmoved
  · intro h
    induction t with
    | nil => exact absurd ((h gid).mpr rfl) (by simp)
    | cons e t ih =>
      obtain ⟨g, info⟩ := e
      have hother : ∀ a ∈ t, r ∈ a.2.members → a.1 = gid := fun a ha hr =>
        (h a.1).mp ⟨a, List.mem_cons_of_mem _ ha, rfl, hr⟩
      simp only [setGroupForVm, List.map_cons, GroupTable.update]
      split
      · rename_i hg
        subst hg
        -- no other entry has the key, so only this one lists the vehicle
        have hkey : ∀ a ∈ t, a.1 ≠ g := fun a ha hag =>
          (List.nodup_cons.mp ht.keys).1 (List.mem_map.mpr ⟨a, ha, hag⟩)
        have hin : r ∈ info.members := by
          obtain ⟨a, ha, hag, hr⟩ := (h g).mpr rfl
          rcases List.mem_cons.mp ha with rfl | ha
          · exact hr
          · exact (hkey a ha hag).elim
        rw [insertMember_eraseMember hin (ht.members _ List.mem_cons_self)]
        congr 1
        conv_rhs => rw [← List.map_id t]
        refine List.map_congr_left fun a ha => ?_
        rw [eraseMember_eq_self fun hr => hkey a ha (hother a ha hr)]
        rfl
      · rename_i hg
        have hout : r ∉ info.members := fun hr => hg ((h g).mp ⟨_, List.mem_cons_self, rfl, hr⟩)
        have htail : ∀ g', InGroup t r g' ↔ g' = gid := by
          intro g'
          rw [← h g', inGroup_cons]
          simp [hout]
        rw [eraseMember_eq_self hout]
        exact congrArg _ (ih ht.tail htail)

end GroupTable

/-! ## A request that nobody answers -/

def Effect.isAssign : Effect → Bool
  | .transmit (.control .GROUP_ASSIGN) _ _ _ => true
  | _ => false

/-- The effects send a GROUP_ASSIGN. -/
def Assigns (effects : List Effect) : Prop := ∃ e ∈ effects, e.isAssign = true

instance (effects : List Effect) : Decidable (Assigns effects) :=
  inferInstanceAs (Decidable (∃ e ∈ effects, e.isAssign = true))

section Refused

variable {env : Env} {p : Instance} {c : AsyncCapsule} {msg : Message}

theorem processed_of_not_number (haccepted : acceptedMessage env c = some msg)
    (hcontrol : msg.control = .GROUP_MOVE_REQUEST) {e : CxxException}
    (hbody : stoi msg.body = .error e) :
    processed env p c = (p, []) := by
  have hhandle : handle env p msg c = .error e := by
    simp [handle, hcontrol, onGroupMoveRequest, hbody, bind, Except.bind]
  simp [processed, update_of_accepted haccepted, hhandle, Except.map]

theorem assigns_of_coordinator (haccepted : acceptedMessage env c = some msg)
    (hcontrol : msg.control = .GROUP_MOVE_REQUEST) {gid : ℤ} (hbody : stoi msg.body = .ok gid)
    (hcoord : vmIdFromMac p.address = knownCoordinator gid) : Assigns (processed env p c).2 := by
  have hrange := knownCoordinator_nonneg (hcoord ▸ vmIdFromMac_nonneg p.address)
  have hlen : (intText gid).length ≤ 1000 :=
    (length_intText_int (inInt_group hrange)).trans (by norm_num)
  have hhandle : handle env p msg c = onGroupMoveRequest env p msg := by simp [handle, hcontrol]
  rw [onGroupMoveRequest_coordinator hbody hcoord, sendControl_eq hlen] at hhandle
  exact ⟨_, (transmit_mem_processed haccepted hhandle).mpr
    (List.mem_append_right _ (List.mem_singleton_self _)), rfl⟩

/-- A machine that does not answer has moved the requester in its table all the same. -/
theorem groups_of_not_assigned (haccepted : acceptedMessage env c = some msg)
    (hcontrol : msg.control = .GROUP_MOVE_REQUEST) {gid : ℤ} (hbody : stoi msg.body = .ok gid)
    (hrefused : ¬ Assigns (processed env p c).2) :
    (processed env p c).1.groups = p.groups.setGroupForVm msg.origVm.toNat gid := by
  have hother : vmIdFromMac p.address ≠ knownCoordinator gid := fun hcoord =>
    hrefused (assigns_of_coordinator haccepted hcontrol hbody hcoord)
  have hhandle : handle env p msg c = onGroupMoveRequest env p msg := by simp [handle, hcontrol]
  rw [processed, update_of_accepted haccepted, hhandle, onGroupMoveRequest_other hbody hother]
  rfl

end Refused

section Sample

open CarNetwork.Fleet.Deployment (vmMac)

/-- Vehicles 21 and 22, whose tables have vehicle 5 in group 0. -/
def twoVehicles (v : Bool) : Instance := sampleMachines.inst (if v then 21 else 22)

/-- The request of vehicle 5 for a group, as it is on the wire. -/
def requestFromFive (gid : ℤ) : AsyncCapsule :=
  { sampleRequest with payload := buildMessage (sampleMachines.request 5 gid 0) }

end Sample

/-! ## Where the answers go -/

/-- The machines of a deployment: their ids and addresses. The id is the last octet. -/
structure AddressPlan (V : Type) where
  vmId : V → UInt8
  mac : V → Address
  lastOctet : ∀ v, (mac v).lastOctet = vmId v

/-- The first five octets are zero. -/
def ZeroPrefix (a : Address) : Prop := (addressBytes a).take 5 = List.replicate 5 0

instance (a : Address) : Decidable (ZeroPrefix a) := inferInstanceAs (Decidable (_ = _))

/-- The address made from an id is a machine's own if and only if nothing but the id is in
the machine's address. -/
theorem AddressPlan.vmAddress_eq_iff {V : Type} (plan : AddressPlan V) (v : V) :
    vmAddress (plan.vmId v) = plan.mac v ↔ ZeroPrefix (plan.mac v) := by
  have hlast := plan.lastOctet v
  constructor
  · intro h
    rw [← h]
    rfl
  · intro h
    obtain ⟨h0, h1, h2, h3, h4⟩ : (plan.mac v).addr[0] = 0 ∧ (plan.mac v).addr[1] = 0 ∧
        (plan.mac v).addr[2] = 0 ∧ (plan.mac v).addr[3] = 0 ∧ (plan.mac v).addr[4] = 0 := by
      simpa [ZeroPrefix, addressBytes] using h
    have heta := address_eta (plan.mac v)
    rw [h0, h1, h2, h3, h4, show (plan.mac v).addr[5] = plan.vmId v from hlast] at heta
    exact heta

theorem transmit_of_mem_sendControl {p : Instance} {src src' dst dst' : Endpoint}
    {t : ControlType} {tag : UInt8} {body payload : Bytes} {time : UInt64} {kind : SendKind}
    (h : .transmit kind src dst payload ∈ sendControl p src' dst' t tag body time) :
    kind = .control t ∧ dst = dst' := by
  unfold sendControl send at h
  split at h
  · cases h
  · cases List.mem_singleton.mp h
    exact ⟨rfl, rfl⟩

/-- The answers to the two messages are an assignment for the address made from the sender's
id and notifications for the addresses made from the coordinators' ids. -/
theorem reply_addressed_by_id {env : Env} {p : Instance} {c : AsyncCapsule} {msg : Message}
    (haccepted : acceptedMessage env c = some msg)
    (hcontrol : msg.control = .GROUP_MOVE_REQUEST ∨ msg.control = .GROUP_REGISTER) {kind : SendKind}
    {src dst : Endpoint} {payload : Bytes}
    (hsent : .transmit kind src dst payload ∈ (processed env p c).2) :
    (kind = .control .GROUP_ASSIGN ∧ dst.mac = vmAddress msg.origVm) ∨
    (kind = .control .GROUP_MOVE_NOTIFY ∧
      ∃ coord ∈ GROUP_COORDINATORS, dst.mac = vmAddress (UInt8.ofNat coord.toNat)) := by
  rcases hcontrol with hcontrol | hcontrol
  · have hhandle : handle env p msg c = onGroupMoveRequest env p msg := by simp [handle, hcontrol]
    cases hbody : stoi msg.body with
    | error e =>
      rw [processed_of_not_number haccepted hcontrol hbody] at hsent
      cases hsent
    | ok gid =>
      by_cases hcoord : vmIdFromMac p.address = knownCoordinator gid
      · rw [onGroupMoveRequest_coordinator hbody hcoord] at hhandle
        rw [transmit_mem_processed haccepted hhandle] at hsent
        rcases List.mem_append.mp hsent with hnote | hassign
        · obtain ⟨e, he, heq⟩ := List.mem_map.mp hnote
          have hmem := (List.mem_filter.mp (List.fst_mem_of_mem_zipIdx he)).1
          cases heq
          exact Or.inr ⟨rfl, e.1, hmem, rfl⟩
        · obtain ⟨rfl, rfl⟩ := transmit_of_mem_sendControl hassign
          exact Or.inl ⟨rfl, rfl⟩
      · rw [onGroupMoveRequest_other hbody hcoord] at hhandle
        rw [transmit_mem_processed haccepted hhandle] at hsent
        cases hsent
  · have hhandle : handle env p msg c = onGroupRegister env p msg := by simp [handle, hcontrol]
    rw [onGroupRegister_eq] at hhandle
    rw [transmit_mem_processed haccepted hhandle] at hsent
    split at hsent
    · obtain ⟨rfl, rfl⟩ := transmit_of_mem_sendControl hsent
      exact Or.inl ⟨rfl, rfl⟩
    · cases hsent

/-- An assignment reaches the requester, and a notification its coordinator, if and only if
the address of that machine begins with five zero octets. -/
theorem reply_reaches_iff {V : Type} (plan : AddressPlan V) (env : Env) (p : Instance)
    (c : AsyncCapsule) (msg : Message) (haccepted : acceptedMessage env c = some msg)
    (hcontrol : msg.control = .GROUP_MOVE_REQUEST ∨ msg.control = .GROUP_REGISTER) (r : V)
    (hr : msg.origVm = plan.vmId r) (kind : SendKind) (src dst : Endpoint) (payload : Bytes)
    (hsent : .transmit kind src dst payload ∈ (processed env p c).2) :
    (kind = .control .GROUP_ASSIGN ∧ (dst.mac = plan.mac r ↔ ZeroPrefix (plan.mac r))) ∨
    (kind = .control .GROUP_MOVE_NOTIFY ∧ ∃ coord ∈ GROUP_COORDINATORS,
      vmIdFromMac dst.mac = coord ∧
      ∀ k, ((plan.vmId k).toNat : ℤ) = coord →
        (dst.mac = plan.mac k ↔ ZeroPrefix (plan.mac k))) := by
  rcases reply_addressed_by_id haccepted hcontrol hsent with ⟨rfl, hdst⟩ |
    ⟨rfl, coord, hcoord, hdst⟩
  · rw [hdst, hr]
    exact Or.inl ⟨rfl, plan.vmAddress_eq_iff r⟩
  · obtain ⟨h0, h255⟩ := coordinators_range coord hcoord
    have hid : ((UInt8.ofNat coord.toNat).toNat : ℤ) = coord := by
      rw [UInt8.toNat_ofNat']
      omega
    refine Or.inr ⟨rfl, coord, hcoord, by rw [hdst, vmIdFromMac_vmAddress, hid], ?_⟩
    intro k hk
    have hbyte : UInt8.ofNat coord.toNat = plan.vmId k := by
      apply UInt8.toNat_inj.mp
      omega
    rw [hdst, hbyte]
    exact plan.vmAddress_eq_iff k

section Sample

open CarNetwork.Fleet.Deployment (vmMac)

/-- Addresses with nothing in them but the id. -/
def bareIds : AddressPlan UInt8 := ⟨id, vmAddress, fun _ => rfl⟩

/-- The addresses of `run_vms.sh`. -/
def deployedPlan : AddressPlan UInt8 := ⟨id, vmMac, fun _ => rfl⟩

/-- The assignment with which coordinator 10 answers the request of vehicle 5 for group 1. -/
def sampleAssignment : Effect :=
  .transmit (.control .GROUP_ASSIGN) ⟨vmMac 10, GATEWAY_PORT⟩ ⟨vmAddress 5, GATEWAY_PORT⟩
    (buildMessage (controlMessage (sampleMachines.inst 10) ⟨vmMac 10, GATEWAY_PORT⟩ .GROUP_ASSIGN 0
      (intText 1) 0))

theorem sampleAssignment_sent :
    sampleAssignment ∈ (processed acceptingEnv (sampleMachines.inst 10) sampleRequest).2 := by
  decide +kernel

/-- With bare ids for addresses it is addressed to vehicle 5. -/
theorem bare_id_reached :
    ∃ src dst payload, .transmit (.control .GROUP_ASSIGN) src dst payload ∈
      (processed acceptingEnv (sampleMachines.inst 10) sampleRequest).2 ∧
        dst.mac = bareIds.mac 5 := by
  have hreply := reply_reaches_iff bareIds acceptingEnv (sampleMachines.inst 10) sampleRequest
    (sampleMachines.request 5 1 0) (by decide +kernel) (Or.inl rfl) 5 (by decide) _ _ _ _
      sampleAssignment_sent
  rcases hreply with ⟨-, hiff⟩ | ⟨hkind, -⟩
  · exact ⟨_, _, _, sampleAssignment_sent, hiff.mpr (by decide)⟩
  · cases hkind

/-- With the addresses of `run_vms.sh` it is not. -/
theorem deployed_vehicle_missed :
    ∃ src dst payload, .transmit (.control .GROUP_ASSIGN) src dst payload ∈
      (processed acceptingEnv (sampleMachines.inst 10) sampleRequest).2 ∧
        dst.mac ≠ deployedPlan.mac 5 :=
  ⟨_, _, _, sampleAssignment_sent, by decide⟩

end Sample

end CarNetwork.Protocol
