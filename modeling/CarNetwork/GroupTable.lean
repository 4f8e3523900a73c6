import Mathlib.Data.List.Sort
import Mathlib.Tactic

/-!
# The group table of a protocol instance

`_groups` maps group ids to member sets. A table is the list of its entries in the
order of their insertion; a member set is the increasing list of its elements, as a
`std::set` enumerates them.
-/
namespace CarNetwork.Protocol

structure GroupInfo where
  groupId : ℤ := 0
  members : List ℤ := []
  deriving DecidableEq, Repr

namespace GroupInfo

/-- `members.insert`. -/
def insertMember (vmId : ℤ) (g : GroupInfo) : GroupInfo :=
  if vmId ∈ g.members then g else { g with members := g.members.orderedInsert (· ≤ ·) vmId }

/-- `members.erase`. -/
def eraseMember (vmId : ℤ) (g : GroupInfo) : GroupInfo :=
  { g with members := g.members.filter (· ≠ vmId) }

@[simp] theorem mem_insertMember (v w : ℤ) (g : GroupInfo) :
    w ∈ (g.insertMember v).members ↔ w = v ∨ w ∈ g.members := by
  unfold insertMember
  split
  · constructor
    · exact Or.inr
    · rintro (rfl | h)
      · assumption
      · exact h
  · simp [List.mem_orderedInsert]

@[simp] theorem mem_eraseMember (v w : ℤ) (g : GroupInfo) :
    w ∈ (g.eraseMember v).members ↔ w ≠ v ∧ w ∈ g.members := by
  simp [eraseMember, and_comm]

end GroupInfo

abbrev GroupTable := List (ℤ × GroupInfo)

namespace GroupTable

/-- An access `_groups[gid]` that changes the entry; a missing one is created. -/
def update (gid : ℤ) (f : GroupInfo → GroupInfo) : GroupTable → GroupTable
  | [] => [(gid, f {})]
  | (g, info) :: t => if g = gid then (g, f info) :: t else (g, info) :: update gid f t

/-- The members of a group, none when it has no entry. -/
def membersOf (t : GroupTable) (gid : ℤ) : List ℤ :=
  ((t.find? fun e => e.1 = gid).map fun e => e.2.members).getD []

/-- The first group that holds the vehicle. The list is in the order of insertion, while the
source iterates over a hash map in an order of its own; the result is the same for every
order as long as no vehicle is in two groups. -/
def getGroupOf (t : GroupTable) (vmId : ℤ) : Option ℤ :=
  (t.find? fun e => vmId ∈ e.2.members).map fun e => e.1

/-- Remove a vehicle from every group, then add it to one. -/
def setGroupForVm (t : GroupTable) (vmId gid : ℤ) : GroupTable :=
  update gid (GroupInfo.insertMember vmId) (t.map fun e => (e.1, e.2.eraseMember vmId))

/-- Some entry of the table lists the vehicle. -/
def Lists (t : GroupTable) (vmId : ℤ) : Prop := ∃ e ∈ t, vmId ∈ e.2.members

theorem mem_update {t : GroupTable} {gid : ℤ} {f : GroupInfo → GroupInfo} {e : ℤ × GroupInfo}
    (h : e ∈ update gid f t) : e ∈ t ∨ e = (gid, f {}) ∨ ∃ info, (gid, info) ∈ t ∧
      e = (gid, f info) := by
  induction t with
  | nil => exact Or.inr (Or.inl (List.mem_singleton.mp h))
  | cons a t ih =>
    obtain ⟨g, info⟩ := a
    simp only [update] at h
    split at h
    · rename_i hg
      subst hg
      rcases List.mem_cons.mp h with rfl | h
      · exact Or.inr (Or.inr ⟨info, by simp, rfl⟩)
      · exact Or.inl (by simp [h])
    · rcases List.mem_cons.mp h with rfl | h
      · exact Or.inl (by simp)
      · rcases ih h with h | h | ⟨i, hi, he⟩
        · exact Or.inl (by simp [h])
        · exact Or.inr (Or.inl h)
        · exact Or.inr (Or.inr ⟨i, by simp [hi], he⟩)

/-- A vehicle found in the table is listed there. -/
theorem lists_of_getGroupOf {t : GroupTable} {vmId gid : ℤ} (h : getGroupOf t vmId = some gid) :
    Lists t vmId := by
  simp only [getGroupOf, Option.map_eq_some_iff] at h
  obtain ⟨e, he, -⟩ := h
  exact ⟨e, List.mem_of_find?_eq_some he, by simpa using List.find?_some he⟩

/-- Right after `set_group_for_vm` the vehicle is found in the group it was put in,
whatever the table was before. -/
theorem getGroupOf_setGroupForVm (t : GroupTable) (vmId gid : ℤ) :
    getGroupOf (setGroupForVm t vmId gid) vmId = some gid := by
  simp only [getGroupOf, setGroupForVm]
  induction t with
  | nil => simp [update]
  | cons a t ih =>
    obtain ⟨g, info⟩ := a
    simp only [List.map_cons, update]
    split
    · rename_i hg
      simp [hg]
    · simpa [List.find?_cons] using ih

end GroupTable

end CarNetwork.Protocol
