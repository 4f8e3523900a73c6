import CarNetwork.GroupTable

/-!
# Who is in which group

What the table operations do to the memberships, for every table, and what a table
looks like in which the vehicles have one group each.
-/
namespace CarNetwork.Protocol.GroupTable

/-- An entry for the group lists the vehicle. -/
def InGroup (t : GroupTable) (v g : ℤ) : Prop := ∃ e ∈ t, e.1 = g ∧ v ∈ e.2.members

instance (t : GroupTable) (v g : ℤ) : Decidable (InGroup t v g) :=
  inferInstanceAs (Decidable (∃ e ∈ t, e.1 = g ∧ v ∈ e.2.members))

section Membership

variable {t : GroupTable} {v r g gid : ℤ}

@[simp] theorem inGroup_nil : ¬ InGroup [] v g := by simp [InGroup]

theorem inGroup_cons (e : ℤ × GroupInfo) :
    InGroup (e :: t) v g ↔ (e.1 = g ∧ v ∈ e.2.members) ∨ InGroup t v g := by
  simp [InGroup]

/-- An access that keeps a vehicle's membership of the entry keeps it of the table. -/
theorem inGroup_update_keep {f : GroupInfo → GroupInfo}
    (hf : ∀ info, v ∈ (f info).members ↔ v ∈ info.members) :
    InGroup (update gid f t) v g ↔ InGroup t v g := by
  induction t with
  | nil => simp [update, InGroup, hf]
  | cons e t ih =>
    simp only [update]
    split
    · simp [inGroup_cons, hf]
    · simp [inGroup_cons, ih]

@[simp] theorem inGroup_update_groupId :
    InGroup (update gid (fun info => { info with groupId := gid }) t) v g ↔ InGroup t v g :=
  inGroup_update_keep fun _ => Iff.rfl

/-- An access that adds one vehicle to the entry. -/
theorem inGroup_update_add {f : GroupInfo → GroupInfo}
    (hf : ∀ info, v ∈ (f info).members ↔ v = r ∨ v ∈ info.members) :
    InGroup (update gid f t) v g ↔ InGroup t v g ∨ (v = r ∧ g = gid) := by
  induction t with
  | nil => simp [update, InGroup, hf, eq_comm, and_comm]
  | cons e t ih =>
    simp only [update]
    split
    · rename_i hk
      simp only [inGroup_cons, hf, hk, eq_comm (a := g)]
      grind
    · simp only [inGroup_cons, ih]
      grind

theorem inGroup_update_insert :
    InGroup (update gid (GroupInfo.insertMember r) t) v g ↔ InGroup t v g ∨ (v = r ∧ g = gid) :=
  inGroup_update_add fun info => GroupInfo.mem_insertMember r v info

/-- Registration writes the id of the entry and adds the vehicle. -/
theorem inGroup_registered :
    InGroup (t.update gid fun info => { info with groupId := gid }.insertMember r) v g ↔
      InGroup t v g ∨ (v = r ∧ g = gid) :=
  inGroup_update_add fun info => GroupInfo.mem_insertMember r v { info with groupId := gid }

theorem inGroup_of_update_erase (h : InGroup (update gid (GroupInfo.eraseMember r) t) v g) :
    InGroup t v g := by
  induction t with
  | nil => simp [update, InGroup] at h
  | cons e t ih =>
    simp only [update] at h
    split at h
    · simp only [inGroup_cons, GroupInfo.mem_eraseMember] at h ⊢
      grind
    · simp only [inGroup_cons] at h ⊢
      exact h.imp_right ih

theorem inGroup_update_erase_of_ne (hv : v ≠ r) :
    InGroup (update gid (GroupInfo.eraseMember r) t) v g ↔ InGroup t v g :=
  inGroup_update_keep fun info => by simp [hv]

/-- `set_group_for_vm` moves one vehicle and no other. -/
theorem inGroup_setGroupForVm :
    InGroup (setGroupForVm t r gid) v g ↔ if v = r then g = gid else InGroup t v g := by
  have hmap : InGroup (t.map fun e => (e.1, e.2.eraseMember r)) v g ↔ v ≠ r ∧ InGroup t v g := by
    induction t with
    | nil => simp
    | cons e t ih =>
      simp only [List.map_cons, inGroup_cons, ih, GroupInfo.mem_eraseMember]
      grind
  rw [setGroupForVm, inGroup_update_insert, hmap]
  split
  · grind
  · grind

theorem inGroup_of_getGroupOf (h : getGroupOf t v = some g) : InGroup t v g := by
  simp only [getGroupOf, Option.map_eq_some_iff] at h
  obtain ⟨e, he, rfl⟩ := h
  exact ⟨e, List.mem_of_find?_eq_some he, rfl, by simpa using List.find?_some he⟩

theorem getGroupOf_eq_none : getGroupOf t v = none ↔ ∀ g, ¬ InGroup t v g := by
  simp [getGroupOf, InGroup]

/-- Where a vehicle has one group at most, the search finds that group. -/
theorem getGroupOf_eq_some_iff (hone : ∀ g g', InGroup t v g → InGroup t v g' → g = g') :
    getGroupOf t v = some g ↔ InGroup t v g := by
  constructor
  · exact inGroup_of_getGroupOf
  · intro h
    cases hfound : getGroupOf t v with
    | none => exact (getGroupOf_eq_none.mp hfound g h).elim
    | some g' => rw [hone g' g (inGroup_of_getGroupOf hfound) h]

theorem inGroup_perm {t' : GroupTable} (hperm : t'.Perm t) : InGroup t' v g ↔ InGroup t v g := by
  simp only [InGroup, hperm.mem_iff]

/-- Then the order of the entries does not matter. -/
theorem getGroupOf_perm {t' : GroupTable} (hone : ∀ g g', InGroup t v g → InGroup t v g' → g = g')
    (hperm : t'.Perm t) : getGroupOf t' v = getGroupOf t v := by
  have hone' : ∀ g g', InGroup t' v g → InGroup t' v g' → g = g' := by
    simpa only [inGroup_perm hperm] using hone
  ext g
  rw [getGroupOf_eq_some_iff hone', getGroupOf_eq_some_iff hone, inGroup_perm hperm]

end Membership

/-- A table that keeps all memberships except that one vehicle is now in one group alone. -/
def Placed (t t' : GroupTable) (r gid : ℤ) : Prop :=
  ∀ v g, InGroup t' v g ↔ if v = r then g = gid else InGroup t v g

theorem Placed.self {t t' : GroupTable} {r gid : ℤ} (h : Placed t t' r gid) (g : ℤ) :
    InGroup t' r g ↔ g = gid := by
  rw [h, if_pos rfl]

theorem Placed.of_ne {t t' : GroupTable} {r gid v : ℤ} (h : Placed t t' r gid)
    (hv : v ≠ r) (g : ℤ) :
    InGroup t' v g ↔ InGroup t v g := by
  rw [h, if_neg hv]

theorem placed_setGroupForVm (t : GroupTable) (r gid : ℤ) :
    Placed t (setGroupForVm t r gid) r gid :=
  fun _ _ => inGroup_setGroupForVm

/-- A vehicle that is in no other group is in the group it is registered in alone. -/
theorem placed_registered {t : GroupTable} {r gid : ℤ} (halone : ∀ g, InGroup t r g → g = gid) :
    Placed t (t.update gid fun info => { info with groupId := gid }.insertMember r) r gid := by
  intro v g
  rw [inGroup_registered]
  split
  · rename_i hv
    subst hv
    constructor
    · rintro (h | ⟨-, h⟩)
      · exact halone g h
      · exact h
    · intro h
      exact Or.inr ⟨rfl, h⟩
  · rename_i hv
    simp [hv]

/-! ## Keys and group ids -/

/-- The keys of a hash map are distinct; every entry carries its key. -/
structure WellFormed (t : GroupTable) : Prop where
  keys : (t.map Prod.fst).Nodup
  ids : ∀ e ∈ t, e.2.groupId = e.1

def hasEntry (t : GroupTable) (gid : ℤ) : Bool := t.any fun e => e.1 = gid

section WellFormed

variable {t : GroupTable} {gid v r g : ℤ} {f : GroupInfo → GroupInfo}

theorem keys_update : (update gid f t).map Prod.fst =
    if gid ∈ t.map Prod.fst then t.map Prod.fst else t.map Prod.fst ++ [gid] := by
  induction t with
  | nil => rfl
  | cons e t ih =>
    simp only [update, List.map_cons, List.mem_cons]
    by_cases hk : e.1 = gid
    · simp [hk]
    · rw [if_neg hk, List.map_cons, ih]
      by_cases hmem : gid ∈ t.map Prod.fst
      · simp [hmem]
      · simp [hmem, Ne.symm hk]

theorem nodup_keys_update (h : (t.map Prod.fst).Nodup) : ((update gid f t).map Prod.fst).Nodup := by
  rw [keys_update]
  split
  · exact h
  · rename_i hnew
    exact List.nodup_append.mpr ⟨h, List.nodup_singleton _, fun a ha b hb => by
      obtain rfl := List.mem_singleton.mp hb
      rintro rfl
      exact hnew ha⟩

/-- An access that writes the id repairs the entry. -/
theorem wellFormed_update_id (hkeys : (t.map Prod.fst).Nodup)
    (hids : ∀ e ∈ t, e.1 ≠ gid → e.2.groupId = e.1) (hf : ∀ info, (f info).groupId = gid) :
    WellFormed (update gid f t) := by
  refine ⟨nodup_keys_update hkeys, ?_⟩
  induction t with
  | nil =>
    intro e he
    obtain rfl := List.mem_singleton.mp he
    exact hf {}
  | cons a t ih =>
    obtain ⟨hfresh, hrest⟩ := List.nodup_cons.mp hkeys
    have htail : ∀ e ∈ t, e.1 ≠ gid → e.2.groupId = e.1 :=
      fun e he => hids e (List.mem_cons_of_mem _ he)
    intro e he
    simp only [update] at he
    split at he
    · rename_i hk
      rcases List.mem_cons.mp he with rfl | he
      · exact (hf a.2).trans hk.symm
      · refine htail e he fun heq => hfresh (List.mem_map.mpr ⟨e, he, heq.trans hk.symm⟩)
    · rename_i hk
      rcases List.mem_cons.mp he with rfl | he
      · exact hids _ List.mem_cons_self hk
      · exact ih hrest htail e he

theorem WellFormed.update_id (h : WellFormed t) (hf : ∀ info, (f info).groupId = gid) :
    WellFormed (update gid f t) :=
  wellFormed_update_id h.keys (fun e he _ => h.ids e he) hf

theorem ids_update_keep (hids : ∀ e ∈ t, e.2.groupId = e.1)
    (hf : ∀ info, (f info).groupId = info.groupId) (hentry : hasEntry t gid = true ∨ gid = 0) :
    ∀ e ∈ update gid f t, e.2.groupId = e.1 := by
  induction t with
  | nil =>
    intro e he
    obtain rfl := List.mem_singleton.mp he
    rcases hentry with hentry | rfl
    · cases hentry
    · exact hf {}
  | cons a t ih =>
    have hrest : ∀ e ∈ t, e.2.groupId = e.1 := fun e he => hids e (List.mem_cons_of_mem _ he)
    intro e he
    simp only [update] at he
    split at he
    · rcases List.mem_cons.mp he with rfl | he
      · exact (hf a.2).trans (hids a List.mem_cons_self)
      · exact hrest e he
    · rename_i hk
      rcases List.mem_cons.mp he with rfl | he
      · exact hids _ List.mem_cons_self
      · refine ih hrest (hentry.imp_left fun h => ?_) e he
        simpa [hasEntry, hk] using h

/-- An access that does not write the id keeps the table well formed if the entry is there
or the default id is right. -/
theorem WellFormed.update_keep (h : WellFormed t) (hf : ∀ info, (f info).groupId = info.groupId)
    (hentry : hasEntry t gid = true ∨ gid = 0) : WellFormed (update gid f t) :=
  ⟨nodup_keys_update h.keys, ids_update_keep h.ids hf hentry⟩

theorem hasEntry_update (f : GroupInfo → GroupInfo) (g : ℤ) :
    hasEntry (update gid f t) g = (hasEntry t g || decide (g = gid)) := by
  induction t with
  | nil => simp [update, hasEntry, eq_comm]
  | cons e t ih =>
    simp only [hasEntry] at ih
    simp only [update, hasEntry]
    split
    · rename_i hk
      by_cases hg : e.1 = g
      · simp [hg]
      · simp [hg, hk ▸ Ne.symm hg]
    · simp only [List.any_cons, ih, Bool.or_assoc]

theorem groupId_insertMember (info : GroupInfo) : (info.insertMember r).groupId = info.groupId := by
  unfold GroupInfo.insertMember
  split <;> rfl

theorem WellFormed.setGroupForVm (h : WellFormed t) (hentry : hasEntry t gid = true ∨ gid = 0) :
    WellFormed (setGroupForVm t r gid) := by
  have hmap : WellFormed (t.map fun e => (e.1, e.2.eraseMember r)) := by
    refine ⟨by simpa [Function.comp_def] using h.keys, fun e he => ?_⟩
    obtain ⟨a, ha, rfl⟩ := List.mem_map.mp he
    exact h.ids a ha
  refine hmap.update_keep groupId_insertMember (hentry.imp_left fun h => ?_)
  simpa [hasEntry] using h

/-- With distinct keys, an erased vehicle is gone from the group. -/
theorem inGroup_update_erase (h : (t.map Prod.fst).Nodup) :
    InGroup (update gid (GroupInfo.eraseMember r) t) v g ↔ InGroup t v g ∧ ¬ (v = r ∧ g = gid) := by
  induction t with
  | nil => simp [update, InGroup]
  | cons e t ih =>
    obtain ⟨hfresh, hrest⟩ := List.nodup_cons.mp h
    simp only [update]
    split
    · rename_i hk
      have hnone : InGroup t v g → g ≠ gid := by
        rintro ⟨a, ha, rfl, -⟩ heq
        exact hfresh (List.mem_map.mpr ⟨a, ha, heq.trans hk.symm⟩)
      simp only [inGroup_cons, GroupInfo.mem_eraseMember, hk, eq_comm (a := g)] at hnone ⊢
      grind
    · rename_i hk
      have hother : e.1 = g → g ≠ gid := by
        rintro rfl
        exact hk
      simp only [inGroup_cons, ih hrest]
      grind

end WellFormed

end CarNetwork.Protocol.GroupTable
