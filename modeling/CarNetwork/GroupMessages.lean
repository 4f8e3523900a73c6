import CarNetwork.ClockMessages
import CarNetwork.GroupMembership

/-!
# The group messages

What the receiver of a group message reads out of it, and the handlers in closed form:
the table that each of them leaves and the messages it sends.
-/
namespace CarNetwork.Protocol

open CarNetwork.ByteText CarNetwork.DecimalText CarNetwork.Conversions CarNetwork.Ethernet
open GroupTable

/-! ## Texts -/

theorem getLast?_append_intText (s : Bytes) (z : ℤ) :
    ∃ b, (s ++ intText z).getLast? = some b ∧ isDigit b = true := by
  obtain ⟨sign, hz, -⟩ := intText_eq z
  rw [hz, ← List.append_assoc]
  exact getLast?_append_decimal _ _

theorem cleanBody_intText (z : ℤ) : cleanBody (intText z) = intText z := by
  apply cleanBody_eq_self
  · intro b hb
    exact isNumeric_of_mem_intText hb
  · simpa using head_intText_append z []
  · simpa using getLast?_append_intText [] z

theorem cleanBody_notifyBody (v o n : ℤ) : cleanBody (notifyBody v o n) = notifyBody v o n := by
  apply cleanBody_eq_self
  · intro b hb
    simp only [notifyBody, List.mem_append, List.mem_singleton] at hb
    rcases hb with (((hb | rfl) | hb) | rfl) | hb
    exacts [isNumeric_of_mem_intText hb, rfl, isNumeric_of_mem_intText hb, rfl,
      isNumeric_of_mem_intText hb]
  · simp only [notifyBody, List.append_assoc]
    exact head_intText_append _ _
  · exact getLast?_append_intText _ _

theorem extractInt_intText {z : ℤ} (h : InInt z) (rest : Bytes) (hrest : NoDigit rest) :
    extractInt (intText z ++ rest) = some (z, rest) := by
  simp [extractInt, scanInteger_intText z rest hrest, h]

theorem extractInt_space (s : Bytes) : extractInt (32 :: s) = extractInt s := by
  rw [extractInt, extractInt, scanInteger_space]

theorem scan_notify {v o n : ℤ} (hv : InInt v) (ho : InInt o) (hn : InInt n) :
    scanNotify (notifyBody v o n) = some (v, o, n) := by
  have hlast := extractInt_intText hn [] noDigit_nil
  rw [List.append_nil] at hlast
  simp [notifyBody, scanNotify, extractInt_intText hv, extractInt_intText ho, extractInt_space,
    space, noDigit_space, hlast]

theorem length_intText_int {z : ℤ} (h : InInt z) : (intText z).length ≤ 11 := by
  obtain ⟨hlo, hhi⟩ := h
  exact length_intText_le (k := 10) (by norm_num) (by omega)

theorem length_notifyBody_le {v o n : ℤ} (hv : InInt v) (ho : InInt o) (hn : InInt n) :
    (notifyBody v o n).length ≤ 1000 := by
  have h1 := length_intText_int hv
  have h2 := length_intText_int ho
  have h3 := length_intText_int hn
  simp [notifyBody]
  omega

/-! ## What is sent and what is taken in -/

/-- What an effect sends: the kind, the vehicle it is addressed to and the body. -/
def Effect.sent : Effect → Option (SendKind × ℤ × Bytes)
  | .transmit kind _ dst payload => some (kind, vmIdFromMac dst.mac,
      match parseMessage payload with
      | .ok msg => msg.body
      | .error _ => payload)
  | _ => none

/-- What an operation sends, in order. -/
def sent (effects : List Effect) : List (SendKind × ℤ × Bytes) := effects.filterMap Effect.sent

@[simp] theorem sent_append (as bs : List Effect) : sent (as ++ bs) = sent as ++ sent bs :=
  List.filterMap_append

theorem sent_sendControl {p : Instance} {src dst : Endpoint} {t : ControlType}
    {tag : UInt8} {body : Bytes} {time : UInt64} (h : body.length ≤ 1000) :
    sent (sendControl p src dst t tag body time) = [(.control t, vmIdFromMac dst.mac, body)] := by
  simp [sendControl_eq h, sent, Effect.sent, parse_build, controlMessage]

theorem sent_forwardToObservers (p : Instance) (msg : Message) (c : AsyncCapsule) :
    sent (forwardToObservers p msg c) = [] := by
  apply List.filterMap_eq_nil_iff.mpr
  intro x hx
  obtain ⟨po, rfl | rfl⟩ := mem_forward hx
  · rfl
  · rfl

/-- The control message of a frame that passes the tag check, with its body cleaned up. -/
def acceptedMessage (env : Env) (c : AsyncCapsule) : Option Message :=
  match parseMessage c.payload with
  | .error _ => none
  | .ok msg =>
    if msg.control ≠ .NONE ∧ env.accepts msg.msgac msg.body = true then
      some { msg with body := cleanBody msg.body }
    else none

/-- An accepted message goes to its handler; the rest is up to the observers. -/
theorem update_of_accepted {env : Env} {c : AsyncCapsule} {msg : Message}
    (h : acceptedMessage env c = some msg) (p : Instance) :
    update env p c = (handle env p msg c).map fun r =>
      (r.inst, r.effects ++ if r.forward then forwardToObservers r.inst msg c else []) := by
  have hne : ¬ c.payload.isEmpty = true := by
    intro hempty
    simp [acceptedMessage, List.isEmpty_iff.mp hempty, parseMessage_of_no_field] at h
  rw [update, if_neg hne, notifyByPort]
  unfold acceptedMessage at h
  cases hparse : parseMessage c.payload with
  | error e => simp [hparse] at h
  | ok m =>
    simp only [hparse, Option.ite_none_right_eq_some, Option.some.injEq] at h
    obtain ⟨⟨-, haccepts⟩, rfl⟩ := h
    simp only [bind, Except.bind]
    rw [if_neg (by simp [haccepts])]
    cases handle env p { m with body := cleanBody m.body } c <;> rfl

theorem not_transmit_forwardToObservers {p : Instance} {msg : Message} {c : AsyncCapsule}
    {kind : SendKind} {src dst : Endpoint} {payload : Bytes} :
    .transmit kind src dst payload ∉ forwardToObservers p msg c := by
  intro h
  obtain ⟨po, hpo | hpo⟩ := mem_forward h
  · cases hpo
  · cases hpo

/-- A frame that brings no accepted control message leaves the instance alone. -/
theorem update_of_not_accepted {env : Env} {p p' : Instance} {c : AsyncCapsule}
    {effects : List Effect} (hnone : acceptedMessage env c = none)
    (h : update env p c = .ok (p', effects)) :
    p' = p ∧ sent effects = [] := by
  by_cases hempty : c.payload.isEmpty = true
  · rw [update, if_pos hempty] at h
    cases h
    exact ⟨rfl, rfl⟩
  · rw [update, if_neg hempty, notifyByPort] at h
    cases hparse : parseMessage c.payload with
    | error e => simp [hparse, bind, Except.bind] at h
    | ok msg =>
      simp only [hparse, bind, Except.bind] at h
      split at h
      · cases h
        exact ⟨rfl, rfl⟩
      · rename_i hgood
        have hdata : msg.control = .NONE := by
          by_contra hcontrol
          simp_all [acceptedMessage]
        simp only [handle, hdata] at h
        cases h
        exact ⟨rfl, by simpa using sent_forwardToObservers _ _ _⟩

/-- Only the frames of accepted control messages have an effect on the instance, and only
their handlers send anything. -/
theorem update_cases {env : Env} {p p' : Instance} {c : AsyncCapsule} {effects : List Effect}
    (h : update env p c = .ok (p', effects)) :
    (acceptedMessage env c = none ∧ p' = p ∧ sent effects = []) ∨
    ∃ msg r more, acceptedMessage env c = some msg ∧ handle env p msg c = .ok r ∧ p' = r.inst ∧
      effects = r.effects ++ more ∧ sent more = [] := by
  cases haccepted : acceptedMessage env c with
  | none => exact Or.inl ⟨rfl, update_of_not_accepted haccepted h⟩
  | some msg =>
    rw [update_of_accepted haccepted] at h
    cases hr : handle env p msg c with
    | error e =>
      rw [hr] at h
      cases h
    | ok r =>
      rw [hr] at h
      cases h
      refine Or.inr ⟨msg, r, _, rfl, hr, rfl, rfl, ?_⟩
      split
      · exact sent_forwardToObservers _ _ _
      · rfl

/-- A machine after a frame. An exception ends the process, with the tables as they are. -/
def processed (env : Env) (p : Instance) (c : AsyncCapsule) : Instance × List Effect :=
  match update env p c with
  | .ok r => r
  | .error _ => (p, [])

/-- The handler sends the frames, the observers none. -/
theorem transmit_mem_processed {env : Env} {p : Instance} {c : AsyncCapsule} {msg : Message}
    (haccepted : acceptedMessage env c = some msg) {r : Handled} (hr : handle env p msg c = .ok r)
    {kind : SendKind} {src dst : Endpoint} {payload : Bytes} :
    .transmit kind src dst payload ∈ (processed env p c).2 ↔
      .transmit kind src dst payload ∈ r.effects := by
  rw [processed, update_of_accepted haccepted, hr]
  simp only [Except.map, List.mem_append, or_iff_left_iff_imp]
  split
  · exact fun h => absurd h not_transmit_forwardToObservers
  · exact fun h => absurd h List.not_mem_nil

/-! ## Coordinators -/

theorem inInt_vm (b : UInt8) : InInt b.toNat := by
  have := UInt8.toNat_lt b
  exact inInt_of_lt _ (by omega)

theorem inInt_group {gid : ℤ} (h : 0 ≤ gid ∧ gid < 4) : InInt gid := by
  constructor <;> omega

theorem coordinators_range : ∀ c ∈ GROUP_COORDINATORS, 0 ≤ c ∧ c ≤ 255 := by decide

theorem knownCoordinator_mem {gid : ℤ} (h : 0 ≤ gid ∧ gid < 4) :
    knownCoordinator gid ∈ GROUP_COORDINATORS := by
  obtain ⟨h0, h4⟩ := h
  interval_cases gid <;> decide

theorem vmIdFromMac_vmAddress (b : UInt8) : vmIdFromMac (vmAddress b) = b.toNat := rfl

/-- An environment in which every tag passes. -/
def acceptingEnv : Env where
  accepts _ _ := true
  now _ := 0
  stray _ := 0

/-- The notification that a coordinator sends to another one. -/
def note (env : Env) (p : Instance) (body : Bytes) (i : ℕ) (coordVm : ℤ) : Effect :=
  .transmit (.control .GROUP_MOVE_NOTIFY) ⟨p.address, p.controlLocal.port⟩
    ⟨vmAddress (UInt8.ofNat coordVm.toNat), p.controlLocal.port⟩
    (buildMessage (controlMessage p p.controlLocal .GROUP_MOVE_NOTIFY 0 body (env.now i)))

theorem notifyCoordinators_eq (env : Env) (p : Instance) {body : Bytes}
    (hbody : body.length ≤ 1000) {cs : List ℤ} (hcs : ∀ c ∈ cs, 0 ≤ c ∧ c ≤ 255) (i : ℕ) :
    notifyCoordinators env p body cs i =
      .ok (((cs.filter (· ≠ vmIdFromMac p.address)).zipIdx i).map fun e =>
        note env p body e.2 e.1) := by
  induction cs generalizing i with
  | nil => rfl
  | cons c cs ih =>
    have hrest : ∀ c ∈ cs, 0 ≤ c ∧ c ≤ 255 := fun c hc => hcs c (List.mem_cons_of_mem _ hc)
    rw [notifyCoordinators]
    split
    · rename_i hself
      rw [ih hrest, List.filter_cons_of_neg (by simp [hself])]
    · rename_i hother
      obtain ⟨h0, h255⟩ := hcs c List.mem_cons_self
      rw [endpointFromVm_ok c _ h0 h255, ih hrest, List.filter_cons_of_pos (by simp [hother])]
      simp only [bind, Except.bind, sendControl_eq hbody]
      rfl

/-! ## Move requests -/

/-- The table of the coordinator that answers a move request. -/
def answeredTable (t : GroupTable) (r gid : ℤ) : GroupTable :=
  (((t.setGroupForVm r gid).update gid fun g => { g with groupId := gid }).update gid
    (GroupInfo.eraseMember r)).update gid (GroupInfo.insertMember r)

section MoveRequest

variable {env : Env} {p : Instance} {msg : Message} {gid : ℤ}

theorem onGroupMoveRequest_other (hbody : stoi msg.body = .ok gid)
    (hother : vmIdFromMac p.address ≠ knownCoordinator gid) :
    onGroupMoveRequest env p msg =
      .ok { inst := { p with groups := p.groups.setGroupForVm msg.origVm.toNat gid }
            forward := false } := by
  simp only [onGroupMoveRequest, hbody, bind, Except.bind, getGroupOf_setGroupForVm, if_pos hother]
  rfl

theorem any_update (t : GroupTable) (f : GroupInfo → GroupInfo) :
    ((t.update gid f).any fun e => e.1 = gid) = true := by
  induction t with
  | nil => simp [GroupTable.update]
  | cons e t ih =>
    rw [GroupTable.update]
    split
    · rename_i hk
      simp [hk]
    · rw [List.any_cons, ih, Bool.or_true]

/-- The coordinator of the requested group answers, since it has already put the requester
there when it looks for the requester's group. -/
theorem onGroupMoveRequest_coordinator (hbody : stoi msg.body = .ok gid)
    (hcoord : vmIdFromMac p.address = knownCoordinator gid) :
    let q := { p with groups := answeredTable p.groups msg.origVm.toNat gid }
    onGroupMoveRequest env p msg = .ok {
      inst := q
      effects := ((GROUP_COORDINATORS.filter (· ≠ vmIdFromMac p.address)).zipIdx.map fun e =>
          note env q (notifyBody msg.origVm.toNat gid gid) e.2 e.1) ++
        sendControl q q.controlLocal ⟨vmAddress msg.origVm, q.controlLocal.port⟩ .GROUP_ASSIGN
          0 (intText gid) (env.now 3) } := by
  intro q
  have hrange := knownCoordinator_nonneg (hcoord ▸ vmIdFromMac_nonneg p.address)
  have hnote : (notifyBody msg.origVm.toNat gid gid).length ≤ 1000 :=
    length_notifyBody_le (inInt_vm _) (inInt_group hrange) (inInt_group hrange)
  have hvm := UInt8.toNat_lt msg.origVm
  simp only [onGroupMoveRequest, hbody, bind, Except.bind, getGroupOf_setGroupForVm, hcoord, ne_eq,
    not_true_eq_false, if_false, any_update, if_true,
    notifyCoordinators_eq env _ hnote coordinators_range,
    endpointFromVm_ok _ _ (Int.natCast_nonneg _) (show (msg.origVm.toNat : ℤ) ≤ 255 by omega)]
  simp [q, answeredTable, pure, Except.pure]

end MoveRequest

theorem placed_answeredTable (t : GroupTable) (r gid : ℤ) :
    Placed t (answeredTable t r gid) r gid := by
  intro v g
  rw [answeredTable, inGroup_update_insert]
  split
  · rename_i hv
    constructor
    · rintro (h | ⟨-, h⟩)
      · have hset := inGroup_of_update_erase h
        rwa [inGroup_update_groupId, inGroup_setGroupForVm, if_pos hv] at hset
      · exact h
    · intro h
      exact Or.inr ⟨hv, h⟩
  · rename_i hv
    rw [inGroup_update_erase_of_ne hv, inGroup_update_groupId, inGroup_setGroupForVm, if_neg hv]
    simp [hv]

/-- The answering coordinator writes the id of the entry it has made. -/
theorem wellFormed_answeredTable {t : GroupTable} (h : WellFormed t) (r gid : ℤ) :
    WellFormed (answeredTable t r gid) := by
  have hkeys : ((t.setGroupForVm r gid).map Prod.fst).Nodup :=
    nodup_keys_update (by simpa [Function.comp_def] using h.keys)
  have hids : ∀ e ∈ t.setGroupForVm r gid, e.1 ≠ gid → e.2.groupId = e.1 := by
    intro e he hne
    rcases mem_update he with he | rfl | ⟨info, -, rfl⟩
    · obtain ⟨a, ha, rfl⟩ := List.mem_map.mp he
      exact h.ids a ha
    · exact (hne rfl).elim
    · exact (hne rfl).elim
  have hid := wellFormed_update_id hkeys hids (f := fun g => { g with groupId := gid }) fun _ => rfl
  have herase := hid.update_keep (f := GroupInfo.eraseMember r) (fun _ => rfl)
    (Or.inl (by rw [hasEntry_update, decide_eq_true rfl, Bool.or_true]))
  exact herase.update_keep groupId_insertMember
    (Or.inl (by rw [hasEntry_update, decide_eq_true rfl, Bool.or_true]))

/-! ## Move notifications -/

/-- The table of a coordinator that has been notified of a move. -/
def notifiedTable (t : GroupTable) (vmId oldGid newGid : ℤ) : GroupTable :=
  (((t.update oldGid fun g => { g with groupId := oldGid }).update newGid fun g =>
    { g with groupId := newGid }).update oldGid (GroupInfo.eraseMember vmId)).update newGid
      (GroupInfo.insertMember vmId)

theorem onGroupMoveNotify_eq {env : Env} {p : Instance} {msg : Message} {vmId oldGid newGid : ℤ}
    (hbody : scanNotify msg.body = some (vmId, oldGid, newGid)) :
    onGroupMoveNotify env p msg =
      if vmIdFromMac p.address = coordinatorForGroup env oldGid ∨
          vmIdFromMac p.address = coordinatorForGroup env newGid then
        { inst := { p with groups := notifiedTable p.groups vmId oldGid newGid } }
      else { inst := p, forward := false } := by
  rw [onGroupMoveNotify, hbody]
  rfl

theorem wellFormed_notifiedTable {t : GroupTable} (h : WellFormed t) (vmId oldGid newGid : ℤ) :
    WellFormed (notifiedTable t vmId oldGid newGid) := by
  have hids := (h.update_id (f := fun g => { g with groupId := oldGid }) fun _ => rfl).update_id
    (f := fun g => { g with groupId := newGid }) fun _ => rfl
  have herase := hids.update_keep (f := GroupInfo.eraseMember vmId) (fun _ => rfl)
    (Or.inl (show hasEntry _ oldGid = true by simp [hasEntry_update]))
  exact herase.update_keep groupId_insertMember (Or.inl (by simp [hasEntry_update]))

/-- A vehicle that is in no third group is in the new one alone afterwards. -/
theorem placed_notifiedTable {t : GroupTable} (h : (t.map Prod.fst).Nodup) {vmId oldGid newGid : ℤ}
    (halone : ∀ g, InGroup t vmId g → g = oldGid ∨ g = newGid) :
    Placed t (notifiedTable t vmId oldGid newGid) vmId newGid := by
  intro v g
  rw [notifiedTable, inGroup_update_insert,
    inGroup_update_erase (nodup_keys_update (nodup_keys_update h)), inGroup_update_groupId,
    inGroup_update_groupId]
  split
  · rename_i hv
    subst hv
    constructor
    · rintro (⟨hin, hold⟩ | ⟨-, hnew⟩)
      · exact (halone g hin).resolve_left fun hg => hold ⟨rfl, hg⟩
      · exact hnew
    · intro hg
      exact Or.inr ⟨rfl, hg⟩
  · rename_i hv
    simp [hv]

end CarNetwork.Protocol
