import CarNetwork.GroupMessages

/-!
# What group messages say and what their handlers send

A frame is reduced to its news about the groups: a request to be moved, a notification
that a vehicle has moved, an assignment, or nothing. For each of them, one lemma says what
its handler does to the table and which news the frames it sends carry, when every tag is
accepted.
-/
namespace CarNetwork.GroupMap

open CarNetwork.ByteText CarNetwork.DecimalText CarNetwork.Conversions CarNetwork.Ethernet
open CarNetwork.Protocol GroupTable

/-! ## Messages -/

/-- What a frame says about the groups. -/
inductive News
  | request (vmId gid : ℤ)
  | notify (vmId oldGid newGid : ℤ)
  | assign (gid : ℤ)
  | data
  | other
  deriving DecidableEq

/-- The news in a control message. -/
def newsOf (msg : Message) : News :=
  match msg.control with
  | .GROUP_MOVE_REQUEST =>
    match stoi msg.body with
    | .ok gid => .request msg.origVm.toNat gid
    | .error _ => .other
  | .GROUP_MOVE_NOTIFY =>
    match scanNotify msg.body with
    | some (vmId, oldGid, newGid) => .notify vmId oldGid newGid
    | none => .other
  | .GROUP_ASSIGN =>
    match stoi msg.body with
    | .ok gid => .assign gid
    | .error _ => .other
  | _ => .other

def news (c : AsyncCapsule) : News :=
  match acceptedMessage acceptingEnv c with
  | some msg => newsOf msg
  | none => .data

/-! ## What the handlers send -/

section Handlers

variable {p p' : Instance} {c : AsyncCapsule} {gid : ℤ}

theorem news_control {src : Endpoint} {t : ControlType} {tag : UInt8} {body : Bytes} {time : UInt64}
    (hp : c.payload = buildMessage (controlMessage p src t tag body time)) (ht : t ≠ .NONE) :
    news c = newsOf (controlMessage p src t tag (cleanBody body) time) := by
  have haccepted : acceptedMessage acceptingEnv c =
      some (controlMessage p src t tag (cleanBody body) time) := by
    rw [acceptedMessage, hp, parse_build]
    exact if_pos ⟨ht, rfl⟩
  rw [news, haccepted]

theorem news_request {src : Endpoint} {tag : UInt8} {time : UInt64} (hgid : InInt gid)
    (hp : c.payload = buildMessage (controlMessage p src .GROUP_MOVE_REQUEST tag
      (intText gid) time)) :
    news c = .request (vmIdFromMac src.mac) gid := by
  have hbyte := uint8_ofInt_toNat src.mac.lastOctet
  rw [news_control hp (by decide), cleanBody_intText]
  simp only [newsOf, controlMessage, stoi_intText gid hgid, vmIdFromMac, hbyte]

theorem news_notify {src : Endpoint} {tag : UInt8} {time : UInt64} {v o n : ℤ}
    (hv : InInt v) (ho : InInt o) (hn : InInt n)
    (hp : c.payload = buildMessage (controlMessage p src .GROUP_MOVE_NOTIFY tag
      (notifyBody v o n) time)) :
    news c = .notify v o n := by
  rw [news_control hp (by decide), cleanBody_notifyBody]
  simp only [newsOf, controlMessage, scan_notify hv ho hn]

theorem news_assign {src : Endpoint} {tag : UInt8} {time : UInt64} (hgid : InInt gid)
    (hp : c.payload = buildMessage (controlMessage p src .GROUP_ASSIGN tag (intText gid) time)) :
    news c = .assign gid := by
  rw [news_control hp (by decide), cleanBody_intText]
  simp only [newsOf, controlMessage, stoi_intText gid hgid]

theorem news_groupInfo (hp : c.payload = groupInfoText p gid) : news c = .data := by
  have hnone : acceptedMessage acceptingEnv c = none := by
    rw [acceptedMessage, hp, parseMessage_of_no_field (equals_notMem_groupInfoText p gid)]
    exact if_neg (by simp)
  rw [news, hnone]

/-- Every frame among the effects has a destination and news with the property. -/
def Sends (Q : Address → News → Prop) (effects : List Effect) : Prop :=
  ∀ kind src dst payload, .transmit kind src dst payload ∈ effects →
    Q dst.mac (news ⟨src, dst, .ethernet, payload⟩)

variable {Q Q' : Address → News → Prop} {as bs : List Effect}

theorem Sends.append (ha : Sends Q as) (hb : Sends Q bs) : Sends Q (as ++ bs) := by
  intro kind src dst payload h
  rcases List.mem_append.mp h with h | h
  · exact ha kind src dst payload h
  · exact hb kind src dst payload h

theorem Sends.mono (h : Sends Q as) (himp : ∀ mac n, Q mac n → Q' mac n) : Sends Q' as :=
  fun kind src dst payload hx => himp _ _ (h kind src dst payload hx)

theorem sends_of_silent (h : sent as = []) : Sends Q as := by
  intro kind src dst payload hx
  have hnone := List.filterMap_eq_nil_iff.mp h _ hx
  simp [Effect.sent] at hnone

theorem sends_sendControl {src dst : Endpoint} {t : ControlType} {tag : UInt8} {body : Bytes}
    {time : UInt64} (h : ∀ c : AsyncCapsule,
      c.payload = buildMessage (controlMessage p src t tag body time) → Q dst.mac (news c)) :
    Sends Q (sendControl p src dst t tag body time) := by
  intro kind src' dst' payload hx
  have heq := mem_send hx
  injection heq with _ _ hdst hpayload
  subst hdst hpayload
  exact h _ rfl

theorem mem_sendControl {src dst : Endpoint} {t : ControlType} {tag : UInt8} {body : Bytes}
    {time : UInt64} (h : body.length ≤ 1000) :
    .transmit (.control t) ⟨p.address, src.port⟩ dst
      (buildMessage (controlMessage p src t tag body time)) ∈
      sendControl p src dst t tag body time := by
  rw [sendControl_eq h]
  exact List.mem_singleton_self _

theorem sends_broadcastGroupInfo (h : ∀ mac, Q mac .data) : Sends Q (broadcastGroupInfo p gid) := by
  intro kind src dst payload hx
  have heq := mem_send hx
  injection heq with _ _ hdst hpayload
  subst hdst hpayload
  rw [news_groupInfo rfl]
  exact h _

/-- `set_current_group` tells the coordinator of the group, or announces the members. -/
theorem sends_setCurrentGroup {time : UInt64} {effects : List Effect} (hgid : 0 ≤ gid ∧ gid < 4)
    (h : setCurrentGroup p gid time = .ok (p', effects)) :
    p' = inGroup p gid ∧ Sends (fun _ n => n = .notify (vmIdFromMac p.address) (-1) gid ∨
      n = .data) effects := by
  unfold setCurrentGroup at h
  simp only at h
  split at h
  · rename_i hcoord
    rw [endpointFromVm_ok _ _ hcoord.1 (knownCoordinator_le gid)] at h
    cases h
    refine ⟨rfl, sends_sendControl fun c hc => Or.inl ?_⟩
    exact news_notify (inInt_vm _) (by constructor <;> norm_num) (inInt_group hgid) hc
  · cases h
    exact ⟨rfl, sends_broadcastGroupInfo fun _ => Or.inr rfl⟩

theorem vmAddress_ne_broadcast (b : UInt8) : vmAddress b ≠ Address.BROADCAST := by
  intro h
  have h0 := congrArg (fun a : Address => a.addr.toList.head?) h
  simp [vmAddress, Address.BROADCAST] at h0

theorem newsOf_request {msg : Message} {r : ℤ} (h : newsOf msg = .request r gid) :
    msg.control = .GROUP_MOVE_REQUEST ∧ stoi msg.body = .ok gid ∧ r = msg.origVm.toNat := by
  unfold newsOf at h
  split at h <;> try split at h
  all_goals first | cases h
  exact ⟨by assumption, by assumption, rfl⟩

theorem newsOf_notify {msg : Message} {v o n : ℤ} (h : newsOf msg = .notify v o n) :
    msg.control = .GROUP_MOVE_NOTIFY ∧ scanNotify msg.body = some (v, o, n) := by
  unfold newsOf at h
  split at h <;> try split at h
  all_goals first | cases h
  exact ⟨by assumption, by assumption⟩

theorem newsOf_assign {msg : Message} (h : newsOf msg = .assign gid) :
    msg.control = .GROUP_ASSIGN ∧ stoi msg.body = .ok gid := by
  unfold newsOf at h
  split at h <;> try split at h
  all_goals first | cases h
  exact ⟨by assumption, by assumption⟩

theorem newsOf_ne_data (msg : Message) : newsOf msg ≠ .data := by
  unfold newsOf
  split <;> try split
  all_goals simp

variable {now : ℕ → UInt64} {stray : ℤ → ℤ} {effects : List Effect}

/-- An accepted message with news has been handled. -/
theorem update_news (h : update { accepts := fun _ _ => true, now, stray } p c = .ok (p', effects))
    (hnews : news c ≠ .data) : ∃ msg r more, newsOf msg = news c ∧
      handle { accepts := fun _ _ => true, now, stray } p msg c = .ok r ∧ p' = r.inst ∧
      effects = r.effects ++ more ∧ sent more = [] := by
  rcases update_cases h with ⟨hnone, -, -⟩ | ⟨msg, r, more, hmsg, hrest⟩
  · refine (hnews ?_).elim
    have hnone' : acceptedMessage acceptingEnv c = none := hnone
    rw [news, hnone']
  · have hmsg' : acceptedMessage acceptingEnv c = some msg := hmsg
    exact ⟨msg, r, more, by rw [news, hmsg'], hrest⟩

theorem received_data (h : update { accepts := fun _ _ => true, now, stray } p c =
      .ok (p', effects))
    (hnews : news c = .data) : p' = p ∧ Sends Q effects := by
  rcases update_cases h with ⟨-, hp, hsent⟩ | ⟨msg, r, more, hmsg, -⟩
  · exact ⟨hp, sends_of_silent hsent⟩
  · have hmsg' : acceptedMessage acceptingEnv c = some msg := hmsg
    rw [news, hmsg'] at hnews
    exact (newsOf_ne_data msg hnews).elim

theorem received_notify {v o n : ℤ}
    (h : update { accepts := fun _ _ => true, now, stray } p c = .ok (p', effects))
    (hnews : news c = .notify v o n) :
    ∃ groups, p' = { p with groups } ∧
      (∀ u g, InGroup groups u g → InGroup p.groups u g ∨ (u = v ∧ g = n)) ∧ Sends Q effects := by
  obtain ⟨msg, r, more, hmsg, hr, rfl, rfl, hmore⟩ := update_news h (by rw [hnews]; simp)
  obtain ⟨hcontrol, hbody⟩ := newsOf_notify (hmsg.trans hnews)
  simp only [handle, hcontrol, onGroupMoveNotify_eq hbody] at hr
  split at hr
  · cases hr
    refine ⟨_, rfl, fun u g hin => ?_, sends_of_silent hmore⟩
    rw [notifiedTable, inGroup_update_insert] at hin
    refine hin.imp_left fun hin => ?_
    have := inGroup_of_update_erase hin
    rwa [inGroup_update_groupId, inGroup_update_groupId] at this
  · cases hr
    exact ⟨p.groups, rfl, fun u g hin => Or.inl hin, sends_of_silent hmore⟩

theorem received_assign (hgid : 0 ≤ gid ∧ gid < 4)
    (h : update { accepts := fun _ _ => true, now, stray } p c = .ok (p', effects))
    (hnews : news c = .assign gid) :
    p' = inGroup p gid ∧ Sends (fun _ n => n = .notify (vmIdFromMac p.address) (-1) gid ∨
      n = .data) effects := by
  obtain ⟨msg, r, more, hmsg, hr, rfl, rfl, hmore⟩ := update_news h (by rw [hnews]; simp)
  obtain ⟨hcontrol, hbody⟩ := newsOf_assign (hmsg.trans hnews)
  obtain ⟨effects, hset, heq⟩ := onGroupAssign_ok { accepts := fun _ _ => true, now, stray } p hbody
  simp only [handle, hcontrol, heq] at hr
  cases hr
  exact ⟨rfl, (sends_setCurrentGroup hgid hset).2.append (sends_of_silent hmore)⟩

/-- Everybody moves the vehicle; the coordinator of its new group assigns it. -/
theorem received_request {r : ℤ} (hgid : 0 ≤ gid ∧ gid < 4)
    (h : update { accepts := fun _ _ => true, now, stray } p c = .ok (p', effects))
    (hnews : news c = .request r gid) :
    ∃ groups, p' = { p with groups } ∧ Placed p.groups groups r gid ∧
      Sends (fun mac n => n = .notify r gid gid ∨
        (n = .assign gid ∧ vmIdFromMac mac = r ∧ mac ≠ Address.BROADCAST)) effects ∧
      (vmIdFromMac p.address = knownCoordinator gid → ∃ kind src dst payload,
        .transmit kind src dst payload ∈ effects ∧ vmIdFromMac dst.mac = r ∧
        news ⟨src, dst, .ethernet, payload⟩ = .assign gid) := by
  obtain ⟨msg, h', more, hmsg, hr, rfl, rfl, hmore⟩ := update_news h (by rw [hnews]; simp)
  obtain ⟨hcontrol, hbody, rfl⟩ := newsOf_request (hmsg.trans hnews)
  simp only [handle, hcontrol] at hr
  by_cases hcoord : vmIdFromMac p.address = knownCoordinator gid
  · rw [onGroupMoveRequest_coordinator hbody hcoord] at hr
    cases hr
    refine ⟨_, rfl, placed_answeredTable _ _ _, (Sends.append ?_ ?_).append (sends_of_silent hmore),
      fun _ => ?_⟩
    · intro kind src dst payload hx
      obtain ⟨e, -, he⟩ := List.mem_map.mp hx
      injection he with _ _ hdst hpayload
      subst hpayload
      exact Or.inl (news_notify (inInt_vm _) (inInt_group hgid) (inInt_group hgid) rfl)
    · exact sends_sendControl fun c hc =>
        Or.inr ⟨news_assign (inInt_group hgid) hc, rfl, vmAddress_ne_broadcast _⟩
    · have hlen : (intText gid).length ≤ 1000 :=
        (length_intText_int (inInt_group hgid)).trans (by norm_num)
      exact ⟨_, _, _, _, List.mem_append_left _ (List.mem_append_right _ (mem_sendControl hlen)),
        rfl, news_assign (inInt_group hgid) rfl⟩
  · rw [onGroupMoveRequest_other hbody hcoord] at hr
    cases hr
    exact ⟨_, rfl, placed_setGroupForVm _ _ _, sends_of_silent hmore, fun hc => (hcoord hc).elim⟩

end Handlers

end CarNetwork.GroupMap
