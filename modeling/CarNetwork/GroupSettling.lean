import CarNetwork.GroupAgreement
import CarNetwork.Progress
import CarNetwork.Replacement

/-!
# A move is carried out

A request to be moved sets off assignments and notifications, an assignment at most one
more notification, and a notification nothing. So the traffic ends, in whatever order it is
delivered, and when it has ended, a vehicle that was patient is in the group it asked for
and all coordinators know it.
-/
namespace CarNetwork.GroupMap

open CarNetwork.ByteText CarNetwork.DecimalText CarNetwork.Conversions CarNetwork.Ethernet
open CarNetwork.Protocol CarNetwork.Runs CarNetwork.Replacement GroupTable

/-! ## What a reception sends -/

/-- Every message sets off messages of lower ranks only. -/
def News.rank : News → ℕ
  | .request _ _ => 3
  | .assign _ => 2
  | .notify _ _ _ => 1
  | .data => 0
  | .other => 0

section Received

variable {p p' : Instance} {c : AsyncCapsule} {now : ℕ → UInt64} {stray : ℤ → ℤ}
  {effects : List Effect}

theorem length_sent_send_le (kind : SendKind) (src dst : Endpoint) (payload : Bytes) :
    (sent (send p kind src dst payload)).length ≤ 1 := by
  unfold send
  split <;> simp [sent, Effect.sent]

theorem length_sent_setCurrentGroup_le {gid : ℤ} {time : UInt64}
    (h : setCurrentGroup p gid time = .ok (p', effects)) : (sent effects).length ≤ 1 := by
  unfold setCurrentGroup at h
  simp only at h
  split at h
  · rename_i hcoord
    rw [endpointFromVm_ok _ _ hcoord.1 (knownCoordinator_le gid)] at h
    cases h
    exact length_sent_send_le _ _ _ _
  · cases h
    exact length_sent_send_le _ _ _ _

theorem length_sent_le_length (effects : List Effect) : (sent effects).length ≤ effects.length :=
  List.length_filterMap_le _ _

/-- No message is answered with more than five frames. -/
theorem length_sent_received_le
    (h : update { accepts := fun _ _ => true, now, stray } p c = .ok (p', effects))
    (hnews : news c ≠ .other) : (sent effects).length ≤ 5 := by
  rcases update_cases h with ⟨-, -, hsent⟩ | ⟨msg, r, more, hmsg, hr, rfl, rfl, hmore⟩
  · simp [hsent]
  · have hmsg' : acceptedMessage acceptingEnv c = some msg := hmsg
    have hof : newsOf msg = news c := by rw [news, hmsg']
    rw [sent_append, hmore, List.append_nil]
    cases hn : news c with
    | request u gid =>
      obtain ⟨hcontrol, hbody, -⟩ := newsOf_request (hof.trans hn)
      simp only [handle, hcontrol] at hr
      by_cases hcoord : vmIdFromMac p.address = knownCoordinator gid
      · rw [onGroupMoveRequest_coordinator hbody hcoord] at hr
        cases hr
        have hnotes : ∀ f : ℤ × ℕ → Effect,
            (sent ((GROUP_COORDINATORS.filter (· ≠ vmIdFromMac p.address)).zipIdx.map f)).length ≤
              4 := by
          intro f
          refine (length_sent_le_length _).trans ?_
          rw [List.length_map, List.length_zipIdx]
          exact List.length_filter_le _ GROUP_COORDINATORS
        rw [sent_append, List.length_append]
        exact Nat.add_le_add (hnotes _) (length_sent_send_le _ _ _ _)
      · rw [onGroupMoveRequest_other hbody hcoord] at hr
        cases hr
        simp [sent]
    | notify u o n =>
      obtain ⟨hcontrol, hbody⟩ := newsOf_notify (hof.trans hn)
      simp only [handle, hcontrol, onGroupMoveNotify_eq hbody] at hr
      split at hr <;> cases hr <;> simp [sent]
    | assign gid =>
      obtain ⟨hcontrol, hbody⟩ := newsOf_assign (hof.trans hn)
      obtain ⟨es, hset, heq⟩ := onGroupAssign_ok { accepts := fun _ _ => true, now, stray } p hbody
      simp only [handle, hcontrol, heq] at hr
      cases hr
      exact (length_sent_setCurrentGroup_le hset).trans (by norm_num)
    | data => exact (newsOf_ne_data msg (hof.trans hn)).elim
    | other => exact (hnews hn).elim

/-- A message about groups does not raise an exception. -/
theorem update_ok (p : Instance) (now : ℕ → UInt64) (stray : ℤ → ℤ) (hdata : news c ≠ .data)
    (hnews : news c ≠ .other) :
    ∃ p' effects, update { accepts := fun _ _ => true, now, stray } p c = .ok (p', effects) := by
  cases haccepted : acceptedMessage acceptingEnv c with
  | none => exact (hdata (by rw [news, haccepted])).elim
  | some msg =>
    have hof : newsOf msg = news c := by rw [news, haccepted]
    have hmsg : acceptedMessage { accepts := fun _ _ => true, now, stray } c = some msg := haccepted
    obtain ⟨r, hr⟩ : ∃ r, handle { accepts := fun _ _ => true, now, stray } p msg c = .ok r := by
      cases hn : news c with
      | request u gid =>
        obtain ⟨hcontrol, hbody, -⟩ := newsOf_request (hof.trans hn)
        simp only [handle, hcontrol]
        by_cases hcoord : vmIdFromMac p.address = knownCoordinator gid
        · exact ⟨_, onGroupMoveRequest_coordinator hbody hcoord⟩
        · exact ⟨_, onGroupMoveRequest_other hbody hcoord⟩
      | notify u o n =>
        obtain ⟨hcontrol, -⟩ := newsOf_notify (hof.trans hn)
        simp only [handle, hcontrol]
        exact ⟨_, rfl⟩
      | assign gid =>
        obtain ⟨hcontrol, hbody⟩ := newsOf_assign (hof.trans hn)
        obtain ⟨es, -, heq⟩ := onGroupAssign_ok { accepts := fun _ _ => true, now, stray } p hbody
        simp only [handle, hcontrol]
        exact ⟨_, heq⟩
      | data => exact (hdata hn).elim
      | other => exact (hnews hn).elim
    rw [update_of_accepted hmsg, hr]
    exact ⟨_, _, rfl⟩

/-- A notification takes no vehicle out of a group, except one that it puts into another. -/
theorem received_notify_keeps {v o n u g : ℤ}
    (h : update { accepts := fun _ _ => true, now, stray } p c = .ok (p', effects))
    (hnews : news c = .notify v o n) (hin : InGroup p.groups u g) (hsame : u = v → g = n) :
    InGroup p'.groups u g := by
  obtain ⟨msg, r, more, hmsg, hr, rfl, -, -⟩ := update_news h (by rw [hnews]; simp)
  obtain ⟨hcontrol, hbody⟩ := newsOf_notify (hmsg.trans hnews)
  simp only [handle, hcontrol, onGroupMoveNotify_eq hbody] at hr
  split at hr
  · cases hr
    change InGroup (notifiedTable p.groups v o n) u g
    rw [notifiedTable, inGroup_update_insert]
    by_cases huv : u = v
    · exact Or.inr ⟨huv, hsame huv⟩
    · left
      rwa [inGroup_update_erase_of_ne huv, inGroup_update_groupId, inGroup_update_groupId]
  · cases hr
    exact hin

end Received

/-! ## Deliveries -/

def isDelivery {V : Type} : Action V → Bool
  | .deliver _ _ _ => true
  | _ => false

section Deliveries

variable {V : Type} [DecidableEq V] {d : Vehicles V} {goal : V → ℤ} {s s' : State V} {i : ℕ}
  {now : ℕ → UInt64}
  {stray : ℤ → ℤ}

theorem length_copies_le (w : V) (effects : List Effect) :
    (effects.flatMap (copies d w)).length ≤ (sent effects).length * d.vms.length := by
  induction effects with
  | nil => simp
  | cons x effects ih =>
    rw [List.flatMap_cons, List.length_append]
    cases x with
    | transmit kind src dst payload =>
      have hone : (copies d w (.transmit kind src dst payload)).length ≤ d.vms.length := by
        rw [copies, List.length_map]
        exact List.length_filter_le _ _
      have hsent : (sent (.transmit kind src dst payload :: effects)).length =
          (sent effects).length + 1 := rfl
      rw [hsent, Nat.succ_mul]
      omega
    | _ => exact (zero_add _).trans_le ih

theorem deliver_cases (h : step d s (.deliver i now stray) = some s') : ∃ w c p effects,
    s.flight[i]? = some (w, c) ∧
      update { accepts := fun _ _ => true, now, stray } (s.inst w) c = .ok (p, effects) ∧
      s' = received d s i w p effects := by
  simp only [step] at h
  split at h
  · cases h
  · rename_i w c hflight
    split at h
    · rename_i p effects hupdate
      exact ⟨w, c, p, effects, hflight, hupdate, (Option.some.inj h).symm⟩
    · cases h

/-- A reception sends messages of lower ranks only, and the agreement lasts. -/
theorem Agree.reception (hi : Agree d goal s) {w : V} {c : AsyncCapsule} {p : Instance}
    {effects : List Effect} (hflight : s.flight[i]? = some (w, c))
    (hupdate : update { accepts := fun _ _ => true, now, stray } (s.inst w) c = .ok (p, effects)) :
    Agree d goal (GroupMap.received d s i w p effects) ∧ news c ≠ .other ∧
      Sends (fun _ n => n.rank < (news c).rank) effects := by
  have hok := hi.flight (w, c) (List.mem_of_getElem? hflight)
  cases hnews : news c with
  | request r gid =>
    rw [hnews] at hok
    obtain ⟨v, -, hj, rfl, -⟩ := hok
    obtain ⟨-, -, -, hsends, -⟩ := received_request (hi.valid v hj) hupdate hnews
    refine ⟨hi.request hflight hnews hupdate, nofun, hsends.mono fun mac n hn => ?_⟩
    rcases hn with rfl | ⟨rfl, -⟩ <;> simp [News.rank]
  | notify u o n =>
    obtain ⟨-, -, -, hsends⟩ := received_notify hupdate hnews
    exact ⟨hi.notify hflight hnews hupdate, nofun, hsends⟩
  | assign gid =>
    rw [hnews] at hok
    obtain ⟨hj, rfl⟩ : s.joined w = true ∧ gid = goal w := hok
    obtain ⟨-, hsends⟩ := received_assign (hi.valid w hj) hupdate hnews
    refine ⟨hi.assign hflight hnews hupdate, nofun, hsends.mono fun mac n hn => ?_⟩
    rcases hn with rfl | rfl <;> simp [News.rank]
  | data => exact ⟨hi.data hflight hnews hupdate, nofun, (received_data hupdate hnews).2⟩
  | other =>
    rw [hnews] at hok
    exact hok.elim

/-- The step lemma: a delivery replaces a copy by a bounded number of copies of lower rank. -/
theorem Agree.deliver (hi : Agree d goal s) (h : step d s (.deliver i now stray) = some s') :
    Agree d goal s' ∧ ∃ x new, Replaces s.flight x new s'.flight ∧ new.length ≤ 5 * d.vms.length ∧
      ∀ y ∈ new, (news y.2).rank < (news x.2).rank := by
  obtain ⟨w, c, p, effects, hflight, hupdate, rfl⟩ := deliver_cases h
  obtain ⟨hagree, hother, hsends⟩ := hi.reception hflight hupdate
  refine ⟨hagree, (w, c), effects.flatMap (copies d w), ⟨i, hflight, rfl⟩, ?_, fun y hy => ?_⟩
  · exact (length_copies_le w effects).trans
      (Nat.mul_le_mul_right _ (length_sent_received_le hupdate hother))
  · obtain ⟨-, hrank, -⟩ := mem_copies hsends hy
    exact hrank

/-- Whatever is about groups can be delivered, so where nothing can be, nothing is. -/
theorem Agree.quiet (hi : Agree d goal s) (hset : Settled isDelivery (step d) s) : Quiet s := by
  intro e he
  by_contra hdata
  obtain ⟨w, c⟩ := e
  obtain ⟨i, hflight⟩ := List.mem_iff_getElem?.mp he
  have hother : news c ≠ .other := by
    intro hother
    have hok := hi.flight (w, c) he
    rw [hother] at hok
    exact hok
  obtain ⟨p, effects, hupdate⟩ := update_ok (s.inst w) (fun _ => 0) (fun _ => 0) hdata hother
  have hnone := hset (.deliver i (fun _ => 0) (fun _ => 0)) rfl
  simp [step, hflight, hupdate] at hnone

/-! ## What the coordinators know -/

/-- Every coordinator has the vehicle in the group, or has still to hear the request. -/
def Known (d : Vehicles V) (v : V) (gid : ℤ) (s : State V) : Prop :=
  ∀ w, d.isCoordinator w = true → InGroup (s.inst w).groups (d.id v) gid ∨ Asked s w (d.id v)

/-- Everybody is asked to move the vehicle. -/
theorem known_of_move {v : V} {gid : ℤ} {time : UInt64} (hi : Agree d goal s)
    (hcar : d.isCoordinator v = false) (h : step d s (.move v gid time) = some s') :
    Known d v gid s' := by
  simp only [step, Option.ite_none_right_eq_some, Option.some.injEq] at h
  obtain ⟨⟨-, hgid⟩, rfl⟩ := h
  intro w hw
  right
  have hx : .transmit (.control .GROUP_MOVE_REQUEST) ⟨(s.inst v).address,
      (s.inst v).controlLocal.port⟩
      (broadcastEndpoint (s.inst v))
      (buildMessage (controlMessage (s.inst v) (s.inst v).controlLocal
        .GROUP_MOVE_REQUEST 0 (intText gid) time)) ∈ moveGroup (s.inst v) gid time :=
    mem_sendControl ((length_intText_int (inInt_group hgid)).trans (by norm_num))
  refine ⟨_, List.mem_append_right _ (copy_of_transmit hx (ne_of_isCoordinator hw hcar)
    (Or.inl rfl)), rfl, gid, ?_⟩
  rw [news_request (inInt_group hgid) rfl]
  exact congrArg (News.request · gid) (congrArg vmIdFromMac (hi.endpoint v))

/-- A coordinator that has heard of the move keeps the vehicle where it is. -/
theorem Known.deliver {v : V} (hi : Agree d goal s) (hk : Known d v (goal v) s)
    (h : step d s (.deliver i now stray) = some s') : Known d v (goal v) s' := by
  obtain ⟨w', c, p, effects, hflight, hupdate, rfl⟩ := deliver_cases h
  have hok := hi.flight (w', c) (List.mem_of_getElem? hflight)
  intro w hw
  by_cases hww : w = w'
  · subst hww
    change InGroup (Function.update s.inst w p w).groups _ _ ∨ _
    rw [Function.update_self]
    cases hnews : news c with
    | request r gid =>
      rw [hnews] at hok
      obtain ⟨u, rfl, hj, rfl, -⟩ := hok
      obtain ⟨groups, rfl, hplaced, -, -⟩ := received_request (hi.valid u hj) hupdate hnews
      by_cases huv : d.id v = d.id u
      · left
        obtain rfl := d.distinct _ _ huv
        exact (hplaced.self _).mpr rfl
      · refine (hk w hw).imp (hplaced.of_ne huv _).mpr fun ha =>
          ha.received hflight (Or.inr fun g heq => huv ?_)
        rw [hnews] at heq
        injection heq with heq
        exact heq.symm
    | notify u o n =>
      rw [hnews] at hok
      obtain ⟨v', rfl, -, rfl⟩ := hok
      refine (hk w hw).imp (fun hin => received_notify_keeps hupdate hnews hin fun heq => ?_)
        fun ha => ha.received hflight (Or.inr (by simp [hnews]))
      rw [d.distinct _ _ heq]
    | assign gid =>
      rw [hnews] at hok
      obtain ⟨hj, rfl⟩ : s.joined w = true ∧ gid = goal w := hok
      obtain ⟨rfl, -⟩ := received_assign (hi.valid w hj) hupdate hnews
      exact (hk w hw).imp (fun hin => inGroup_registered.mpr (Or.inl hin))
        fun ha => ha.received hflight (Or.inr (by simp [hnews]))
    | data =>
      obtain ⟨rfl, -⟩ : p = s.inst w ∧ Sends (fun _ _ => False) effects :=
        received_data hupdate hnews
      exact (hk w hw).imp_right fun ha => ha.received hflight (Or.inr (by simp [hnews]))
    | other =>
      rw [hnews] at hok
      exact hok.elim
  · change InGroup (Function.update s.inst w' p w).groups _ _ ∨ _
    rw [Function.update_of_ne hww]
    exact (hk w hw).imp_right fun ha => ha.received hflight (Or.inl hww)

omit [DecidableEq V] in
/-- With nothing in flight, the vehicle is where it is to be, and all coordinators know. -/
theorem Agree.carried_out {v : V} (hi : Agree d goal s) (hk : Known d v (goal v) s)
    (hj : s.joined v = true) (hquiet : Quiet s) : (s.inst v).currentGroupId = goal v ∧
      ∀ w, d.isCoordinator w = true → ∀ g, InGroup (s.inst w).groups (d.id v) g ↔ g = goal v := by
  have hasked : ∀ w u, ¬ Asked s w u := by
    rintro w u ⟨e, he, -, g, hg⟩
    rw [hquiet e he] at hg
    cases hg
  refine ⟨?_, fun w hw g => ⟨fun hin => ?_, fun hg => ?_⟩⟩
  · rcases hi.current v hj with hcur | ⟨w, -, ha⟩ | ⟨e, he, -, g, hg⟩
    · exact hcur
    · exact (hasked _ _ ha).elim
    · rw [hquiet e he] at hg
      cases hg
  · obtain ⟨v', hv', -, hg⟩ := hi.table w hw _ g hin
    obtain rfl := d.distinct _ _ hv'
    exact hg.resolve_right (hasked _ _)
  · exact hg ▸ (hk w hw).resolve_right (hasked _ _)

end Deliveries

section Move

variable {V : Type} [DecidableEq V] (d : Vehicles V)

end Move

end CarNetwork.GroupMap
