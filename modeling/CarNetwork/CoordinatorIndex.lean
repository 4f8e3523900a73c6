import CarNetwork.CarGroups
import CarNetwork.Fleet
import CarNetwork.GroupNews

/-!
# Indices into the coordinator table

`GROUP_COORDINATORS` has four entries, and three places of the program read it without
looking at the index. The index is a group id that has come out of a message, of the
table or of the current group. As long as vehicles are only sent to the groups 0 to 3,
the only id out of range is the -1 that stands for "no group" in the notification of a
vehicle that joins: whoever receives one reads in front of the table.
-/
namespace CarNetwork.CoordinatorTable

open CarNetwork.ByteText CarNetwork.DecimalText CarNetwork.Conversions CarNetwork.Ethernet
open CarNetwork.Protocol CarNetwork.Car CarNetwork.GroupMap CarNetwork.Runs GroupTable
open CarNetwork.Fleet.Deployment (vmMac)

/-- A position of `GROUP_COORDINATORS`. -/
def Valid (gid : ℤ) : Prop := 0 ≤ gid ∧ gid < 4

instance (gid : ℤ) : Decidable (Valid gid) := inferInstanceAs (Decidable (_ ∧ _))

/-! ## Reads -/

/-- The unguarded reads of the table by the handler of a message. -/
def messageReads (env : Env) (p : Instance) (msg : Message) : List ℤ :=
  match msg.control with
  | .GROUP_MOVE_NOTIFY =>
    match scanNotify msg.body with
    | none => []
    | some (_, oldGid, newGid) =>
      -- the second operand of the disjunction is evaluated if the first one is false
      if vmIdFromMac p.address = coordinatorForGroup env oldGid then [oldGid] else [oldGid, newGid]
  | .GROUP_REGISTER => [registerGroup p msg.origVm.toNat]
  | _ => []

def frameReads (env : Env) (p : Instance) (c : AsyncCapsule) : List ℤ :=
  match acceptedMessage env c with
  | some msg => messageReads env p msg
  | none => []

/-- The read in `register_with_coordinator`. -/
def registerReads (p : Instance) (isMasterNode : Bool) : List ℤ :=
  if isMasterNode then [] else [p.currentGroupId]

section Reads

variable {env : Env} {p : Instance} {msg : Message} {c : AsyncCapsule} {stray : ℤ → ℤ}

theorem coordinatorForGroup_of_valid {gid : ℤ} (h : Valid gid) (stray : ℤ → ℤ) :
    coordinatorForGroup { env with stray } gid = coordinatorForGroup env gid := by
  unfold Valid at h
  rw [coordinatorForGroup, coordinatorForGroup, if_pos h, if_pos h]

/-- A handler reads the table at these indices and nowhere else. -/
theorem handle_of_reads (h : ∀ i ∈ messageReads env p msg, Valid i) :
    handle { env with stray } p msg c = handle env p msg c := by
  have hvalid {i : ℤ} (hi : i ∈ messageReads env p msg) :
      coordinatorForGroup { env with stray } i = coordinatorForGroup env i :=
    coordinatorForGroup_of_valid (h i hi) stray
  unfold handle
  cases hcontrol : msg.control with
  | GROUP_MOVE_NOTIFY =>
    dsimp only
    cases hbody : scanNotify msg.body with
    | none => rw [onGroupMoveNotify, onGroupMoveNotify, hbody]
    | some b =>
      obtain ⟨vmId, oldGid, newGid⟩ := b
      rw [onGroupMoveNotify_eq hbody, onGroupMoveNotify_eq hbody]
      simp only [messageReads, hcontrol, hbody] at hvalid
      by_cases hold : vmIdFromMac p.address = coordinatorForGroup env oldGid
      · rw [hvalid (i := oldGid) (by simp [hold]), if_pos (Or.inl hold), if_pos (Or.inl hold)]
      · rw [hvalid (i := oldGid) (by simp [hold]), hvalid (i := newGid) (by simp [hold])]
  | GROUP_REGISTER =>
    simp only [messageReads, hcontrol, List.mem_singleton, forall_eq] at hvalid
    simp only [onGroupRegister_eq, hvalid]
  | _ => rfl

theorem update_of_reads (h : ∀ i ∈ frameReads env p c, Valid i) :
    update { env with stray } p c = update env p c := by
  simp only [Protocol.update, notifyByPort]
  cases hparse : parseMessage c.payload with
  | error e => rfl
  | ok m =>
    simp only [bind, Except.bind]
    by_cases hdropped : m.control ≠ .NONE ∧ env.accepts m.msgac m.body = false
    · simp only [if_pos hdropped]
    · simp only [if_neg hdropped]
      have hreads : ∀ i ∈ messageReads env p { m with body := cleanBody m.body }, Valid i := by
        by_cases hnone : m.control = .NONE
        · simp [messageReads, hnone]
        · have haccepts : env.accepts m.msgac m.body = true := by simpa [hnone] using hdropped
          simpa [frameReads, acceptedMessage, hparse, hnone, haccepts] using h
      rw [handle_of_reads hreads]

theorem register_of_reads {localEp : Endpoint} {vmId : Int8} {isMasterNode : Bool} {time : UInt64}
    (h : ∀ i ∈ registerReads p isMasterNode, Valid i) :
    registerWithCoordinator { env with stray } p localEp vmId isMasterNode time =
      registerWithCoordinator env p localEp vmId isMasterNode time := by
  cases isMasterNode with
  | true => rfl
  | false =>
    have hvalid : Valid p.currentGroupId := h _ (by simp [registerReads])
    simp only [registerWithCoordinator, coordinatorForGroup_of_valid hvalid]

end Reads

/-! ## The system -/

/-- Protocol instances and the frames that have been sent. -/
structure State (N : Type) where
  inst : N → Instance
  sent : List AsyncCapsule

inductive Action (N : Type)
  | setCurrentGroup (n : N) (gid : ℤ) (time : UInt64)
  | moveGroup (n : N) (gid : ℤ) (time : UInt64)
  | register (n : N) (localEp : Endpoint) (vmId : Int8) (isMasterNode : Bool) (env : Env)
      (time : UInt64)
  | deliver (i : ℕ) (n : N) (now : ℕ → UInt64) (stray : ℤ → ℤ)
  | configure (n : N) (p : Instance)
  | transmit (c : AsyncCapsule)

/-- The frames among the effects. -/
def frames (effects : List Effect) : List AsyncCapsule :=
  effects.filterMap fun
    | .transmit _ src dst payload => some ⟨src, dst, .ethernet, payload⟩
    | _ => none

/-- The frame is not about groups: data, the barrier or the clocks. -/
def foreign (c : AsyncCapsule) : Bool :=
  match acceptedMessage acceptingEnv c with
  | some msg => !msg.control.isGroup
  | none => true

section System

variable {N : Type} [DecidableEq N]

def initial (mac : N → Address) : State N where
  inst n := { address := mac n }
  sent := []

def State.after (s : State N) (n : N) (r : Except CxxException (Instance × List Effect)) :
    Option (State N) :=
  match r with
  | .ok (p, effects) => some ⟨Function.update s.inst n p, s.sent ++ frames effects⟩
  | .error _ => none

/-- A frame that has been sent may reach any instance, any number of times or never, and
every tag is accepted. What has nothing to do with groups may change the rest of an instance
and send other frames at any time. -/
def step (s : State N) : Action N → Option (State N)
  | .setCurrentGroup n gid time =>
    if InInt gid then s.after n (Protocol.setCurrentGroup (s.inst n) gid time) else none
  | .moveGroup n gid time =>
    if InInt gid then s.after n (.ok (s.inst n, Protocol.moveGroup (s.inst n) gid time)) else none
  | .register n localEp vmId isMasterNode env time =>
    s.after n ((registerWithCoordinator env (s.inst n) localEp vmId isMasterNode
      time).map (s.inst n, ·))
  | .deliver i n now stray =>
    s.sent[i]?.bind fun c => s.after n
      (update { accepts := fun _ _ => true, now, stray } (s.inst n) c)
  | .configure n p =>
    if p.address = (s.inst n).address ∧ p.currentGroupId = (s.inst n).currentGroupId ∧
        p.groups = (s.inst n).groups then
      some { s with inst := Function.update s.inst n p }
    else none
  | .transmit c => if foreign c then some { s with sent := s.sent ++ [c] } else none

/-- The indices at which a step reads the coordinator table unguarded. -/
def indices (s : State N) : Action N → List ℤ
  | .register n _ _ isMasterNode _ _ => registerReads (s.inst n) isMasterNode
  | .deliver i n now stray =>
    match s.sent[i]? with
    | some c => frameReads { accepts := fun _ _ => true, now, stray } (s.inst n) c
    | none => []
  | _ => []

/-- The groups that the program is asked for have a coordinator. -/
def targeted : Action N → Bool
  | .setCurrentGroup _ gid _ => decide (Valid gid)
  | .moveGroup _ gid _ => decide (Valid gid)
  | _ => true

/-- The step is the reception of the notification of a vehicle that joins. -/
def deliversJoin (s : State N) : Action N → Bool
  | .deliver i _ _ _ =>
    match s.sent[i]?.map news with
    | some (.notify _ oldGid _) => oldGid = -1
    | _ => false
  | _ => false

/-- The same step with other memory around the table. -/
def Action.withStray (stray : ℤ → ℤ) : Action N → Action N
  | .register n localEp vmId isMasterNode env time =>
    .register n localEp vmId isMasterNode { env with stray } time
  | .deliver i n now _ => .deliver i n now stray
  | a => a

end System

/-! ## The invariant -/

/-- The groups that a message names have a coordinator, except that a vehicle may come
from nowhere. -/
def NewsOk : News → Prop
  | .request _ gid => Valid gid
  | .notify _ oldGid newGid => (oldGid = -1 ∨ Valid oldGid) ∧ Valid newGid
  | .assign gid => Valid gid
  | .data => True
  | .other => True

/-- All groups of an instance have a coordinator. -/
structure InstanceOk (p : Instance) : Prop where
  current : Valid p.currentGroupId
  table : ∀ v g, InGroup p.groups v g → Valid g

structure Ok {N : Type} (s : State N) : Prop where
  inst : ∀ n, InstanceOk (s.inst n)
  sent : ∀ c ∈ s.sent, NewsOk (news c)

section Invariant

variable {p p' : Instance} {c : AsyncCapsule} {effects : List Effect} {gid : ℤ}

/-- Everything that is sent names groups with a coordinator. -/
abbrev SendsOk (effects : List Effect) : Prop := Sends (fun _ n => NewsOk n) effects

theorem InstanceOk.inGroup (h : InstanceOk p) (hgid : Valid gid) : InstanceOk (inGroup p gid) := by
  refine ⟨hgid, fun v g hin => ?_⟩
  rcases inGroup_registered.mp hin with hin | ⟨-, rfl⟩
  · exact h.table v g hin
  · exact hgid

theorem sendsOk_join (hgid : Valid gid) {v : ℤ}
    (h : Sends (fun _ n => n = .notify v (-1) gid ∨ n = .data) effects) : SendsOk effects := by
  refine h.mono fun _ n hn => ?_
  rcases hn with rfl | rfl
  · exact ⟨Or.inl rfl, hgid⟩
  · trivial

theorem InstanceOk.registerGroup (h : InstanceOk p) (v : ℤ) : Valid (registerGroup p v) := by
  unfold Protocol.registerGroup
  cases hfound : p.groups.getGroupOf v with
  | none => exact h.current
  | some g => exact h.table v g (inGroup_of_getGroupOf hfound)

theorem news_foreign {src : Endpoint} {t : ControlType} {tag : UInt8} {body : Bytes} {time : UInt64}
    (ht : t ≠ .NONE) (hgroup : t.isGroup = false)
    (hp : c.payload = buildMessage (controlMessage p src t tag body time)) : news c = .other := by
  rw [news_control hp ht]
  unfold newsOf
  cases t <;> first | rfl | cases hgroup

variable {env : Env} {msg : Message} {r : Handled}

theorem sendsOk_foreign {src dst : Endpoint} {t : ControlType} {tag : UInt8} {body : Bytes}
    {time : UInt64} (ht : t ≠ .NONE) (hgroup : t.isGroup = false) :
    SendsOk (sendControl p src dst t tag body time) :=
  sends_sendControl fun c hc => by
    rw [news_foreign ht hgroup hc]
    trivial

theorem sendsOk_nil : SendsOk [] := by simp [Sends]

/-- The barrier and the clocks send nothing about groups. -/
theorem handle_foreign (h : handle env p msg c = .ok r) (hgroup : msg.control.isGroup = false) :
    SendsOk r.effects := by
  intro kind src dst payload hx
  rcases effects_of_foreign h hgroup hx with
    ⟨q, src', dst', t, tag, body, time, ht, htgroup, hx⟩ | hx | ⟨_, _, hx⟩ | ⟨_, hx⟩
  · exact sendsOk_foreign ht htgroup kind src dst payload hx
  all_goals cases hx

/-- A coordinator registers a vehicle where it knows it, or in its own group. -/
theorem register_ok (hp : InstanceOk p) (h : onGroupRegister env p msg = .ok r) :
    InstanceOk r.inst ∧ SendsOk r.effects := by
  have hvalid := hp.registerGroup msg.origVm.toNat
  rw [onGroupRegister_eq] at h
  cases h
  split
  · refine ⟨⟨hp.current, fun v g hin => ?_⟩, sends_sendControl fun c hc => ?_⟩
    · rcases inGroup_registered.mp hin with hin | ⟨-, rfl⟩
      · exact hp.table v g hin
      · exact hvalid
    · rw [news_assign (inInt_group hvalid) hc]
      exact hvalid
  · exact ⟨hp, sendsOk_nil⟩

theorem handle_other (hp : InstanceOk p) (h : handle env p msg c = .ok r)
    (hnews : newsOf msg = .other) :
    InstanceOk r.inst ∧ SendsOk r.effects := by
  by_cases hgroup : msg.control.isGroup = false
  · obtain ⟨hgroups, hcurrent, -⟩ := handle_keeps h hgroup
    exact ⟨⟨hcurrent ▸ hp.current, hgroups ▸ hp.table⟩, handle_foreign h hgroup⟩
  · unfold newsOf at hnews
    unfold handle at h
    cases hcontrol : msg.control with
    | GROUP_REGISTER =>
      simp only [hcontrol] at h
      exact register_ok hp h
    | GROUP_MOVE_REQUEST =>
      simp only [hcontrol] at h hnews
      cases hbody : stoi msg.body with
      | ok gid => simp [hbody] at hnews
      | error e => simp [onGroupMoveRequest, hbody, bind, Except.bind] at h
    | GROUP_MOVE_NOTIFY =>
      simp only [hcontrol] at h hnews
      cases hbody : scanNotify msg.body with
      | some b => simp [hbody] at hnews
      | none =>
        rw [onGroupMoveNotify, hbody] at h
        cases h
        exact ⟨hp, sendsOk_nil⟩
    | GROUP_ASSIGN =>
      simp only [hcontrol] at h hnews
      cases hbody : stoi msg.body with
      | ok gid => simp [hbody] at hnews
      | error e =>
        rw [onGroupAssign_error hbody] at h
        cases h
        exact ⟨hp, sendsOk_nil⟩
    | _ => simp [hcontrol, ControlType.isGroup] at hgroup

/-- Reception keeps the groups valid, and answers with valid groups. -/
theorem update_ok {now : ℕ → UInt64} {stray : ℤ → ℤ} (hp : InstanceOk p) (hc : NewsOk (news c))
    (h : Protocol.update { accepts := fun _ _ => true, now, stray } p c = .ok (p', effects)) :
    InstanceOk p' ∧ SendsOk effects := by
  cases hnews : news c with
  | request vmId gid =>
    rw [hnews] at hc
    obtain ⟨groups, rfl, hplaced, hsends, -⟩ := received_request hc h hnews
    refine ⟨⟨hp.current, fun v g hin => ?_⟩, hsends.mono fun _ n hn => ?_⟩
    · rw [hplaced] at hin
      split at hin
      · rwa [hin]
      · exact hp.table v g hin
    · rcases hn with rfl | ⟨rfl, -, -⟩
      · exact ⟨Or.inr hc, hc⟩
      · exact hc
  | notify vmId oldGid newGid =>
    rw [hnews] at hc
    obtain ⟨groups, rfl, hin, hsends⟩ := received_notify (Q := fun _ n => NewsOk n) h hnews
    refine ⟨⟨hp.current, fun v g hg => ?_⟩, hsends⟩
    rcases hin v g hg with hg | ⟨-, rfl⟩
    · exact hp.table v g hg
    · exact hc.2
  | assign gid =>
    rw [hnews] at hc
    obtain ⟨rfl, hsends⟩ := received_assign hc h hnews
    exact ⟨hp.inGroup hc, sendsOk_join hc hsends⟩
  | data =>
    obtain ⟨rfl, hsends⟩ := received_data (Q := fun _ n => NewsOk n) h hnews
    exact ⟨hp, hsends⟩
  | other =>
    obtain ⟨msg, r, more, hmsg, hr, rfl, rfl, hmore⟩ := update_news h (by rw [hnews]; simp)
    obtain ⟨hinst, hsends⟩ := handle_other hp hr (hmsg.trans hnews)
    exact ⟨hinst, hsends.append (sends_of_silent hmore)⟩

theorem sendsOk_register {localEp : Endpoint} {vmId : Int8} {isMasterNode : Bool} {time : UInt64}
    (h : registerWithCoordinator env p localEp vmId isMasterNode time = .ok effects) :
    SendsOk effects := by
  unfold registerWithCoordinator at h
  split at h
  · cases h
    exact sendsOk_nil
  · simp only [bind, Except.bind] at h
    split at h
    · cases h
    · cases h
      refine sends_sendControl fun c hc => ?_
      rw [news_control hc (by simp)]
      trivial

theorem newsOk_foreign (h : foreign c = true) : NewsOk (news c) := by
  unfold foreign at h
  unfold news
  split
  · rename_i msg hmsg
    simp only [hmsg, Bool.not_eq_true'] at h
    unfold newsOf
    cases hcontrol : msg.control <;> first | trivial | simp [hcontrol, ControlType.isGroup] at h
  · trivial

/-- A valid message makes its handler read outside the table exactly if it is a join. -/
theorem messageReads_valid_iff (hp : InstanceOk p) (hmsg : NewsOk (newsOf msg)) :
    (∀ i ∈ messageReads env p msg, Valid i) ↔ ∀ v n, newsOf msg ≠ .notify v (-1) n := by
  unfold newsOf at hmsg ⊢
  unfold messageReads
  cases hcontrol : msg.control with
  | GROUP_MOVE_NOTIFY =>
    simp only [hcontrol] at hmsg ⊢
    cases hbody : scanNotify msg.body with
    | none => simp
    | some b =>
      obtain ⟨vmId, oldGid, newGid⟩ := b
      simp only [hbody] at hmsg ⊢
      obtain ⟨hold, hnew⟩ := hmsg
      have hjoin : (∀ v n, News.notify vmId oldGid newGid ≠ .notify v (-1) n) ↔ oldGid ≠ -1 := by
        simp
      have hvalid : Valid oldGid ↔ oldGid ≠ -1 := by
        refine ⟨?_, hold.resolve_left⟩
        rintro h rfl
        exact absurd h (by decide)
      rw [hjoin, ← hvalid]
      split
      · simp
      · simp [hnew]
  | GROUP_REGISTER => simpa using hp.registerGroup _
  | GROUP_MOVE_REQUEST => cases stoi msg.body <;> simp
  | GROUP_ASSIGN => cases stoi msg.body <;> simp
  | _ => simp

end Invariant

section Steps

variable {N : Type} {s s' : State N} {a : Action N}

theorem ok_initial (mac : N → Address) : Ok (initial mac) := by
  refine ⟨fun n => ⟨⟨le_rfl, by norm_num [initial]⟩, fun v g hin => ?_⟩, fun c hc => ?_⟩
  · exact (inGroup_nil hin).elim
  · cases hc

theorem indices_of_ok (hs : Ok s) (a : Action N) :
    (∀ i ∈ indices s a, Valid i) ↔ deliversJoin s a = false := by
  cases a with
  | register n localEp vmId isMasterNode env time =>
    cases isMasterNode with
    | true => simp [indices, registerReads, deliversJoin]
    | false => simpa [indices, registerReads, deliversJoin] using (hs.inst n).current
  | deliver i n now stray =>
    cases hc : s.sent[i]? with
    | none => simp [indices, deliversJoin, hc]
    | some c =>
      have hnews := hs.sent c (List.mem_of_getElem? hc)
      cases hmsg : acceptedMessage acceptingEnv c with
      | none =>
        have hmsg' : acceptedMessage { accepts := fun _ _ => true, now, stray } c = none := hmsg
        simp [indices, deliversJoin, hc, frameReads, hmsg', news, hmsg]
      | some msg =>
        have hmsg' : acceptedMessage { accepts := fun _ _ => true, now, stray } c = some msg := hmsg
        simp only [news, hmsg] at hnews
        simp only [indices, hc, frameReads, hmsg', messageReads_valid_iff (hs.inst n) hnews,
          deliversJoin, Option.map_some, news, hmsg]
        cases newsOf msg <;> simp
  | _ => simp [indices, deliversJoin]

variable [DecidableEq N]

theorem Ok.after (hs : Ok s) {n : N} {r : Except CxxException (Instance × List Effect)}
    (hr : ∀ p effects, r = .ok (p, effects) → InstanceOk p ∧ SendsOk effects)
    (h : s.after n r = some s') :
    Ok s' := by
  unfold State.after at h
  split at h
  · rename_i p effects
    obtain ⟨hp, hsends⟩ := hr p effects rfl
    cases h
    refine ⟨(Function.forall_update_iff s.inst fun _ p => InstanceOk p).mpr
      ⟨hp, fun m _ => hs.inst m⟩,
      fun c hc => ?_⟩
    rcases List.mem_append.mp hc with hc | hc
    · exact hs.sent c hc
    · obtain ⟨x, hx, hxc⟩ := List.mem_filterMap.mp hc
      cases x with
      | transmit kind src dst payload =>
        cases hxc
        exact hsends kind src dst payload hx
      | _ => cases hxc
  · cases h

/-- Steps with valid targets keep all groups valid. -/
theorem Ok.step (hs : Ok s) (ha : targeted a = true) (h : step s a = some s') : Ok s' := by
  cases a with
  | setCurrentGroup n gid time =>
    have hgid : Valid gid := of_decide_eq_true ha
    simp only [CoordinatorTable.step, Option.ite_none_right_eq_some] at h
    refine hs.after (fun p effects heq => ?_) h.2
    obtain ⟨rfl, hsends⟩ := sends_setCurrentGroup hgid heq
    exact ⟨(hs.inst n).inGroup hgid, sendsOk_join hgid hsends⟩
  | moveGroup n gid time =>
    have hgid : Valid gid := of_decide_eq_true ha
    simp only [CoordinatorTable.step, Option.ite_none_right_eq_some] at h
    refine hs.after (fun p effects heq => ?_) h.2
    cases heq
    refine ⟨hs.inst n, sends_sendControl fun c hc => ?_⟩
    rw [news_request (inInt_group hgid) hc]
    exact hgid
  | register n localEp vmId isMasterNode env time =>
    refine hs.after (fun p effects heq => ?_) h
    cases hsend : registerWithCoordinator env (s.inst n) localEp vmId isMasterNode time with
    | error e => simp [hsend, Except.map] at heq
    | ok sends =>
      rw [hsend] at heq
      cases heq
      exact ⟨hs.inst n, sendsOk_register hsend⟩
  | deliver i n now stray =>
    obtain ⟨c, hc, h⟩ := Option.bind_eq_some_iff.mp h
    exact hs.after (fun p effects heq =>
      update_ok (hs.inst n) (hs.sent c (List.mem_of_getElem? hc)) heq) h
  | configure n p =>
    simp only [CoordinatorTable.step, Option.ite_none_right_eq_some] at h
    obtain ⟨⟨-, hcurrent, hgroups⟩, h⟩ := h
    cases h
    have hp : InstanceOk p := ⟨hcurrent ▸ (hs.inst n).current, hgroups ▸ (hs.inst n).table⟩
    exact ⟨(Function.forall_update_iff s.inst fun _ p => InstanceOk p).mpr ⟨hp, fun m _ =>
      hs.inst m⟩, hs.sent⟩
  | transmit c =>
    simp only [CoordinatorTable.step, Option.ite_none_right_eq_some] at h
    obtain ⟨hforeign, h⟩ := h
    cases h
    refine ⟨hs.inst, fun c' hc' => ?_⟩
    rcases List.mem_append.mp hc' with hc' | hc'
    · exact hs.sent c' hc'
    · rw [List.mem_singleton.mp hc']
      exact newsOk_foreign hforeign

theorem ok_of_reaches {mac : N → Address}
    (h : Reaches step (fun _ a => targeted a = true) (initial mac) s) : Ok s :=
  h.invariant Ok (ok_initial mac) fun _ _ _ hs ha hstep => hs.step ha hstep

theorem step_withStray (hreads : ∀ i ∈ indices s a, Valid i) (stray : ℤ → ℤ) :
    step s (a.withStray stray) = step s a := by
  cases a with
  | register n localEp vmId isMasterNode env time =>
    simp only [Action.withStray, CoordinatorTable.step, register_of_reads hreads]
  | deliver i n now stray' =>
    simp only [Action.withStray, CoordinatorTable.step]
    cases hc : s.sent[i]? with
    | none => rfl
    | some c =>
      simp only [indices, hc] at hreads
      exact congrArg (s.after n) (update_of_reads hreads)
  | _ => rfl

/-- As long as the program is only asked for groups that have a coordinator, every index into
the coordinator table is one of its positions, except in the steps that receive the notification
of a vehicle that joins; all other steps do not depend on what lies around the table. -/
theorem indices_valid_iff (mac : N → Address) (s : State N)
    (h : Reaches step (fun _ a => targeted a = true) (initial mac) s) (a : Action N) :
    ((∀ i ∈ indices s a, Valid i) ↔ deliversJoin s a = false) ∧
      (deliversJoin s a = false → ∀ stray, step s (a.withStray stray) = step s a) := by
  have hindices := indices_of_ok (ok_of_reaches h) a
  exact ⟨hindices, fun hjoin stray => step_withStray (hindices.mpr hjoin) stray⟩

end Steps

/-! ## Runs of a few vehicles -/

def deliverTo (n : UInt8) (i : ℕ) : Action UInt8 := .deliver i n (fun _ => 0) (fun _ => 0)

/-- `enable_start_sync` gives a vehicle its control endpoint. -/
def prepare (n : UInt8) : Action UInt8 :=
  .configure n { address := vmMac n, controlLocal := ⟨vmMac n, GATEWAY_PORT⟩ }

/-- Vehicle 1 asks coordinator 20 for group 2, and coordinator 10 hears of it. -/
theorem move_read_inside :
    ∃ s, Reaches step (fun _ a => targeted a = true) (initial vmMac) s ∧ indices s
      (deliverTo 10 3) = [2, 2] ∧
      ∀ i ∈ indices s (deliverTo 10 3), Valid i := by
  have hrun : (runIf (fun _ a => targeted a) step (initial vmMac)
      [prepare 1, .setCurrentGroup 1 0 0, .moveGroup 1 2 0, deliverTo 20 1]).map
      (fun s => (indices s (deliverTo 10 3), deliversJoin s (deliverTo 10 3))) =
        some ([2, 2], false) := by
    decide +kernel
  obtain ⟨s, hs, hobs⟩ := exists_reaches_of_runIf (fun _ a => targeted a = true) _
    (fun _ _ _ h => h) hrun
  obtain ⟨hindices, hjoin⟩ := Prod.mk.inj hobs
  exact ⟨s, hs, hindices, (indices_valid_iff vmMac s hs (deliverTo 10 3)).1.mpr hjoin⟩

/-- When vehicle 1 joins group 0, coordinator 0 reads in front of the table; when vehicle 1 has
asked for group 7, its registration makes coordinator 0 read behind it. -/
theorem join_read_outside :
    (∃ s, Reachable step (initial vmMac) s ∧ indices s (deliverTo 0 0) = [-1]) ∧
    ∃ s, Reachable step (initial vmMac) s ∧ indices s (deliverTo 0 1) = [7] := by
  have hjoin : (run step (initial vmMac) [.setCurrentGroup 1 0 0]).map
      (fun s => indices s (deliverTo 0 0)) = some [-1] := by
    decide +kernel
  have hmove : (run step (initial vmMac) [prepare 1, .moveGroup 1 7 0, deliverTo 0 0,
      .register 1 ⟨vmMac 1, GATEWAY_PORT⟩ 1 false acceptingEnv 0]).map
      (fun s => indices s (deliverTo 0 1)) = some [7] := by
    decide +kernel
  exact ⟨exists_reachable_of_run _ hjoin, exists_reachable_of_run _ hmove⟩

end CarNetwork.CoordinatorTable
