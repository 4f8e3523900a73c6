import CarNetwork.Gateway

/-!
# Control messages and their tags

`Emission` lists the send sites of control messages with their arguments. A site
either computes the tag of its body or leaves it at zero, and a zero tag is right
only for bodies whose bytes cancel the key mask of their length. The second half
says exactly when that happens, and that no operation sends anything else.
-/
namespace CarNetwork.Protocol

open CarNetwork.ByteText CarNetwork.DecimalText CarNetwork.Conversions CarNetwork.Ethernet

/-- The send sites of control messages. A notification is sent only for a group that
has a coordinator, and the one of the move handler names that group twice. -/
inductive Emission
  | ready
  | go
  | syncReq
  | syncResp (t1 : UInt64)
  | delayReq (t1 t2 t3 : UInt64)
  | delayResp (offset rtt : ℤ)
  | groupRegister (vmId : Int8)
  | groupMoveRequest (gid : ℤ)
  | joinNotify (myVm : UInt8) (gid : Fin 4)
  | moveNotify (requester : UInt8) (gid : Fin 4)
  | groupAssign (gid : ℤ)

namespace Emission

def type : Emission → ControlType
  | ready => .READY
  | go => .GO
  | syncReq => .SYNC_REQ
  | syncResp _ => .SYNC_RESP
  | delayReq _ _ _ => .DELAY_REQ
  | delayResp _ _ => .DELAY_RESP
  | groupRegister _ => .GROUP_REGISTER
  | groupMoveRequest _ => .GROUP_MOVE_REQUEST
  | joinNotify _ _ => .GROUP_MOVE_NOTIFY
  | moveNotify _ _ => .GROUP_MOVE_NOTIFY
  | groupAssign _ => .GROUP_ASSIGN

def body : Emission → Bytes
  | ready => []
  | go => []
  | syncReq => []
  | syncResp t1 => snprintf 128 (decimal t1.toNat)
  | delayReq t1 t2 t3 => snprintf 256 (delayReqText t1 t2 t3)
  | delayResp offset rtt => snprintf 128 (delayRespText offset rtt)
  | groupRegister vmId => ascii "VM_ID=" ++ intText vmId.toInt
  | groupMoveRequest gid => intText gid
  | joinNotify myVm gid => notifyBody myVm.toNat (-1) gid
  | moveNotify requester gid => notifyBody requester.toNat gid gid
  | groupAssign gid => intText gid

def tag (key : Key) : Emission → UInt8
  | syncResp t1 => generateMac key (syncResp t1).body
  | delayReq t1 t2 t3 => generateMac key (delayReq t1 t2 t3).body
  | delayResp offset rtt => generateMac key (delayResp offset rtt).body
  | _ => 0

/-- The bytes that a site gives to the network. -/
def wire (key : Key) (e : Emission) (p : Instance) (src : Endpoint) (time : UInt64) : Bytes :=
  buildMessage (controlMessage p src e.type (e.tag key) e.body time)

end Emission

/-! ## Which tags are right -/

/-- Exclusive or of the decimal digits of a number. -/
def digitXor (n : ℕ) : UInt8 := xorAll ((Nat.digits 10 n).map UInt8.ofNat)

/-- The number of decimal digits. -/
def digitCount (n : ℕ) : ℕ := (decimal n).length

/-- Integers whose decimal text has tag zero under the program's key: three digits
whose exclusive or is seven, or eight digits whose exclusive or is zero, and the
same with a multiple of eight more digits. -/
def ZeroTagged (z : ℤ) : Prop :=
  0 ≤ z ∧ ((digitCount z.natAbs % 8 = 3 ∧ digitXor z.natAbs = 7) ∨
    (digitCount z.natAbs % 8 = 0 ∧ digitXor z.natAbs = 0))

instance (z : ℤ) : Decidable (ZeroTagged z) := inferInstanceAs (Decidable (_ ∧ _))

/-- The condition on a site's arguments under which its message is accepted. -/
def Emission.Authentic : Emission → Prop
  | .groupRegister vmId => vmId.toInt ∈ [104, 115, 126, -128]
  | .groupMoveRequest gid => ZeroTagged gid
  | .joinNotify _ _ => False
  | .moveNotify _ _ => False
  | .groupAssign gid => ZeroTagged gid
  | _ => True

theorem xorAll_digits_lt (l : List ℕ) (h : ∀ d ∈ l, d < 10) :
    xorAll (l.map UInt8.ofNat) < 16 := by
  induction l with
  | nil => decide
  | cons d l ih =>
    have hd : d < 10 := h d (by simp)
    have hl := ih fun x hx => h x (by simp [hx])
    have key : ∀ (a : Fin 10) (b : Fin 16), UInt8.ofNat a ^^^ UInt8.ofNat b < 16 := by decide
    have hb := key ⟨d, hd⟩ ⟨(xorAll (l.map UInt8.ofNat)).toNat, by
      simpa [UInt8.lt_iff_toNat_lt] using hl⟩
    simpa [xorAll] using hb

theorem digitXor_lt (n : ℕ) : digitXor n < 16 :=
  xorAll_digits_lt _ fun _ hd => Nat.digits_lt_base (by norm_num) hd

/-- A digit character is its value under the mask `0x30`. -/
theorem digitByte_eq_xor (d : ℕ) (h : d < 10) : digitByte d = 48 ^^^ UInt8.ofNat d := by
  have key : ∀ a : Fin 10, digitByte a = 48 ^^^ UInt8.ofNat a := by decide
  exact key ⟨d, h⟩

theorem xorAll_digitBytes (l : List ℕ) (h : ∀ d ∈ l, d < 10) :
    xorAll (l.map digitByte) = (if l.length % 2 = 1 then 48 else 0) ^^^ xorAll
      (l.map UInt8.ofNat) := by
  induction l with
  | nil => rfl
  | cons d l ih =>
    have hl := ih fun x hx => h x (by simp [hx])
    simp only [List.map_cons, xorAll, List.foldr_cons, List.length_cons] at hl ⊢
    rw [hl, digitByte_eq_xor d (h d (by simp))]
    rcases Nat.mod_two_eq_zero_or_one l.length with hpar | hpar
    · rw [if_neg (by omega), if_pos (by omega), UInt8.zero_xor, UInt8.xor_assoc]
    · rw [if_pos hpar, if_neg (by omega), UInt8.zero_xor, UInt8.xor_comm 48, UInt8.xor_assoc,
        ← UInt8.xor_assoc 48 48, UInt8.xor_self, UInt8.zero_xor]

theorem xorAll_decimal (n : ℕ) :
    xorAll (decimal n) = (if digitCount n % 2 = 1 then 48 else 0) ^^^ digitXor n := by
  by_cases h0 : n = 0
  · subst h0; decide
  · have hlt : ∀ d ∈ Nat.digits 10 n, d < 10 := fun _ hd => Nat.digits_lt_base (by norm_num) hd
    have hd : decimal n = ((Nat.digits 10 n).map digitByte).reverse := by simp [decimal, h0]
    rw [digitCount, hd, xorAll_perm (List.reverse_perm _), xorAll_digitBytes _ hlt, digitXor]
    simp

theorem zero_notMem_decimal (n : ℕ) : 0 ∉ decimal n := fun h => by
  simpa [isDigit] using isDigit_of_mem_decimal n 0 h

theorem generateMac_decimal (n : ℕ) :
    generateMac SECRET_KEY (decimal n) =
      ((if digitCount n % 2 = 1 then 48 else 0) ^^^ digitXor n) ^^^
        keyMask SECRET_KEY 0 (digitCount n % 8) := by
  rw [generateMac_eq _ _ (zero_notMem_decimal n), xorAll_decimal, ← keyMask_mod_eight]
  rfl

theorem generateMac_minus_decimal (n : ℕ) :
    generateMac SECRET_KEY (45 :: decimal n) =
      (45 ^^^ ((if digitCount n % 2 = 1 then 48 else 0) ^^^ digitXor n)) ^^^
        keyMask SECRET_KEY 0 ((digitCount n + 1) % 8) := by
  have h0 : (0 : UInt8) ∉ 45 :: decimal n := by simp [zero_notMem_decimal]
  rw [generateMac_eq _ _ h0, ← keyMask_mod_eight, ← xorAll_decimal]
  rfl

/-- The tag of a printed integer is zero for the integers of `ZeroTagged` only: for
every other length the mask leaves a bit above the four that digits can reach. -/
theorem generateMac_intText_eq_zero (z : ℤ) :
    generateMac SECRET_KEY (intText z) = 0 ↔ ZeroTagged z := by
  have hpos : ∀ (l : Fin 8) (x : Fin 16),
      ((if l.val % 2 = 1 then 48 else 0) ^^^ UInt8.ofNat x) ^^^ keyMask SECRET_KEY 0 l = 0 ↔
        (l.val = 3 ∧ x.val = 7) ∨ (l.val = 0 ∧ x.val = 0) := by decide
  have hneg : ∀ (l : Fin 8) (x : Fin 16),
      (45 ^^^ ((if l.val % 2 = 1 then 48 else 0) ^^^ UInt8.ofNat x)) ^^^
        keyMask SECRET_KEY 0 ((l.val + 1) % 8) ≠ 0 := by decide
  have hx : (digitXor z.natAbs).toNat < 16 := by
    simpa [UInt8.lt_iff_toNat_lt] using digitXor_lt z.natAbs
  have hpar : digitCount z.natAbs % 8 % 2 = digitCount z.natAbs % 2 := by omega
  have hlen : (digitCount z.natAbs % 8 + 1) % 8 = (digitCount z.natAbs + 1) % 8 := by omega
  let l : Fin 8 := ⟨digitCount z.natAbs % 8, Nat.mod_lt _ (by norm_num)⟩
  by_cases hz : z < 0
  · have h := hneg l ⟨_, hx⟩
    simp only [l, hpar, hlen, UInt8.ofNat_toNat] at h
    rw [intText, if_pos hz, generateMac_minus_decimal]
    simp [h, ZeroTagged, hz]
  · have h := hpos l ⟨_, hx⟩
    simp only [l, hpar, UInt8.ofNat_toNat] at h
    rw [intText, if_neg hz, generateMac_decimal, h, ZeroTagged]
    simp [not_lt.mp hz, ← UInt8.toNat_inj]

theorem generateMac_register (vmId : Int8) :
    generateMac SECRET_KEY (Emission.groupRegister vmId).body = 0 ↔
      vmId.toInt ∈ [104, 115, 126, -128] := by
  have h : ∀ z : Fin 256, generateMac SECRET_KEY (ascii "VM_ID=" ++ intText ((z : ℤ) - 128)) = 0 ↔
      (z : ℤ) - 128 ∈ [104, 115, 126, -128] := by decide +kernel
  have hlo := Int8.le_toInt vmId
  have hhi := Int8.toInt_lt vmId
  have hv := h ⟨(vmId.toInt + 128).toNat, by omega⟩
  have hcast : (((vmId.toInt + 128).toNat : ℕ) : ℤ) - 128 = vmId.toInt := by omega
  simpa only [Emission.body, hcast] using hv

theorem generateMac_joinNotify (myVm : UInt8) (gid : Fin 4) :
    generateMac SECRET_KEY (Emission.joinNotify myVm gid).body ≠ 0 := by
  have h : ∀ (v : Fin 256) (g : Fin 4), generateMac SECRET_KEY (notifyBody v (-1) g) ≠ 0 := by
    decide +kernel
  exact h ⟨myVm.toNat, UInt8.toNat_lt myVm⟩ gid

theorem generateMac_moveNotify (requester : UInt8) (gid : Fin 4) :
    generateMac SECRET_KEY (Emission.moveNotify requester gid).body ≠ 0 := by
  have h : ∀ (v : Fin 256) (g : Fin 4), generateMac SECRET_KEY (notifyBody v g g) ≠ 0 := by
    decide +kernel
  exact h ⟨requester.toNat, UInt8.toNat_lt requester⟩ gid

/-- Whether the tag a site attaches is the tag of its body. -/
theorem verifyMsgac_emission (e : Emission) :
    verifyMsgac SECRET_KEY (e.tag SECRET_KEY) e.body = true ↔ e.Authentic := by
  refine beq_iff_eq.trans ?_
  cases e with
  | groupRegister vmId => exact generateMac_register vmId
  | groupMoveRequest gid => exact generateMac_intText_eq_zero gid
  | groupAssign gid => exact generateMac_intText_eq_zero gid
  | joinNotify myVm gid => exact iff_of_false (generateMac_joinNotify myVm gid) id
  | moveNotify requester gid => exact iff_of_false (generateMac_moveNotify requester gid) id
  | _ => exact iff_of_true rfl trivial

/-! ## Nothing else is sent -/

/-- A control frame among the effects comes out of one of the listed sites. -/
def Listed (key : Key) : Effect → Prop
  | .transmit (.control t) _ _ payload =>
    ∃ (e : Emission) (p : Instance) (src : Endpoint) (time : UInt64),
      e.type = t ∧ payload = e.wire key p src time
  | _ => True

/-- Every effect of an operation is listed. -/
def AllListed (key : Key) (effects : List Effect) : Prop := ∀ x ∈ effects, Listed key x

@[simp] theorem allListed_nil (key : Key) : AllListed key [] := by simp [AllListed]

theorem AllListed.append {key : Key} {as bs : List Effect} (ha : AllListed key as)
    (hb : AllListed key bs) : AllListed key (as ++ bs) := by
  intro x hx
  rcases List.mem_append.mp hx with h | h
  exacts [ha x h, hb x h]

/-- The effects of a send are one frame or none. -/
theorem mem_send {p : Instance} {kind : SendKind} {src dst : Endpoint}
    {payload : Bytes} {x : Effect} (h : x ∈ send p kind src dst payload) :
    x = .transmit kind ⟨p.address, src.port⟩ dst payload := by
  unfold send at h
  split at h
  · cases h
  · exact List.mem_singleton.mp h

theorem allListed_sendControl (key : Key) (e : Emission) (p : Instance) (src dst : Endpoint)
    (time : UInt64) : AllListed key (sendControl p src dst e.type (e.tag key) e.body time) := by
  intro x hx
  rw [mem_send hx]
  exact ⟨e, p, src, time, rfl, rfl⟩

theorem knownCoordinator_nonneg {gid : ℤ} (h : 0 ≤ knownCoordinator gid) : 0 ≤ gid ∧ gid < 4 := by
  unfold knownCoordinator at h
  split at h
  · assumption
  · omega

theorem knownCoordinator_le (gid : ℤ) : knownCoordinator gid ≤ 255 := by
  unfold knownCoordinator
  split
  · rename_i h
    obtain ⟨h0, h4⟩ := h
    interval_cases gid <;> decide
  · decide

theorem vmIdFromMac_nonneg (a : Address) : 0 ≤ vmIdFromMac a := Int.natCast_nonneg _

/-- The instance after `set_current_group`. -/
def inGroup (p : Instance) (gid : ℤ) : Instance :=
  { p with
    currentGroupId := gid
    groups := p.groups.update gid fun g =>
      { g with groupId := gid }.insertMember (vmIdFromMac p.address) }

/-- What `set_current_group` sends: a notification to the coordinator of the group, or
the announcement of a coordinator or of a group without one. -/
theorem setCurrentGroup_spec (p : Instance) (gid : ℤ) (time : UInt64) :
    ∃ effects, setCurrentGroup p gid time = .ok (inGroup p gid, effects) ∧
      ((∃ (b : UInt8) (g : Fin 4) (ep : Endpoint),
        effects = sendControl (inGroup p gid) p.controlLocal
        ep .GROUP_MOVE_NOTIFY 0 (Emission.joinNotify b g).body time) ∨
      effects = broadcastGroupInfo (inGroup p gid) gid) := by
  unfold setCurrentGroup
  simp only
  split
  · rename_i h
    rw [endpointFromVm_ok _ _ h.1 (knownCoordinator_le gid)]
    obtain ⟨h0, h4⟩ := knownCoordinator_nonneg h.1
    have hgid : ((⟨gid.toNat, by omega⟩ : Fin 4).val : ℤ) = gid := by simp [h0]
    refine ⟨_, rfl, Or.inl ⟨p.address.lastOctet, ⟨gid.toNat, by omega⟩,
      ⟨vmAddress (UInt8.ofNat (knownCoordinator gid).toNat), p.controlLocal.port⟩, ?_⟩⟩
    simp only [Emission.body, hgid]
    rfl
  · exact ⟨_, rfl, Or.inr rfl⟩

theorem allListed_setCurrentGroup {p q : Instance} {gid : ℤ} {time : UInt64} {effects : List Effect}
    (key : Key) (h : setCurrentGroup p gid time = .ok (q, effects)) : AllListed key effects := by
  obtain ⟨effects', heq, hcases⟩ := setCurrentGroup_spec p gid time
  rw [heq] at h
  cases h
  rcases hcases with ⟨b, g, ep, rfl⟩ | rfl
  · exact allListed_sendControl key (.joinNotify b g) _ _ _ _
  · intro x hx
    rw [mem_send hx]
    trivial

theorem allListed_notifyCoordinators {env : Env} {p : Instance} {body : Bytes} {e : Emission}
    (key : Key) (htype : e.type = .GROUP_MOVE_NOTIFY) (htag : e.tag key = 0) (hbody : e.body = body)
    {coords : List ℤ} {i : ℕ} {effects : List Effect}
    (h : notifyCoordinators env p body coords i = .ok effects) : AllListed key effects := by
  induction coords generalizing i effects with
  | nil =>
    cases h
    simp
  | cons c coords ih =>
    simp only [notifyCoordinators] at h
    split at h
    · exact ih h
    · cases hc : endpointFromVm c p.controlLocal.port with
      | error x => simp [hc, bind, Except.bind] at h
      | ok ep =>
        cases hl : notifyCoordinators env p body coords (i + 1) with
        | error x => simp [hc, hl, bind, Except.bind] at h
        | ok later =>
          simp only [hc, hl, bind, Except.bind, pure, Except.pure, Except.ok.injEq] at h
          subst h
          have hfirst := allListed_sendControl key e p p.controlLocal ep (env.now i)
          rw [htype, htag, hbody] at hfirst
          exact hfirst.append (ih hl)

/-- A coordinator that answers a move request finds the requester in the group it
asked for, so both groups of its notification are that one. -/
theorem allListed_onGroupMoveRequest {env : Env} {p : Instance} {msg : Message} {h : Handled}
    (hh : onGroupMoveRequest env p msg = .ok h) : AllListed env.key h.effects := by
  unfold onGroupMoveRequest at hh
  cases hs : stoi msg.body with
  | error x => simp [hs, bind, Except.bind] at hh
  | ok newGid =>
    simp only [hs, bind, Except.bind, GroupTable.getGroupOf_setGroupForVm] at hh
    split at hh
    · cases hh
      simp
    · rename_i hcoord
      push Not at hcoord
      have hrange := knownCoordinator_nonneg (hcoord ▸ vmIdFromMac_nonneg p.address)
      have hgid : ((⟨newGid.toNat, by omega⟩ : Fin 4).val : ℤ) = newGid := by simp [hrange.1]
      split at hh
      · cases hh
      · rename_i notes hnotes
        have hn := allListed_notifyCoordinators
          (e := .moveNotify msg.origVm ⟨newGid.toNat, by omega⟩) env.key rfl rfl
          (by simp only [Emission.body, hgid]) hnotes
        split at hh
        · cases hh
        · cases hh
          exact hn.append (allListed_sendControl env.key (.groupAssign newGid) _ _ _ _)

theorem onGroupAssign_error {env : Env} {p : Instance} {msg : Message} {e : CxxException}
    (hbody : stoi msg.body = .error e) :
    onGroupAssign env p msg = .ok { inst := p, forward := false } := by
  rw [onGroupAssign, hbody]

/-- An assignment is `set_current_group`. -/
theorem onGroupAssign_ok (env : Env) (p : Instance) {msg : Message} {gid : ℤ}
    (hbody : stoi msg.body = .ok gid) :
    ∃ effects, setCurrentGroup p gid (env.now 0) = .ok (inGroup p gid, effects) ∧
      onGroupAssign env p msg = .ok { inst := inGroup p gid, effects } := by
  obtain ⟨effects, heq, -⟩ := setCurrentGroup_spec p gid (env.now 0)
  refine ⟨effects, heq, ?_⟩
  simp only [onGroupAssign, hbody, heq]
  rfl

theorem allListed_onGroupAssign {env : Env} {p : Instance} {msg : Message} {h : Handled}
    (hh : onGroupAssign env p msg = .ok h) : AllListed env.key h.effects := by
  cases hbody : stoi msg.body with
  | error e =>
    rw [onGroupAssign_error hbody] at hh
    cases hh
    simp
  | ok gid =>
    obtain ⟨effects, hset, heq⟩ := onGroupAssign_ok env p hbody
    rw [heq] at hh
    cases hh
    exact allListed_setCurrentGroup env.key hset

/-- The group in which a registration is answered: that of the vehicle, or the own one. -/
def registerGroup (p : Instance) (vmId : ℤ) : ℤ := (p.groups.getGroupOf vmId).getD p.currentGroupId

/-- The instance of a coordinator that has registered a vehicle. -/
def registered (p : Instance) (gid vmId : ℤ) : Instance :=
  { p with groups := p.groups.update gid fun g => { g with groupId := gid }.insertMember vmId }

/-- The coordinator of the group registers the sender and assigns it, others do nothing. -/
theorem onGroupRegister_eq (env : Env) (p : Instance) (msg : Message) :
    onGroupRegister env p msg =
      .ok (if vmIdFromMac p.address =
        coordinatorForGroup env (registerGroup p msg.origVm.toNat) then
        { inst := registered p (registerGroup p msg.origVm.toNat) msg.origVm.toNat
          effects := sendControl (registered p (registerGroup p msg.origVm.toNat)
            msg.origVm.toNat) p.controlLocal
            ⟨vmAddress msg.origVm, p.controlLocal.port⟩ .GROUP_ASSIGN 0
            (intText (registerGroup p msg.origVm.toNat)) (env.now 0) }
      else { inst := p, forward := false }) := by
  have hvm := UInt8.toNat_lt msg.origVm
  have hep : endpointFromVm msg.origVm.toNat p.controlLocal.port =
      .ok ⟨vmAddress msg.origVm, p.controlLocal.port⟩ := by
    rw [endpointFromVm_ok _ _ (Int.natCast_nonneg _) (by omega), Int.toNat_natCast,
      UInt8.ofNat_toNat]
  by_cases hcoord : vmIdFromMac p.address =
    coordinatorForGroup env (registerGroup p msg.origVm.toNat)
  · rw [if_pos hcoord]
    unfold registerGroup at hcoord
    simp only [onGroupRegister, ne_eq, hcoord, not_true_eq_false, if_false, hep]
    rfl
  · rw [if_neg hcoord]
    exact if_pos hcoord

theorem allListed_onGroupRegister {env : Env} {p : Instance} {msg : Message} {h : Handled}
    (hh : onGroupRegister env p msg = .ok h) : AllListed env.key h.effects := by
  rw [onGroupRegister_eq] at hh
  cases hh
  split
  · exact allListed_sendControl env.key (.groupAssign _) _ _ _ _
  · simp

theorem allListed_onDelayResp (key : Key) (p : Instance) (msg : Message) :
    AllListed key (onDelayResp p msg).effects := by
  rintro x (_ | ⟨_, _ | ⟨_, h⟩⟩)
  · trivial
  · trivial
  · cases h

/-- The branches of `notify_by_port`: the handler of the control type, or nothing where
its guard refuses the message. -/
inductive HandleCase (env : Env) (p : Instance) (msg : Message) (c : AsyncCapsule) : Handled → Prop
  | idle : HandleCase env p msg c { inst := p }
  | ready : msg.control = .READY → HandleCase env p msg c (onReady env p c)
  | go : msg.control = .GO → HandleCase env p msg c (onGo p)
  | syncReq : msg.control = .SYNC_REQ → HandleCase env p msg c (onSyncReq env p c)
  | syncResp : msg.control = .SYNC_RESP → HandleCase env p msg c (onSyncResp env p msg c)
  | delayReq : msg.control = .DELAY_REQ → HandleCase env p msg c (onDelayReq env p msg c)
  | delayResp : msg.control = .DELAY_RESP → HandleCase env p msg c (onDelayResp p msg)
  | moveRequest {r : Handled} : msg.control = .GROUP_MOVE_REQUEST →
      onGroupMoveRequest env p msg = .ok r →
    HandleCase env p msg c r
  | moveNotify : msg.control = .GROUP_MOVE_NOTIFY →
    HandleCase env p msg c (onGroupMoveNotify env p msg)
  | assign {r : Handled} : msg.control = .GROUP_ASSIGN → onGroupAssign env p msg = .ok r →
    HandleCase env p msg c r
  | register {r : Handled} : msg.control = .GROUP_REGISTER → onGroupRegister env p msg = .ok r →
    HandleCase env p msg c r

theorem handle_cases {env : Env} {p : Instance} {msg : Message} {c : AsyncCapsule} {r : Handled}
    (h : handle env p msg c = .ok r) : HandleCase env p msg c r := by
  have hguard {b : Prop} [Decidable b] {x : Handled} (hx : HandleCase env p msg c x)
      (h : Except.ok (if b then x else { inst := p }) =
        (Except.ok r : Except CxxException Handled)) :
      HandleCase env p msg c r := by
    cases h
    split
    · exact hx
    · exact .idle
  unfold handle at h
  split at h
  case h_1 ht => exact hguard (.ready ht) h
  case h_2 ht => exact hguard (.go ht) h
  case h_3 ht => exact hguard (.syncReq ht) h
  case h_4 ht => exact hguard (.syncResp ht) h
  case h_5 ht => exact hguard (.delayReq ht) h
  case h_6 ht => exact hguard (.delayResp ht) h
  case h_7 ht => exact .moveRequest ht h
  case h_8 ht =>
    cases h
    exact .moveNotify ht
  case h_9 ht => exact .assign ht h
  case h_10 ht => exact .register ht h
  all_goals
    cases h
    exact .idle

/-- Every control frame that a handler sends comes out of a listed site. -/
theorem allListed_handle {env : Env} {p : Instance} {msg : Message} {c : AsyncCapsule} {h : Handled}
    (hh : handle env p msg c = .ok h) : AllListed env.key h.effects := by
  cases handle_cases hh with
  | idle => simp
  | ready =>
    unfold onReady
    simp only
    split
    · exact allListed_sendControl env.key .go _ _ _ _
    · simp
  | go =>
    unfold onGo
    split
    · simp
    · split <;> simp [AllListed, Listed]
  | syncReq =>
    unfold onSyncReq
    split
    · exact allListed_sendControl env.key (.syncResp _) _ _ _ _
    · simp
  | syncResp => exact allListed_sendControl env.key (.delayReq _ _ _) _ _ _ _
  | delayReq =>
    unfold onDelayReq
    split
    · simp
    · rename_i t1 t2 t3 _
      exact allListed_sendControl env.key
        (.delayResp (ptpOffset t1 t2 t3 (env.now 0)) (ptpRtt t1 t2 t3 (env.now 0))) _ _ _ _
  | delayResp => exact allListed_onDelayResp env.key p msg
  | moveRequest _ hmove => exact allListed_onGroupMoveRequest hmove
  | moveNotify =>
    unfold onGroupMoveNotify
    split
    · simp
    · simp only
      split <;> simp
  | assign _ hassign => exact allListed_onGroupAssign hassign
  | register _ hregister => exact allListed_onGroupRegister hregister

/-! ## Effects of the observer loop -/

theorem mem_forward_data {p : Instance} {msg : Message} {c : AsyncCapsule} {x : Effect}
    (hm : msg.control = .NONE) (hx : x ∈ forwardToObservers p msg c) :
    ∃ po, x = .onPacket po c ∧ (msg.groupId.toNat : ℤ) = p.currentGroupId := by
  simp only [forwardToObservers, List.mem_flatMap] at hx
  obtain ⟨po, -, hx⟩ := hx
  rw [if_neg (by simp [hm])] at hx
  split at hx
  · cases hx
  · rename_i hg
    split at hx
    · exact ⟨po, List.mem_singleton.mp hx, not_not.mp hg⟩
    · cases hx

theorem mem_forward_control {p : Instance} {msg : Message} {c : AsyncCapsule} {x : Effect}
    (hm : msg.control ≠ .NONE) (hx : x ∈ forwardToObservers p msg c) :
    ∃ po, x = .onControl po msg.control c.src c.dst ∧ forwardsControl p msg = true := by
  simp only [forwardToObservers, List.mem_flatMap] at hx
  obtain ⟨po, -, hx⟩ := hx
  rw [if_pos hm] at hx
  split at hx
  · rename_i hf
    exact ⟨po, List.mem_singleton.mp hx, hf⟩
  · cases hx

/-- The observer loop calls observers and does nothing else. -/
theorem mem_forward {p : Instance} {msg : Message} {c : AsyncCapsule} {x : Effect}
    (hx : x ∈ forwardToObservers p msg c) :
    ∃ po, x = .onPacket po c ∨ x = .onControl po msg.control c.src c.dst := by
  by_cases hm : msg.control = .NONE
  · obtain ⟨po, hpo, -⟩ := mem_forward_data hm hx
    exact ⟨po, Or.inl hpo⟩
  · obtain ⟨po, hpo, -⟩ := mem_forward_control hm hx
    exact ⟨po, Or.inr hpo⟩

theorem allListed_forwardToObservers (key : Key) (p : Instance) (msg : Message) (c : AsyncCapsule) :
    AllListed key (forwardToObservers p msg c) := by
  intro x hx
  obtain ⟨po, rfl | rfl⟩ := mem_forward hx
  · trivial
  · trivial

/-- Whatever an instance receives, the control frames it sends in answer come out of
the listed sites. -/
theorem allListed_notifyByPort {env : Env} {p : Instance} {c : AsyncCapsule}
    {r : Instance × List Effect} (h : notifyByPort env p c = .ok r) : AllListed env.key r.2 := by
  unfold notifyByPort at h
  cases hm : parseMessage c.payload with
  | error x => simp [hm, bind, Except.bind] at h
  | ok msg =>
    simp only [hm, bind, Except.bind] at h
    split at h
    · cases h
      simp
    · split at h
      · cases h
      · rename_i hd hh
        cases h
        refine (allListed_handle hh).append ?_
        split
        · exact allListed_forwardToObservers _ _ _ _
        · simp

end CarNetwork.Protocol

namespace CarNetwork.Car

open CarNetwork.ByteText CarNetwork.DecimalText CarNetwork.Conversions CarNetwork.Ethernet
open CarNetwork.Protocol

/-- The same for the gateway's own threads. -/
theorem allListed_act {cfg : Config} {g : Gateway} {a : GatewayAction} {r : Gateway × List Effect}
    (h : g.act cfg a = some r) : AllListed SECRET_KEY r.2 := by
  cases a with
  | joinGroup time =>
    obtain ⟨effects, heq, -⟩ := setCurrentGroup_spec g.proto cfg.groupId time
    have hl := allListed_setCurrentGroup SECRET_KEY heq
    simp only [Gateway.act, heq] at h
    split at h
    · cases h
      exact hl
    · cases h
  | sendReady time =>
    simp only [Gateway.act] at h
    split at h
    · cases h
      exact allListed_sendControl _ .ready _ _ _ _
    · cases h
  | tick now =>
    simp only [Gateway.act] at h
    split at h
    · cases h
      have hmove : AllListed SECRET_KEY
          (if (decide (cfg.vmId = 1) && !g.didRequest) = true then
            moveGroup g.proto 3 (now 1) else []) := by
        split
        · exact allListed_sendControl _ (.groupMoveRequest 3) _ _ _ _
        · simp
      unfold Gateway.onTick
      simp only
      split
      · split
        · exact hmove
        · exact hmove.append (allListed_sendControl _ .syncReq _ _ _ _)
      · exact hmove
    · cases h
  | _ =>
    simp only [Gateway.act] at h
    split at h
    · cases h
      simp
    · cases h

theorem allListed_registerWithCoordinator {env : Env} {p : Instance}
    {localEp : Endpoint} {vmId : Int8} {isMasterNode : Bool} {time : UInt64}
    {effects : List Effect} (key : Key)
    (h : registerWithCoordinator env p localEp vmId isMasterNode time = .ok effects) :
    AllListed key effects := by
  unfold registerWithCoordinator at h
  split at h
  · cases h
    simp
  · simp only [bind, Except.bind] at h
    split at h
    · cases h
    · cases h
      exact allListed_sendControl _ (.groupRegister vmId) _ _ _ _

end CarNetwork.Car

namespace CarNetwork.Protocol

open CarNetwork.ByteText CarNetwork.Ethernet

/-- A control message of the program reaches the handlers of a receiver with the same
key exactly under the condition on its arguments: always for the barrier and the
clock messages, never for move notifications, and for the other group messages
only when their bodies happen to have tag zero. -/
theorem emission_accepted_iff (e : Emission) (p : Instance) (src : Endpoint) (time : UInt64) :
    (∃ msg, parseMessage (e.wire SECRET_KEY p src time) = .ok msg ∧
      verifyMsgac SECRET_KEY msg.msgac msg.body = true) ↔ e.Authentic := by
  rw [Emission.wire, parse_build, ← verifyMsgac_emission]
  simp [controlMessage]

/-- The operations of a vehicle that put control frames on a channel: the handling of a frame,
the steps of the gateway's own threads, the choice of a group and the registration with its
coordinator. -/
inductive Performs : List Effect → Prop
  | handles {env : Env} {p : Instance} {c : AsyncCapsule} {r : Instance × List Effect}
    (hkey : env.key = SECRET_KEY) (h : notifyByPort env p c = .ok r) : Performs r.2
  | acts {cfg : Car.Config} {g : Car.Gateway} {a : Car.GatewayAction}
      {r : Car.Gateway × List Effect}
    (h : g.act cfg a = some r) : Performs r.2
  | joins {p q : Instance} {gid : ℤ} {time : UInt64} {effects : List Effect}
    (h : setCurrentGroup p gid time = .ok (q, effects)) : Performs effects
  | registers {env : Env} {p : Instance} {localEp : Endpoint} {vmId : Int8} {isMasterNode : Bool}
    {time : UInt64} {effects : List Effect}
    (h : Car.registerWithCoordinator env p localEp vmId isMasterNode time = .ok effects) :
      Performs effects

theorem Performs.allListed {effects : List Effect} (h : Performs effects) :
    AllListed SECRET_KEY effects := by
  cases h with
  | handles hkey h => exact hkey ▸ allListed_notifyByPort h
  | acts h => exact Car.allListed_act h
  | joins h => exact allListed_setCurrentGroup SECRET_KEY h
  | registers h => exact Car.allListed_registerWithCoordinator SECRET_KEY h

/-- No other control frame is ever sent: one that any operation puts on a channel comes out of
one of the sites, and a receiver with the same key accepts it exactly if that site's condition
on its arguments holds. -/
theorem control_frame_accepted_iff {effects : List Effect} (h : Performs effects) {t : ControlType}
    {src dst : Endpoint} {payload : Bytes}
    (hx : Effect.transmit (.control t) src dst payload ∈ effects) :
    ∃ (e : Emission) (p : Instance) (localEp : Endpoint) (time : UInt64),
      e.type = t ∧ payload = e.wire SECRET_KEY p localEp time ∧
      ((∃ msg, parseMessage payload = .ok msg ∧ verifyMsgac SECRET_KEY msg.msgac msg.body = true) ↔
        e.Authentic) := by
  obtain ⟨e, p, localEp, time, htype, rfl⟩ := h.allListed _ hx
  refine ⟨e, p, localEp, time, htype, rfl, ?_⟩
  rw [Emission.wire, parse_build, ← verifyMsgac_emission]
  simp [controlMessage]

/-- The request that vehicle 1 sends from its first tick is dropped, without any
effect, by every receiver. -/
theorem moveRequest_dropped :
    ¬ (Emission.groupMoveRequest 3).Authentic ∧
    ∀ (p : Instance) (src dst : Endpoint) (origin : ChannelOrigin) (time : UInt64)
      (now : ℕ → UInt64) (stray : ℤ → ℤ) (q : Instance),
      notifyByPort { now, stray } q ⟨src, dst, origin,
        (Emission.groupMoveRequest 3).wire SECRET_KEY p src time⟩ = .ok (q, []) := by
  have hnot : ¬ (Emission.groupMoveRequest 3).Authentic := by
    show ¬ ZeroTagged 3
    decide
  refine ⟨hnot, fun p src dst origin time now stray q => ?_⟩
  have hverify : verifyMsgac SECRET_KEY ((Emission.groupMoveRequest 3).tag SECRET_KEY)
      (Emission.groupMoveRequest 3).body = false := by
    rw [← Bool.not_eq_true, verifyMsgac_emission]
    exact hnot
  simp only [notifyByPort, Emission.wire, parse_build, bind, Except.bind]
  simp only [controlMessage, hverify]
  simp [Emission.type, pure, Except.pure]

end CarNetwork.Protocol
