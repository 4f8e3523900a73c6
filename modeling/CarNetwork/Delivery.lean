import CarNetwork.Emissions

/-!
# What a delivered frame does

One equation for each kind of frame the program sends: data, the group
announcement, control messages whose tag is wrong, and the barrier and clock
messages. The proofs about whole fleets use these equations and never look into
the parser or the dispatch again.
-/
namespace CarNetwork.Protocol

open CarNetwork.ByteText CarNetwork.DecimalText CarNetwork.Conversions CarNetwork.Ethernet

theorem buildMessage_ne_nil (m : Message) : buildMessage m ≠ [] := by
  simp [buildMessage, field]

theorem length_decimal_le {n k : ℕ} (hk : 0 < k) (h : n < 10 ^ k) : (decimal n).length ≤ k := by
  unfold decimal
  split
  · exact hk
  · simpa using (Nat.digits_length_le_iff (by norm_num) n).mpr h

theorem length_intText_le {z : ℤ} {k : ℕ} (hk : 0 < k) (h : z.natAbs < 10 ^ k) :
    (intText z).length ≤ k + 1 := by
  have := length_decimal_le hk h
  unfold intText
  split
  · simpa using this
  · omega

/-- Keys, equals signs and blanks take 49 bytes. -/
theorem length_buildMessage (m : Message) : (buildMessage m).length = 49 +
    (decimal m.groupId.toNat).length + (decimal m.origVm.toNat).length +
    (decimal m.origPort.toNat).length + (decimal m.timestamp.toNat).length +
    (intText m.type.toInt).length + (decimal m.msgId.toNat).length +
    (intText m.control.toInt).length + (decimal m.msgac.toNat).length + m.body.length := by
  have e1 : (ascii "GROUP").length = 5 := rfl
  have e2 : (ascii "VM").length = 2 := rfl
  have e3 : (ascii "PORT").length = 4 := rfl
  have e4 : (ascii "TIME").length = 4 := rfl
  have e5 : (ascii "TYPE").length = 4 := rfl
  have e6 : (ascii "ID").length = 2 := rfl
  have e7 : (ascii "CONTROL").length = 7 := rfl
  have e8 : (ascii "MSGAC").length = 5 := rfl
  simp only [buildMessage, field, List.length_append, List.length_cons, List.length_nil, e1, e2, e3,
    e4, e5, e6, e7, e8]
  omega

/-- The header of a message takes at most 125 bytes. -/
theorem length_buildMessage_le (m : Message) : (buildMessage m).length ≤ 125 + m.body.length := by
  have h1 := length_decimal_le (k :=
    3) (by norm_num) (lt_trans (UInt8.toNat_lt m.groupId) (by norm_num))
  have h2 := length_decimal_le (k :=
    3) (by norm_num) (lt_trans (UInt8.toNat_lt m.origVm) (by norm_num))
  have h3 := length_decimal_le (k :=
    5) (by norm_num) (lt_trans (UInt16.toNat_lt m.origPort) (by norm_num))
  have h4 := length_decimal_le (k :=
    20) (by norm_num) (lt_trans (UInt64.toNat_lt m.timestamp) (by norm_num))
  have h5 : (intText m.type.toInt).length ≤ 10 + 1 := length_intText_le (by norm_num) (by
    have hlo := Int32.le_toInt m.type
    have hhi := Int32.toInt_lt m.type
    omega)
  have h6 := length_decimal_le (k :=
    20) (by norm_num) (lt_trans (UInt64.toNat_lt m.msgId) (by norm_num))
  have h7 : (intText m.control.toInt).length ≤ 10 + 1 := length_intText_le (by norm_num) (by
    obtain ⟨hlo, hhi⟩ := m.control.inInt_toInt
    omega)
  have h8 := length_decimal_le (k :=
    3) (by norm_num) (lt_trans (UInt8.toNat_lt m.msgac) (by norm_num))
  rw [length_buildMessage]
  omega

/-- A control message with a body that fits is really handed to the interface. -/
theorem sendControl_eq {p : Instance} {src dst : Endpoint} {t : ControlType} {tag : UInt8}
    {body : Bytes} {time : UInt64} (h : body.length ≤ 1000) :
    sendControl p src dst t tag body time = [.transmit (.control t) ⟨p.address, src.port⟩ dst
      (buildMessage (controlMessage p src t tag body time))] := by
  have hlen := length_buildMessage_le (controlMessage p src t tag body time)
  have hbody : (controlMessage p src t tag body time).body = body := rfl
  rw [hbody] at hlen
  rw [sendControl, send, if_neg (by rw [MTU]; omega)]

/-- Reception of a message, given the message. -/
theorem update_build {env : Env} {p : Instance} {c : AsyncCapsule} {m : Message}
    (hp : c.payload = buildMessage m) :
    update env p c =
      if m.control ≠ .NONE ∧ env.accepts m.msgac m.body = false then .ok (p, [])
      else (handle env p { m with body := cleanBody m.body } c).map fun h =>
        (h.inst, h.effects ++ if h.forward then
          forwardToObservers h.inst { m with body := cleanBody m.body } c else []) := by
  have hne : c.payload.isEmpty = false := by simp [hp, buildMessage_ne_nil]
  rw [update, if_neg (by simp [hne])]
  simp only [notifyByPort, hp, parse_build, bind, Except.bind]
  split
  · rfl
  · cases handle env p { m with body := cleanBody m.body } c <;> rfl

/-- A data message changes nothing in the protocol; observers may be told of it. -/
theorem update_data {env : Env} {p : Instance} {c : AsyncCapsule} {m : Message}
    (hp : c.payload = buildMessage m) (hm : m.control = .NONE) :
    update env p c = .ok (p, forwardToObservers p { m with body := cleanBody m.body } c) := by
  rw [update_build hp, if_neg (by simp [hm])]
  simp [handle, hm, Except.map]

/-- A control message with a wrong tag leaves no trace. -/
theorem update_dropped {now : ℕ → UInt64} {stray : ℤ → ℤ} {p q : Instance} {c : AsyncCapsule}
    {e : Emission} {src : Endpoint} {time : UInt64} (hp : c.payload = e.wire SECRET_KEY q src time)
    (he : ¬ e.Authentic) : update { now, stray } p c = .ok (p, []) := by
  have htype : e.type ≠ .NONE := by cases e <;> simp [Emission.type]
  have hverify : verifyMsgac SECRET_KEY (e.tag SECRET_KEY) e.body = false := by
    rwa [← Bool.not_eq_true, verifyMsgac_emission]
  rw [update_build hp]
  exact if_pos ⟨htype, hverify⟩

/-! ## The group announcement -/

theorem search_none_of_notMem {pat s : Bytes} {b : UInt8} (hb : b ∈ pat) (hs : b ∉ s) :
    search pat s = none := by
  induction s with
  | nil =>
    cases pat with
    | nil => cases hb
    | cons a pat => rfl
  | cons a s ih =>
    have hp : pat.isPrefixOf (a :: s) = false := by
      rw [← Bool.not_eq_true, List.isPrefixOf_iff_prefix]
      intro h
      exact hs (h.subset hb)
    simp [search, hp, ih fun h => hs (by simp [h])]

theorem extractField_none {s key : Bytes} {pos : ℕ} (hs : 61 ∉ s) :
    extractField s key pos = ([], pos) := by
  have hdrop : 61 ∉ s.drop pos := fun h => hs (List.mem_of_mem_drop h)
  simp [extractField, find,
    search_none_of_notMem (b := 61) (by simp : (61 : UInt8) ∈ key ++ [61]) hdrop]

/-- A text without an equals sign is read as a data message of group 0. -/
theorem parseMessage_of_no_field {s : Bytes} (hs : 61 ∉ s) :
    parseMessage s = .ok { body := s } := by
  simp only [parseMessage, extractField_none hs, readField, List.isEmpty_nil, if_true]
  have hbody : (if 0 < s.length then substr s 0 (s.length - 0) else []) = s := by
    cases s <;> simp [substr]
  rw [hbody]
  rfl

theorem equals_notMem_intText (z : ℤ) : 61 ∉ intText z := by
  have hd : ∀ n, 61 ∉ decimal n := fun n h => by
    simpa [isDigit] using isDigit_of_mem_decimal n 61 h
  unfold intText
  split <;> simp [hd]

theorem equals_notMem_groupInfoText (p : Instance) (gid : ℤ) : 61 ∉ groupInfoText p gid := by
  have h1 : 61 ∉ ascii "GROUP_INFO " := by decide
  have h2 : 61 ∉ ascii " MEMBERS:" := by decide
  simp [groupInfoText, h1, h2, equals_notMem_intText, space]

/-- A group announcement is taken for a data message of group 0. -/
theorem update_groupInfo {env : Env} {p q : Instance} {c : AsyncCapsule} {gid : ℤ}
    (hp : c.payload = groupInfoText q gid) :
    update env p c = .ok (p, forwardToObservers p { body := cleanBody c.payload } c) := by
  have hne : c.payload.isEmpty = false := by
    have : ascii "GROUP_INFO " ≠ [] := by decide
    simp [hp, groupInfoText, this]
  have hparse := parseMessage_of_no_field (hp ▸ equals_notMem_groupInfoText q gid : 61 ∉ c.payload)
  simp [update, hne, notifyByPort, hparse, handle, bind, Except.bind, pure, Except.pure]

/-! ## Barrier and clock messages -/

/-- The emissions that carry a right tag whatever their arguments. -/
def Emission.Sync : Emission → Prop
  | ready | go | syncReq | syncResp _ | delayReq _ _ _ | delayResp _ _ => True
  | _ => False

theorem Emission.Sync.authentic {e : Emission} (h : e.Sync) : e.Authentic := by
  cases e <;> trivial

/-- The message a receiver's handler sees. -/
def received (e : Emission) (q : Instance) (src : Endpoint) (time : UInt64) : Message :=
  controlMessage q src e.type (e.tag SECRET_KEY) (cleanBody e.body) time

/-- The branch taken for a barrier or clock message; none of them can throw. -/
def handleSync (env : Env) (p : Instance) (msg : Message) (c : AsyncCapsule) : Emission → Handled
  | .ready =>
    if isMessageInternal p msg ∧ 0 < p.syncTotalVms then onReady env p c else { inst := p }
  | .go => if isMessageInternal p msg then onGo p else { inst := p }
  | .syncReq => if isMessageInternal p msg then onSyncReq env p c else { inst := p }
  | .syncResp _ =>
    if isMessageInternal p msg ∧ p.isMaster = false then onSyncResp env p msg c else { inst := p }
  | .delayReq _ _ _ =>
    if isMessageInternal p msg ∧ p.isMaster then onDelayReq env p msg c else { inst := p }
  | .delayResp _ _ =>
    if isMessageInternal p msg ∧ p.isMaster = false then onDelayResp p msg else { inst := p }
  | _ => { inst := p }

theorem handle_received {env : Env} {p q : Instance} {c : AsyncCapsule} {e : Emission}
    {src : Endpoint} {time : UInt64} (he : e.Sync) :
    handle env p (received e q src time) c =
      .ok (handleSync env p (received e q src time) c e) := by
  cases e <;> first | exact False.elim he | rfl

theorem update_sync (now : ℕ → UInt64) (stray : ℤ → ℤ) (p : Instance) {q : Instance}
    {c : AsyncCapsule} {e : Emission} {src : Endpoint} {time : UInt64}
    (hp : c.payload = e.wire SECRET_KEY q src time)
    (he : e.Sync) :
    update { now, stray } p c =
      let msg := received e q src time
      let h := handleSync { now, stray } p msg c e
      .ok (h.inst, h.effects ++ if h.forward then forwardToObservers h.inst msg c else []) := by
  have hverify := (verifyMsgac_emission e).mpr he.authentic
  rw [update_build hp, if_neg (fun h => by
    have hfalse : verifyMsgac SECRET_KEY (e.tag SECRET_KEY) e.body = false := h.2
    rw [hverify] at hfalse
    cases hfalse)]
  exact congrArg (Except.map _) (handle_received he)

/-- A clock message leaves the barrier's data alone. -/
theorem handleSync_clock_inst (env : Env) (p : Instance) (msg : Message) (c : AsyncCapsule)
    {e : Emission} (hr : e ≠ .ready) (hg : e ≠ .go) :
    ∃ syncer ptp, (handleSync env p msg c e).inst =
      { p with clockSyncer := syncer, runningPtp := ptp } := by
  have hsame : ∃ syncer ptp, p = { p with clockSyncer := syncer, runningPtp := ptp } := ⟨_, _, rfl⟩
  cases e with
  | ready => exact absurd rfl hr
  | go => exact absurd rfl hg
  | syncReq =>
    simp only [handleSync, onSyncReq]
    split
    · split <;> exact hsame
    · exact hsame
  | syncResp t1 =>
    simp only [handleSync, onSyncResp]
    split <;> exact hsame
  | delayReq t1 t2 t3 =>
    simp only [handleSync, onDelayReq]
    split
    · split <;> exact hsame
    · exact hsame
  | delayResp offset rtt =>
    simp only [handleSync]
    split
    · exact ⟨_, _, rfl⟩
    · exact hsame
  | _ => exact hsame

/-- Handling such a message changes the barrier's and the clock's data only. -/
theorem handleSync_inst (env : Env) (p : Instance) (msg : Message) (c : AsyncCapsule)
    (e : Emission) :
    ∃ r s t syncer ptp, (handleSync env p msg c e).inst =
      { p with syncReadyNodes := r, syncGoSent := s, syncGoReceived := t, clockSyncer := syncer,
               runningPtp := ptp } := by
  by_cases hr : e = .ready
  · subst hr
    simp only [handleSync, onReady]
    split
    · split <;> exact ⟨_, _, _, _, _, rfl⟩
    · exact ⟨_, _, _, _, _, rfl⟩
  by_cases hg : e = .go
  · subst hg
    simp only [handleSync, onGo]
    split
    · split <;> exact ⟨_, _, _, _, _, rfl⟩
    · exact ⟨_, _, _, _, _, rfl⟩
  obtain ⟨syncer, ptp, h⟩ := handleSync_clock_inst env p msg c hr hg
  exact ⟨_, _, _, syncer, ptp, h⟩

/-- A frame sent in answer to a message: another barrier or clock message, to everybody
or back to where the first one came from. Only a READY is answered with GO. -/
def Answer (env : Env) (p : Instance) (c : AsyncCapsule) (asked : Emission) (x : Effect) : Prop :=
  ∃ (e : Emission) (q : Instance) (dst : Endpoint) (time : UInt64), e.Sync ∧ e ≠ .ready ∧
    (e = .go → asked = .ready ∧ 0 < p.syncTotalVms) ∧ q.address = p.address ∧
      q.currentGroupId = p.currentGroupId ∧
    (dst.mac = Address.BROADCAST ∨ dst.mac = c.src.mac) ∧
    x ∈ sendControl q p.controlLocal dst e.type (e.tag env.key) e.body time

/-- Effects of a handler inside the machine: the owner's callback and the clock. -/
def Effect.Internal : Effect → Prop
  | .syncDoneCallback | .ptpSample _ _ | .adjustTime _ => True
  | _ => False

theorem handleSync_effects {env : Env} {p : Instance} {msg : Message}
    {c : AsyncCapsule} {e : Emission} {x : Effect} (hx : x ∈ (handleSync env p msg c e).effects) :
    Answer env p c e x ∨ x.Internal := by
  cases e with
  | ready =>
    simp only [handleSync] at hx
    split at hx
    · rename_i h
      unfold onReady at hx
      simp only at hx
      split at hx
      · exact Or.inl ⟨.go, _, _, _, trivial, by simp, fun _ => ⟨rfl, h.2⟩, rfl, rfl, Or.inl rfl, hx⟩
      · cases hx
    · cases hx
  | go =>
    simp only [handleSync] at hx
    split at hx
    · unfold onGo at hx
      split at hx
      · cases hx
      · simp only at hx
        split at hx
        · rw [List.mem_singleton.mp hx]
          exact Or.inr trivial
        · cases hx
    · cases hx
  | syncReq =>
    simp only [handleSync] at hx
    split at hx
    · unfold onSyncReq at hx
      split at hx
      · exact Or.inl ⟨.syncResp _, p, _, _, trivial, by simp, by simp, rfl, rfl, Or.inr rfl, hx⟩
      · cases hx
    · cases hx
  | syncResp t1 =>
    simp only [handleSync] at hx
    split at hx
    · exact Or.inl ⟨.delayReq _ _ _, p, _, _, trivial, by simp, by simp, rfl, rfl, Or.inr rfl, hx⟩
    · cases hx
  | delayReq t1 t2 t3 =>
    simp only [handleSync] at hx
    split at hx
    · unfold onDelayReq at hx
      split at hx
      · cases hx
      · rename_i s1 s2 s3 _
        exact Or.inl ⟨.delayResp (ptpOffset s1 s2 s3 (env.now 0)) (ptpRtt s1 s2 s3 (env.now 0)),
          p, _, _, trivial, by simp, by simp, rfl, rfl, Or.inr rfl, hx⟩
    · cases hx
  | delayResp offset rtt =>
    simp only [handleSync] at hx
    split at hx
    · rcases List.mem_cons.mp hx with rfl | hx
      · exact Or.inr trivial
      · rw [List.mem_singleton.mp hx]
        exact Or.inr trivial
    · cases hx
  | _ => cases hx

end CarNetwork.Protocol

namespace CarNetwork.Car

open CarNetwork.ByteText CarNetwork.Conversions CarNetwork.Ethernet CarNetwork.Protocol

namespace Gateway

/-- Effects that a gateway does not react to. -/
def Quiet : Effect → Prop
  | .onPacket _ _ => False
  | _ => True

theorem mapM_of_ok {α β ε : Type} {f : α → Except ε β} {r : α → β} {l : List α}
    (h : ∀ x ∈ l, f x = .ok (r x)) : l.mapM f = .ok (l.map r) := by
  induction l with
  | nil => rfl
  | cons x l ih =>
    rw [List.mapM_cons, h x (by simp), ih fun y hy => h y (by simp [hy])]
    rfl

/-- Reception when the protocol tells the observers of no data. -/
theorem deliver_of_quiet {env : Env} {cfg : Config} {g : Gateway} {c : AsyncCapsule} {p : Instance}
    {effects : List Effect} (hh : g.phase.hears = true)
    (hu : update env g.proto c = .ok (p, effects)) (hq : ∀ x ∈ effects, Quiet x) :
    g.deliver env cfg c =
      ({ g with proto := p, syncDone := g.syncDone || effects.any g.releasedBy }, effects) := by
  have hflat : (effects.map fun x => [x]).flatten = effects := by
    rw [← List.flatMap_def, List.flatMap_singleton']
  have hreact : ∀ x ∈ effects, ({ g with proto := p } : Gateway).react cfg env.now x = .ok [x] := by
    intro x hx
    have hqx := hq x hx
    cases x with
    | onPacket po c => cases hqx
    | _ => rfl
  simp only [deliver, hh, if_true, receive, hu, bind, Except.bind, mapM_of_ok hreact, hflat]
  rfl

/-- Reception of data: the gateway itself is unchanged, and what it sends is a relayed
data message. -/
theorem deliver_data {env : Env} (cfg : Config) {g : Gateway} {c : AsyncCapsule} {m : Message}
    {packets : List Effect} (hh : g.phase.hears = true)
    (hu : update env g.proto c = .ok (g.proto, packets))
    (hp : ∀ x ∈ packets, ∃ po, x = .onPacket po c)
    (hm : parseMessage c.payload = .ok m) :
    ∃ effects, g.deliver env cfg c = (g, effects) ∧ ∀ x ∈ effects,
      x ∈ packets ∨ ∃ rx : Rx, rx.msg.control = m.control ∧ x ∈ g.onReceive cfg rx env.now := by
  let rx : Rx := ⟨{ m with body := trim m.body }, c.src, c.dst, c.origin⟩
  let relay : Effect → List Effect
    | .onPacket po c => if po.origin ≠ c.origin then [.onPacket po c]
      else .onPacket po c :: g.onReceive cfg rx env.now
    | x => [x]
  have hreact : ∀ x ∈ packets, g.react cfg env.now x = .ok (relay x) := by
    intro x hx
    obtain ⟨po, rfl⟩ := hp x hx
    simp only [react, rxOfPacket, relay]
    split
    · rfl
    · rw [hm]
      rfl
  have hnone : packets.any g.releasedBy = false := by
    rw [List.any_eq_false]
    intro x hx
    obtain ⟨po, rfl⟩ := hp x hx
    simp [releasedBy]
  refine ⟨(packets.map relay).flatten, ?_, ?_⟩
  · simp only [deliver, hh, if_true, receive, hu, bind, Except.bind, mapM_of_ok hreact]
    simp only [pure, Except.pure, hnone, Bool.or_false]
  · intro x hx
    rw [← List.flatMap_def, List.mem_flatMap] at hx
    obtain ⟨y, hy, hx⟩ := hx
    obtain ⟨po, rfl⟩ := hp y hy
    simp only [relay] at hx
    split at hx
    · exact Or.inl (List.mem_singleton.mp hx ▸ hy)
    · rcases List.mem_cons.mp hx with rfl | hx
      · exact Or.inl hy
      · exact Or.inr ⟨rx, rfl, hx⟩

/-- A tick changes the flags of the clock requests only. -/
theorem onTick_fst (cfg : Config) (g : Gateway) (now : ℕ → UInt64) :
    ∃ ptp timeout request last, (g.onTick cfg now).1 =
      { g with
        proto := { g.proto with runningPtp := ptp, probabilisticPtpTimeout := timeout }
        didRequest := request
        lastSyncRequest := last } := by
  unfold onTick
  simp only
  split
  · split <;> exact ⟨_, _, _, _, rfl⟩
  · exact ⟨_, _, _, _, rfl⟩

theorem onTick_snd {cfg : Config} {g : Gateway} {now : ℕ → UInt64} {x : Effect}
    (hx : x ∈ (g.onTick cfg now).2) :
    x ∈ moveGroup g.proto 3 (now 1) ∨
    x ∈ sendControl g.proto g.localEp ⟨Address.BROADCAST, GATEWAY_PORT⟩ .SYNC_REQ 0 [] (now 2) := by
  have hmove : x ∈ (if (decide (cfg.vmId = 1) && !g.didRequest) = true
      then moveGroup g.proto 3 (now 1) else []) → x ∈ moveGroup g.proto 3 (now 1) := by
    intro h
    split at h
    · exact h
    · cases h
  unfold onTick at hx
  simp only at hx
  split at hx
  · split at hx
    · exact Or.inl (hmove hx)
    · rcases List.mem_append.mp hx with hx | hx
      · exact Or.inl (hmove hx)
      · exact Or.inr hx
  · exact Or.inl (hmove hx)

/-- The relay sends data only, with the gateway's group. -/
theorem mem_onReceive {cfg : Config} {g : Gateway} {rx : Rx} {now : ℕ → UInt64} {x : Effect}
    (hx : x ∈ g.onReceive cfg rx now) : ∃ src dst m, x = .transmit .data src dst (buildMessage m) ∧
      m.control = rx.msg.control ∧ m.groupId = UInt8.ofInt g.proto.currentGroupId := by
  unfold onReceive at hx
  split at hx
  · exact ⟨_, _, _, mem_send hx, rfl, rfl⟩
  · simp only [fanoutMessage, List.mem_flatMap] at hx
    obtain ⟨peer, -, hx⟩ := hx
    exact ⟨_, _, _, mem_send hx, rfl, rfl⟩

/-- What the threads of a gateway send of their own accord. -/
inductive OwnSend (g : Gateway) : Effect → Prop
  | group (kind : SendKind) (src dst : Endpoint) (payload : Bytes)
      (hkind : kind = .groupInfo ∨ kind = .control .GROUP_MOVE_NOTIFY ∨
        kind = .control .GROUP_MOVE_REQUEST) : OwnSend g (.transmit kind src dst payload)
  | ready (src : Endpoint) (payload : Bytes) (hb : g.phase.atBarrier = true)
      (hchecked : g.readyChecked = true) :
      OwnSend g (.transmit (.control .READY) src ⟨Address.BROADCAST, GATEWAY_PORT⟩ payload)
  | syncReq (src : Endpoint) (payload : Bytes) (hrunning : g.phase = .running) :
      OwnSend g (.transmit (.control .SYNC_REQ) src ⟨Address.BROADCAST, GATEWAY_PORT⟩ payload)

theorem ownSend_of_act {cfg : Config} {g g' : Gateway} {a : GatewayAction} {effects : List Effect}
    (h : g.act cfg a = some (g', effects)) {x : Effect} (hx : x ∈ effects) : OwnSend g x := by
  cases a with
  | joinGroup time =>
    obtain ⟨es, heq, hcases⟩ := setCurrentGroup_spec g.proto cfg.groupId time
    simp only [act, heq, Option.ite_none_right_eq_some, Option.some.injEq, Prod.mk.injEq] at h
    obtain ⟨-, -, rfl⟩ := h
    rcases hcases with ⟨b, gid, ep, rfl⟩ | rfl
    · rw [mem_send hx]
      exact .group _ _ _ _ (by simp)
    · rw [mem_send hx]
      exact .group _ _ _ _ (by simp)
  | sendReady time =>
    simp only [act, Option.ite_none_right_eq_some, Option.some.injEq, Prod.mk.injEq] at h
    obtain ⟨⟨hb, hchecked⟩, -, rfl⟩ := h
    rw [mem_send hx]
    exact .ready _ _ hb hchecked
  | tick now =>
    simp only [act, Option.ite_none_right_eq_some, Option.some.injEq] at h
    rw [show effects = (g.onTick cfg now).2 by rw [h.2]] at hx
    rcases onTick_snd hx with hx | hx
    · rw [mem_send hx]
      exact .group _ _ _ _ (by simp)
    · rw [mem_send hx]
      exact .syncReq _ _ h.1
  | _ =>
    simp only [act, Option.ite_none_right_eq_some, Option.some.injEq, Prod.mk.injEq] at h
    obtain ⟨-, -, rfl⟩ := h
    cases hx

end Gateway

end CarNetwork.Car
