import CarNetwork.LinkPadding
import CarNetwork.Relay

/-!
# Which frames a process survives

An exception that leaves `Protocol::update` ends the thread that received the frame. Which
texts the parser converts is decided by the places of the keys alone, so a frame is
survived exactly when each of those texts is empty or begins with a number in range, and,
in a move request whose tag is right, the body begins with one too. Nothing else throws: the
ids that endpoints are made from are bytes, and the observers parse a text that has been
parsed before.
-/
namespace CarNetwork.Protocol

open CarNetwork.ByteText CarNetwork.DecimalText CarNetwork.Conversions CarNetwork.Ethernet
open CarNetwork.Car CarNetwork.Relay CarNetwork.Transport

/-! ## Conversions -/

/-- The two conversions that throw. -/
inductive Conversion
  | stoi
  | stoull
  deriving DecidableEq

/-- The text begins, behind white space, with a number that the conversion can represent. -/
def Conversion.Accepts (v : Bytes) : Conversion → Prop
  | stoi => ∃ r ∈ scanInteger v, InInt r.value
  | stoull => ∃ r ∈ scanInteger v, r.magnitude < 2 ^ 64

instance (v : Bytes) : (conv : Conversion) → Decidable (conv.Accepts v)
  | .stoi => inferInstanceAs (Decidable (∃ r ∈ scanInteger v, InInt r.value))
  | .stoull => inferInstanceAs (Decidable (∃ r ∈ scanInteger v, r.magnitude < 2 ^ 64))

theorem stoi_ok_iff (v : Bytes) : (∃ z, stoi v = .ok z) ↔ Conversion.stoi.Accepts v := by
  unfold stoi Conversion.Accepts
  cases scanInteger v with
  | none => simp
  | some r => by_cases h : InInt r.value <;> simp [h]

theorem stoull_ok_iff (v : Bytes) : (∃ w, stoull v = .ok w) ↔ Conversion.stoull.Accepts v := by
  unfold stoull Conversion.Accepts
  cases scanInteger v with
  | none => simp
  | some r =>
    simp only [Option.mem_some, exists_eq_left']
    split
    · rename_i h
      exact iff_of_true ⟨_, rfl⟩ h
    · rename_i h
      exact iff_of_false (by simp) h

theorem exists_ok_bind {ε α β : Type} {x : Except ε α} {f : α → Except ε β} :
    (∃ b, (x >>= f) = .ok b) ↔ ∃ a, x = .ok a ∧ ∃ b, f a = .ok b := by
  cases x <;> simp [bind, Except.bind]

theorem exists_ok_map {ε α β : Type} {x : Except ε α} {f : α → β} :
    (∃ b, x.map f = .ok b) ↔ ∃ a, x = .ok a := by
  cases x <;> simp [Except.map]

/-! ## The parser -/

/-- The keys in the order in which they are searched, with the conversions of their values. -/
def headerFields : List (Bytes × Conversion) :=
  [(ascii "GROUP", .stoi), (ascii "VM", .stoi), (ascii "PORT", .stoi), (ascii "TIME", .stoull),
    (ascii "TYPE", .stoi), (ascii "ID", .stoull), (ascii "CONTROL", .stoi),
    (ascii "MSGAC", .stoull)]

/-- The texts that the parser finds for some keys, each searched from behind the one before. -/
def fieldTexts (s : Bytes) : List (Bytes × Conversion) → ℕ → List (Bytes × Conversion)
  | [], _ => []
  | (key, conv) :: fields, pos =>
    ((extractField s key pos).1, conv) :: fieldTexts s fields (extractField s key pos).2

/-- A text that is left alone or converted. -/
def Numeric (x : Bytes × Conversion) : Prop := x.1 = [] ∨ x.2.Accepts x.1

instance (x : Bytes × Conversion) : Decidable (Numeric x) := inferInstanceAs (Decidable (_ ∨ _))

theorem readField_ok_iff {α : Type} {v : Bytes} {dflt : α} {conv : Bytes → Except CxxException α} :
    (∃ a, readField v dflt conv = .ok a) ↔ v = [] ∨ ∃ a, conv v = .ok a := by
  cases v <;> simp [readField]

theorem readField_stoi {α : Type} {v : Bytes} {dflt : α} {f : ℤ → α} :
    (∃ a, readField v dflt (fun v => (stoi v).map f) = .ok a) ↔ Numeric (v, .stoi) := by
  rw [readField_ok_iff, exists_ok_map, stoi_ok_iff, Numeric]

theorem readField_stoull {α : Type} {v : Bytes} {dflt : α} {f : UInt64 → α} :
    (∃ a, readField v dflt (fun v => (stoull v).map f) = .ok a) ↔ Numeric (v, .stoull) := by
  rw [readField_ok_iff, exists_ok_map, stoull_ok_iff, Numeric]

theorem readField_stoull_id {v : Bytes} {dflt : UInt64} :
    (∃ a, readField v dflt stoull = .ok a) ↔ Numeric (v, .stoull) := by
  rw [readField_ok_iff, stoull_ok_iff, Numeric]

/-- The parser throws exactly at a text that is no number. -/
theorem parse_ok_iff (s : Bytes) :
    (∃ m, parseMessage s = .ok m) ↔ ∀ x ∈ fieldTexts s headerFields 0, Numeric x := by
  have hlast (m : Message) : ∃ b, (pure m : Except CxxException Message) = .ok b := ⟨m, rfl⟩
  simp only [parseMessage, exists_ok_bind, hlast, and_true, exists_and_right, readField_stoi,
    readField_stoull, readField_stoull_id, headerFields, fieldTexts, List.forall_mem_cons,
    List.not_mem_nil, false_implies,
    implies_true]

/-! ## The handlers -/

section Handlers

variable {env : Env} {p : Instance} {msg : Message} {c : AsyncCapsule}

theorem onGroupMoveRequest_ok_iff :
    (∃ h, onGroupMoveRequest env p msg = .ok h) ↔ Conversion.stoi.Accepts msg.body := by
  rw [← stoi_ok_iff]
  constructor
  · intro h
    rw [onGroupMoveRequest] at h
    obtain ⟨gid, hgid, -⟩ := exists_ok_bind.mp h
    exact ⟨gid, hgid⟩
  · rintro ⟨gid, hgid⟩
    by_cases hcoord : vmIdFromMac p.address = knownCoordinator gid
    · exact ⟨_, onGroupMoveRequest_coordinator hgid hcoord⟩
    · exact ⟨_, onGroupMoveRequest_other hgid hcoord⟩

theorem onGroupAssign_returns : ∃ h, onGroupAssign env p msg = .ok h := by
  cases hbody : stoi msg.body with
  | error _ => exact ⟨_, onGroupAssign_error hbody⟩
  | ok gid =>
    obtain ⟨effects, -, heq⟩ := onGroupAssign_ok env p hbody
    exact ⟨_, heq⟩

/-- Of the handlers only that of a move request throws. -/
theorem handle_ok_iff : (∃ h, handle env p msg c = .ok h) ↔
    (msg.control = .GROUP_MOVE_REQUEST → Conversion.stoi.Accepts msg.body) := by
  unfold handle
  cases hcontrol : msg.control with
  | GROUP_MOVE_REQUEST => simpa using onGroupMoveRequest_ok_iff
  | GROUP_ASSIGN => simpa using onGroupAssign_returns
  | GROUP_REGISTER => simp [onGroupRegister_eq]
  | _ => simp

end Handlers

/-! ## Receptions -/

/-- A payload that raises no exception in a process which checks tags as given. -/
def Readable (accepts : UInt8 → Bytes → Bool) (payload : Bytes) : Prop :=
  (∀ x ∈ fieldTexts payload headerFields 0, Numeric x) ∧
    ∀ m, parseMessage payload = .ok m → m.control = .GROUP_MOVE_REQUEST →
      accepts m.msgac m.body = true →
      Conversion.stoi.Accepts (cleanBody m.body)

instance (accepts : UInt8 → Bytes → Bool) (payload : Bytes) :
    Decidable (Readable accepts payload) :=
  match h : parseMessage payload with
  | .error _ =>
    decidable_of_iff (∀ x ∈ fieldTexts payload headerFields 0, Numeric x) (by simp [Readable, h])
  | .ok m => decidable_of_iff ((∀ x ∈ fieldTexts payload headerFields 0, Numeric x) ∧
      (m.control = .GROUP_MOVE_REQUEST → accepts m.msgac m.body = true →
        Conversion.stoi.Accepts (cleanBody m.body))) (by simp [Readable, h])

theorem fieldTexts_nil (fields : List (Bytes × Conversion)) (pos : ℕ) :
    ∀ x ∈ fieldTexts [] fields pos, x.1 = [] := by
  induction fields generalizing pos with
  | nil => simp [fieldTexts]
  | cons field fields ih =>
    obtain ⟨key, conv⟩ := field
    have hnone : extractField [] key pos = ([], pos) := extractField_none (by simp)
    simp only [fieldTexts, hnone, List.forall_mem_cons]
    exact ⟨trivial, ih pos⟩

theorem readable_nil (accepts : UInt8 → Bytes → Bool) : Readable accepts [] := by
  refine ⟨fun x hx => Or.inl (fieldTexts_nil _ _ x hx), fun m hm hcontrol => ?_⟩
  rw [parseMessage_of_no_field (by simp)] at hm
  cases hm
  cases hcontrol

section Receptions

variable {env : Env} {p : Instance} {c : AsyncCapsule}

theorem notifyByPort_ok_iff :
    (∃ r, notifyByPort env p c = .ok r) ↔ Readable env.accepts c.payload := by
  rw [notifyByPort, exists_ok_bind, Readable, ← parse_ok_iff]
  cases hparse : parseMessage c.payload with
  | error e => simp
  | ok m =>
    simp only [Except.ok.injEq, exists_eq_left', exists_eq', true_and, forall_eq']
    split
    · rename_i hdropped
      refine iff_of_true ⟨_, rfl⟩ fun _ haccepts => ?_
      rw [hdropped.2] at haccepts
      cases haccepts
    · rename_i hkept
      rw [exists_ok_bind]
      have hdone (h : Handled) : ∃ b, (pure (h.inst, h.effects ++ if h.forward then
          forwardToObservers h.inst { m with body := cleanBody m.body } c else []) :
            Except CxxException (Instance × List Effect)) = .ok b := ⟨_, rfl⟩
      simp only [hdone, and_true, handle_ok_iff]
      refine forall_congr' fun hcontrol => ?_
      have haccepts : env.accepts m.msgac m.body = true := by
        by_contra hno
        exact hkept ⟨by simp [hcontrol], by simpa using hno⟩
      simp [haccepts]

theorem update_ok_iff : (∃ r, update env p c = .ok r) ↔ Readable env.accepts c.payload := by
  rw [update]
  split
  · rename_i hempty
    rw [List.isEmpty_iff.mp hempty]
    exact iff_of_true ⟨_, rfl⟩ (readable_nil _)
  · exact notifyByPort_ok_iff

/-! ## Observers -/

/-- None of the effects calls an observer with a packet. -/
def NoPacket (effects : List Effect) : Prop := ∀ po c, .onPacket po c ∉ effects

theorem NoPacket.append {as bs : List Effect} (ha : NoPacket as) (hb : NoPacket bs) :
    NoPacket (as ++ bs) := by
  intro po c h
  rcases List.mem_append.mp h with h | h
  exacts [ha po c h, hb po c h]

theorem noPacket_nil : NoPacket [] := by simp [NoPacket]

theorem noPacket_send {kind : SendKind} {src dst : Endpoint} {payload : Bytes} :
    NoPacket (send p kind src dst payload) := by
  intro po c h
  cases mem_send h

theorem noPacket_onGroupMoveRequest {msg : Message} {h : Handled}
    (hh : onGroupMoveRequest env p msg = .ok h) :
    NoPacket h.effects := by
  obtain ⟨gid, hgid⟩ := (stoi_ok_iff _).mpr (onGroupMoveRequest_ok_iff.mp ⟨h, hh⟩)
  by_cases hcoord : vmIdFromMac p.address = knownCoordinator gid
  · rw [onGroupMoveRequest_coordinator hgid hcoord] at hh
    cases hh
    refine NoPacket.append ?_ noPacket_send
    intro po c hmem
    obtain ⟨e, -, he⟩ := List.mem_map.mp hmem
    cases he
  · rw [onGroupMoveRequest_other hgid hcoord] at hh
    cases hh
    exact noPacket_nil

theorem noPacket_onGroupAssign {msg : Message} {h : Handled}
    (hh : onGroupAssign env p msg = .ok h) :
    NoPacket h.effects := by
  cases hbody : stoi msg.body with
  | error _ =>
    rw [onGroupAssign_error hbody] at hh
    cases hh
    exact noPacket_nil
  | ok gid =>
    obtain ⟨effects, hset, heq⟩ := onGroupAssign_ok env p hbody
    obtain ⟨effects', hset', hcases⟩ := setCurrentGroup_spec p gid (env.now 0)
    rw [heq] at hh
    cases hh
    cases hset.symm.trans hset'
    rcases hcases with ⟨b, g, ep, rfl⟩ | rfl <;> exact noPacket_send

theorem noPacket_onGroupRegister {msg : Message} {h : Handled}
    (hh : onGroupRegister env p msg = .ok h) :
    NoPacket h.effects := by
  rw [onGroupRegister_eq] at hh
  cases hh
  split
  · exact noPacket_send
  · exact noPacket_nil

/-- A handler sends frames and corrects the clock; it hands no packet to an observer. -/
theorem handle_noPacket {msg : Message} {h : Handled} (hh : handle env p msg c = .ok h) :
    NoPacket h.effects := by
  by_cases hgroup : msg.control.isGroup = false
  · intro po c' hx
    rcases effects_of_foreign hh hgroup hx with ⟨_, _, _, _, _, _, _, -, -, hx⟩ | hx |
      ⟨_, _, hx⟩ | ⟨_, hx⟩
    · exact noPacket_send po c' hx
    all_goals cases hx
  · unfold handle at hh
    cases hcontrol : msg.control with
    | GROUP_MOVE_REQUEST =>
      rw [hcontrol] at hh
      exact noPacket_onGroupMoveRequest hh
    | GROUP_MOVE_NOTIFY =>
      rw [hcontrol] at hh
      cases hh
      unfold onGroupMoveNotify
      split
      · exact noPacket_nil
      · dsimp only
        split <;> exact noPacket_nil
    | GROUP_ASSIGN =>
      rw [hcontrol] at hh
      exact noPacket_onGroupAssign hh
    | GROUP_REGISTER =>
      rw [hcontrol] at hh
      exact noPacket_onGroupRegister hh
    | _ => simp [hcontrol, ControlType.isGroup] at hgroup

/-- An observer is called with the packet that was received, whose text can be parsed. -/
theorem packet_of_update {r : Instance × List Effect} (h : update env p c = .ok r)
    {po : PortObserver} {c' : AsyncCapsule} (hmem : .onPacket po c' ∈ r.2) :
    c' = c ∧ ∃ m, parseMessage c.payload = .ok m := by
  unfold update at h
  split at h
  · cases h
    cases hmem
  · unfold notifyByPort at h
    cases hparse : parseMessage c.payload with
    | error e => simp [hparse, bind, Except.bind] at h
    | ok m =>
      refine ⟨?_, m, rfl⟩
      simp only [hparse, bind, Except.bind] at h
      split at h
      · cases h
        cases hmem
      · split at h
        · cases h
        · rename_i handled hhandled
          cases h
          rcases List.mem_append.mp hmem with hmem | hmem
          · exact (handle_noPacket hhandled po c' hmem).elim
          · split at hmem
            · by_cases hm : m.control = .NONE
              · obtain ⟨po', heq, -⟩ := mem_forward_data hm hmem
                cases heq
                rfl
              · obtain ⟨po', heq, -⟩ := mem_forward_control hm hmem
                cases heq
            · cases hmem

theorem rxOfPacket_ok {m : Message} (hparse : parseMessage c.payload = .ok m) (po : PortObserver) :
    ∃ rx, rxOfPacket po c = .ok rx := by
  unfold rxOfPacket
  split
  · exact ⟨_, rfl⟩
  · rw [hparse]
    exact ⟨_, rfl⟩

theorem mapM_ok {ε α β : Type} {f : α → Except ε β} {l : List α} (h : ∀ x ∈ l, ∃ y, f x = .ok y) :
    ∃ ys, l.mapM f = .ok ys := by
  induction l with
  | nil => exact ⟨[], rfl⟩
  | cons x l ih =>
    obtain ⟨y, hy⟩ := h x List.mem_cons_self
    obtain ⟨ys, hys⟩ := ih fun z hz => h z (List.mem_cons_of_mem _ hz)
    rw [List.mapM_cons, hy, hys]
    exact ⟨_, rfl⟩

/-- What a process does about the effects of its protocol raises no exception. -/
theorem reactions_ok {r : Instance × List Effect} (h : update env p c = .ok r)
    (react : Effect → Except CxxException (List Effect))
    (hpacket : ∀ po, (∃ rx, rxOfPacket po c = .ok rx) → ∃ y, react (.onPacket po c) = .ok y)
    (hother : ∀ x, (∀ po c, x ≠ .onPacket po c) → ∃ y, react x = .ok y) :
    ∃ ys, r.2.mapM react = .ok ys := by
  refine mapM_ok fun x hx => ?_
  cases x with
  | onPacket po c' =>
    obtain ⟨rfl, m, hm⟩ := packet_of_update h hx
    exact hpacket po (rxOfPacket_ok hm po)
  | _ => exact hother _ (by simp)

theorem receive_ok_iff {cfg : Config} {g : Gateway} :
    (∃ r, g.receive env cfg c = .ok r) ↔ Readable env.accepts c.payload := by
  rw [Gateway.receive, exists_ok_bind, ← update_ok_iff (p := g.proto)]
  refine exists_congr fun r => and_iff_left_of_imp fun h => exists_ok_bind.mpr ?_
  obtain ⟨ys, hys⟩ := reactions_ok h (({ g with proto := r.1 } : Gateway).react cfg env.now)
    (fun po hpacket => by
      obtain ⟨rx, hrx⟩ := hpacket
      cases rx <;> simp [Gateway.react, hrx, bind, Except.bind, pure, Except.pure])
    (fun x hx => by
      cases x with
      | onPacket po c => exact (hx po c rfl).elim
      | _ => exact ⟨_, rfl⟩)
  exact ⟨ys, hys, _, rfl⟩

theorem componentReceive_ok_iff {port : UInt16} {id : UInt64} :
    (∃ r, componentReceive env p port id c = .ok r) ↔ Readable env.accepts c.payload := by
  rw [componentReceive, exists_ok_bind, ← update_ok_iff (p := p)]
  refine exists_congr fun r => and_iff_left_of_imp fun h => exists_ok_bind.mpr ?_
  obtain ⟨ys, hys⟩ := reactions_ok h (componentReact r.1 port id env.now)
    (fun po hpacket => by
      obtain ⟨rx, hrx⟩ := hpacket
      cases rx <;> simp [componentReact, hrx, componentOnReceive_eq, bind, Except.bind, pure,
        Except.pure])
    (fun x hx => by
      cases x with
      | onPacket po c => exact (hx po c rfl).elim
      | _ => exact ⟨_, rfl⟩)
  exact ⟨ys, hys, _, rfl⟩

end Receptions

/-! ## Frames -/

/-- A frame at the protocol of a process: it is dropped, or its payload is handed on. -/
def onFrame {α : Type} (etherType : UInt16) (origin : ChannelOrigin) (f : Frame) (idle : α)
    (take : AsyncCapsule → Except CxxException α) : Except CxxException α :=
  match protocolUpdate etherType origin f with
  | none => .ok idle
  | some c => take c.toAsyncCapsule

theorem onFrame_ok_iff {α : Type} {etherType : UInt16} {origin : ChannelOrigin} {f : Frame}
    (hproto : f.proto = etherType) {accepts : UInt8 → Bytes → Bool} {idle : α}
    {take : AsyncCapsule → Except CxxException α}
    (htake : ∀ c, (∃ r, take c = .ok r) ↔ Readable accepts c.payload) :
    (∃ r, onFrame etherType origin f idle take = .ok r) ↔ Readable accepts (f.data.drop 6) := by
  unfold onFrame
  split
  · rename_i hnone
    rw [List.drop_eq_nil_of_le (length_of_protocolUpdate_none hproto hnone)]
    exact iff_of_true ⟨_, rfl⟩ (readable_nil accepts)
  · rename_i c hsome
    rw [htake, payload_of_protocolUpdate hsome]

/-- A frame is survived exactly when its payload is readable: by the protocol in any state,
and with the observers and their owners by any gateway and any component. -/
theorem frame_survived_iff (etherType : UInt16) (f : Frame) (hproto : f.proto = etherType)
    (origin : ChannelOrigin) (env : Env) :
    (∀ p, (∃ r, onFrame etherType origin f (p, []) (update env p) = .ok r) ↔
      Readable env.accepts (f.data.drop 6)) ∧
    (∀ cfg (g : Gateway), (∃ r, onFrame etherType origin f (g, []) (g.receive env cfg) = .ok r) ↔
      Readable env.accepts (f.data.drop 6)) ∧
    ∀ p port id, (∃ r, onFrame etherType origin f (p, []) (componentReceive env p port id) =
      .ok r) ↔
      Readable env.accepts (f.data.drop 6) :=
  ⟨fun _ => onFrame_ok_iff hproto fun _ => update_ok_iff,
    fun _ _ => onFrame_ok_iff hproto fun _ => receive_ok_iff,
    fun _ _ _ => onFrame_ok_iff hproto fun _ => componentReceive_ok_iff⟩

/-- A broadcast frame with the given text behind a header of zeros. -/
def textFrame (text : Bytes) (h : text.length ≤ MTU) : Frame :=
  ⟨Address.BROADCAST, default, 0x88B5, List.replicate 6 0 ++ text, by
    rw [List.length_append, List.length_replicate, MAX_DATA]
    rw [MTU] at h
    omega⟩

/-- A text that is no message is survived, even with something like a field in it. -/
theorem negative_group_survived :
    ∃ r, onFrame 0x88B5 .ethernet (textFrame (ascii "hello GROUP=-4") (by decide))
      ({ address := default }, [])
      (update { now := fun _ => 0, stray := fun _ => 0 } { address := default }) = .ok r :=
  ((frame_survived_iff 0x88B5 (textFrame (ascii "hello GROUP=-4") (by decide)) rfl .ethernet
    { now := fun _ => 0, stray := fun _ => 0 }).1 { address := default }).mpr (by decide +kernel)

/-- A letter or too large a number in a field, and a move request without a group, end every
process that receives them. -/
theorem three_texts_escape :
    (∀ env p, onFrame 0x88B5 .ethernet (textFrame (ascii "GROUP=x") (by decide)) (p, [])
      (update env p) =
      .error .invalidArgument) ∧
    (∀ env p, onFrame 0x88B5 .ethernet (textFrame (ascii "TYPE=2147483648 ") (by decide)) (p, [])
      (update env p) = .error .outOfRange) ∧
    ∀ now stray p, onFrame 0x88B5 .ethernet (textFrame (ascii "CONTROL=8 ") (by decide)) (p, [])
      (update { now, stray } p) = .error .invalidArgument :=
  ⟨fun _ _ => rfl, fun _ _ => rfl, fun _ _ _ => rfl⟩

end CarNetwork.Protocol
