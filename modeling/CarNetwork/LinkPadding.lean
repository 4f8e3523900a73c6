import CarNetwork.GroupMessages
import CarNetwork.Transport

/-!
# Bytes that the link layer appends

Ethernet fills short frames up, and the engine hands the filling on as data. The protocol
header says where the payload ends, but `Protocol::update` does not look: the padding
becomes part of the payload, up to the limit of a frame. Control messages do not mind as long
as the padding is zero, because their bodies end at the first NUL, both for the tag and for
the handlers.
-/
namespace CarNetwork.Transport

open CarNetwork.ByteText CarNetwork.Ethernet CarNetwork.Protocol CarNetwork.WordBytes
open CarNetwork.Fleet.Deployment (vmMac)

section Delivered

variable {nic : Nic} {etherType : UInt16} {src dst : Endpoint} {payload : Bytes}

theorem take_packetBytes (src dst : Endpoint) (payload padding : Bytes) :
    (packetBytes src dst payload ++ padding).take MAX_DATA =
      wordBytes 2 src.port.toNat ++ (wordBytes 2 dst.port.toNat ++ (wordBytes 2 payload.length ++
        (payload ++ padding).take MTU)) := by
  simp [packetBytes, List.take_append, MAX_DATA, MTU, List.take_of_length_le]

/-- Everything behind the header is delivered, padding included, as far as it fits a frame. -/
theorem receive_padded (hne : payload ≠ []) (hsize : payload.length ≤ MTU) {mac : Address}
    (hmac : mac ≠ nic.mac) (beyond : ℕ → UInt8) (padding : Bytes) :
    receive mac etherType beyond (.ethernet ((addressBytes dst.mac ++ (addressBytes nic.mac ++
        ((wordBytes 2 etherType.toNat).reverse ++ packetBytes src dst payload))) ++ padding)) =
      some {
        src := ⟨nic.mac, src.port⟩
        dst
        origin := .ethernet
        payload := (payload ++ padding).take MTU
        length := UInt16.ofNat ((payload ++ padding).take MTU).length
        proto := etherType } := by
  have hrest : (payload ++ padding).take MTU ≠ [] := by simp [hne, MTU]
  simp only [receive, receivedFrame, List.append_assoc, onPacket_bytes, Option.bind_some,
    onEthFrame, if_neg hmac.symm]
  exact protocolUpdate_header rfl (take_packetBytes src dst payload padding) hrest
    (length_lt_word hsize)

/-- What is delivered is what was sent only without padding or without room for it. -/
theorem take_eq_payload_iff (hsize : payload.length ≤ MTU) (padding : Bytes) :
    (payload ++ padding).take MTU = payload ↔ padding = [] ∨ payload.length = MTU := by
  constructor
  · intro h
    have hlen := congrArg List.length h
    simp only [List.length_take, List.length_append] at hlen
    by_cases hfull : payload.length = MTU
    · exact Or.inr hfull
    · exact Or.inl (List.length_eq_zero_iff.mp (by omega))
  · rintro (rfl | hfull)
    · rw [List.append_nil, List.take_of_length_le hsize]
    · rw [List.take_append_of_le_length hfull.ge, List.take_of_length_le hsize]

/-- The payload is what the frame has behind the header; nothing outside of it is read. -/
theorem payload_of_protocolUpdate {origin : ChannelOrigin} {f : Frame} {c : Capsule}
    (h : protocolUpdate etherType origin f = some c) : c.payload = f.data.drop 6 := by
  unfold protocolUpdate at h
  split at h
  · cases h
  · split at h
    · cases h
    · simp only [Option.bind_eq_bind, Option.bind_eq_some_iff] at h
      obtain ⟨⟨srcPort, s1⟩, h1, ⟨dstPort, s2⟩, h2, ⟨n, s3⟩, h3, hc⟩ := h
      cases hc
      dsimp only at h2 h3 ⊢
      rw [rest_of_readWord h3, rest_of_readWord h2, rest_of_readWord h1, List.drop_drop,
        List.drop_drop]

/-- Of the frames of the protocol only those are dropped that have no payload. -/
theorem length_of_protocolUpdate_none {origin : ChannelOrigin} {f : Frame}
    (hproto : f.proto = etherType) (h : protocolUpdate etherType origin f = none) :
    f.data.length ≤ 6 := by
  by_contra hlong
  have h1 : 2 ≤ f.data.length := by omega
  have h2 : 2 ≤ f.data.length - 2 := by omega
  have h3 : 2 ≤ f.data.length - 4 := by omega
  simp [protocolUpdate, hproto, hlong, readWord, h1, h2, h3] at h

/-- The payload delivered for a padded frame is the one that was sent exactly when there is
no padding, or no room for any; and no header makes the protocol read anything but
the bytes of the frame. -/
theorem padding_delivered (nic : Nic) (etherType : UInt16) (sendto : Bytes → ℤ) (src dst : Endpoint)
    (payload : Bytes) (hne : payload ≠ [])
    (hok : 0 ≤ (protocolSend nic etherType sendto src dst payload).1) (hdst : dst.mac ≠ nic.mac) :
    (∃ packet, (protocolSend nic etherType sendto src dst payload).2 = some (.ethernet packet) ∧
      ∀ mac beyond padding, mac ≠ nic.mac → ∃ c,
        receive mac etherType beyond (.ethernet (packet ++ padding)) = some c ∧
        c.payload = (payload ++ padding).take MTU ∧
        (c.payload = payload ↔ padding = [] ∨ payload.length = MTU)) ∧
    ∀ origin f c, protocolUpdate etherType origin f = some c → c.payload = f.data.drop 6 := by
  refine ⟨?_, fun origin f c => payload_of_protocolUpdate⟩
  unfold protocolSend at hok ⊢
  split at hok
  · exact absurd hok (by norm_num)
  · rename_i hlong
    have hsize : payload.length ≤ MTU := Nat.le_of_not_lt hlong
    rw [dif_neg hlong]
    unfold nicSend at hok ⊢
    simp only [if_neg hdst] at hok ⊢
    split at hok
    · rename_i hengine
      rw [if_pos hengine]
      refine ⟨_, ethernetSend_ok rfl hok, fun mac beyond padding hmac => ?_⟩
      exact ⟨_, receive_padded hne hsize hmac beyond padding, rfl,
        take_eq_payload_iff hsize padding⟩
    · exact absurd hok (by norm_num)

end Delivered

/-- Forty bytes need no padding. -/
theorem forty_bytes_delivered :
    ∃ packet c, (protocolSend aNic 0x88B5 (fun packet => packet.length) ⟨vmMac 20, 101⟩
        ⟨Address.BROADCAST, 0xFFFF⟩ (List.replicate 40 97)).2 = some (.ethernet packet) ∧
      receive (vmMac 30) 0x88B5 (fun _ => 0) (.ethernet packet) = some c ∧
      c.payload = List.replicate 40 97 := by
  obtain ⟨⟨packet, hsent, hpadded⟩, -⟩ :=
    padding_delivered aNic 0x88B5 (fun packet => packet.length)
    ⟨vmMac 20, 101⟩ ⟨Address.BROADCAST, 0xFFFF⟩ (List.replicate 40 97) (by decide)
    (by decide +kernel)
    (by decide)
  obtain ⟨c, hc, -, hiff⟩ := hpadded (vmMac 30) (fun _ => 0) [] (by decide)
  rw [List.append_nil] at hc
  exact ⟨packet, c, hsent, hc, hiff.mpr (Or.inl rfl)⟩

/-- Two bytes arrive as forty. -/
theorem two_bytes_arrive_padded :
    ((protocolSend aNic 0x88B5 (fun packet => packet.length) ⟨vmMac 20, 101⟩
        ⟨Address.BROADCAST, 0xFFFF⟩ [104, 105]).2.bind fun wire => match wire with
      | .ethernet packet => (receive (vmMac 30) 0x88B5 (fun _ => 0)
          (.ethernet (packet ++ List.replicate 38 0))).map fun c => c.payload
      | .bus _ => none) = some ([104, 105] ++ List.replicate 38 0) := by
  decide +kernel

end CarNetwork.Transport

namespace CarNetwork.Protocol

open CarNetwork.ByteText CarNetwork.Ethernet

/-! ## Padding behind a control message -/

theorem cString_append_zeros (s : Bytes) (k : ℕ) :
    cString (s ++ List.replicate k 0) = cString s := by
  induction s with
  | nil => cases k <;> simp [cString, List.replicate_succ]
  | cons b s ih =>
    unfold cString at ih ⊢
    rw [List.cons_append, List.takeWhile_cons, List.takeWhile_cons, ih]

/-- Padding goes to the body. -/
theorem buildMessage_append (m : Message) (padding : Bytes) :
    buildMessage m ++ padding = buildMessage { m with body := m.body ++ padding } := by
  simp only [buildMessage, List.append_assoc]

theorem verifyMsgac_append_zeros (key : Key) (tag : UInt8) (body : Bytes) (k : ℕ) :
    verifyMsgac key tag (body ++ List.replicate k 0) = verifyMsgac key tag body := by
  rw [verifyMsgac, verifyMsgac, generateMac, generateMac, cString_append_zeros]

theorem cleanBody_append_zeros (body : Bytes) (k : ℕ) :
    cleanBody (body ++ List.replicate k 0) = cleanBody body := by
  rw [cleanBody, cleanBody, cString_append_zeros]

/-- Handlers see the sender of a frame and nothing else of it. -/
theorem handle_congr (env : Env) (p : Instance) (msg : Message) {c c' : AsyncCapsule}
    (hsrc : c'.src = c.src) :
    handle env p msg c' = handle env p msg c := by
  unfold handle
  cases msg.control <;> simp only [onReady, onSyncReq, onSyncResp, onDelayReq, hsrc]

/-- Observers of a control message are told its type and its endpoints. -/
theorem forwardToObservers_congr (p : Instance) {msg : Message} {c c' : AsyncCapsule}
    (hm : msg.control ≠ .NONE) (hsrc : c'.src = c.src) (hdst : c'.dst = c.dst) :
    forwardToObservers p msg c' = forwardToObservers p msg c := by
  simp only [forwardToObservers, if_pos hm, hsrc, hdst]

/-- Zero bytes behind a control message change nothing: neither the decision, nor the body that
the handlers see, nor what they do; and that body is the trimmed form of the bytes that the
tag was computed over. -/
theorem control_ignores_padding (key : Key) (now : ℕ → UInt64) (stray : ℤ → ℤ)
    (p : Instance) (m : Message) (hm : m.control ≠ .NONE) (c : AsyncCapsule) (k : ℕ)
    (hp : c.payload = buildMessage m) :
    verifyMsgac key m.msgac (m.body ++ List.replicate k 0) = verifyMsgac key m.msgac m.body ∧
      acceptedMessage { key, now, stray } { c with payload := c.payload ++ List.replicate k 0 } =
        acceptedMessage { key, now, stray } c ∧
      notifyByPort { key, now, stray } p { c with payload := c.payload ++ List.replicate k 0 } =
        notifyByPort { key, now, stray } p c ∧
      verifyMsgac key m.msgac m.body = (macLoop key 0 0 (cString m.body) == m.msgac) ∧
      ∀ msg, acceptedMessage { key, now, stray } c = some msg →
        msg.body = trim (cString m.body) := by
  have hverify := verifyMsgac_append_zeros key m.msgac m.body k
  have hclean := cleanBody_append_zeros m.body k
  have hparse := parse_build m
  have hparse' : parseMessage (c.payload ++ List.replicate k 0) =
      .ok { m with body := m.body ++ List.replicate k 0 } := by
    rw [hp, buildMessage_append, parse_build]
  rw [← hp] at hparse
  refine ⟨hverify, ?_, ?_, rfl, ?_⟩
  · simp only [acceptedMessage, hparse, hparse', hverify, hclean]
  · have hforward (q : Instance) : forwardToObservers q { m with body := cleanBody m.body }
        { c with payload := c.payload ++ List.replicate k 0 } =
          forwardToObservers q { m with body := cleanBody m.body } c :=
      forwardToObservers_congr q hm rfl rfl
    have hhandle : handle { key, now, stray } p { m with body := cleanBody m.body }
        { c with payload := c.payload ++ List.replicate k 0 } =
          handle { key, now, stray } p { m with body := cleanBody m.body } c :=
            handle_congr _ _ _ rfl
    simp only [notifyByPort, hparse, hparse', bind, Except.bind, hverify, hclean, hhandle, hforward]
  · intro msg hmsg
    simp only [acceptedMessage, hparse, Option.ite_none_right_eq_some] at hmsg
    obtain ⟨-, hmsg⟩ := hmsg
    cases hmsg
    rfl

/-- A delay request with spaces around its numbers and more bytes behind a NUL. -/
def spacedRequest : Message where
  control := .DELAY_REQ
  body := ascii " 1 2 3 " ++ [0, 57]
  msgac := generateMac SECRET_KEY (ascii " 1 2 3 ")

def spacedFrame : AsyncCapsule := ⟨{}, {}, .ethernet, buildMessage spacedRequest⟩

/-- The handlers see its three numbers, also with seven bytes of padding. -/
theorem padded_request_accepted :
    ∃ msg, acceptedMessage { now := fun _ => 0, stray := fun _ => 0 }
        { spacedFrame with payload := spacedFrame.payload ++ List.replicate 7 0 } = some msg ∧
      msg.body = ascii "1 2 3" := by
  obtain ⟨-, hsame, -, -, hbody⟩ := control_ignores_padding SECRET_KEY (fun _ => 0) (fun _ => 0)
    { address := default } spacedRequest (by decide) spacedFrame 7 rfl
  have haccepted : acceptedMessage { now := fun _ => 0, stray := fun _ => 0 } spacedFrame =
      some { spacedRequest with body := ascii "1 2 3" } := by decide +kernel
  refine ⟨_, hsame.trans haccepted, ?_⟩
  rw [hbody _ haccepted]
  decide

end CarNetwork.Protocol
