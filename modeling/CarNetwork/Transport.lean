import CarNetwork.Fleet
import CarNetwork.SharedBus
import CarNetwork.WordBytes

/-!
# From `Protocol::send` to `Protocol::update`

A payload on its way through the layers: the protocol header, the frame of the
network interface, and the two wire formats, one for the shared-memory bus and one
for the Ethernet. Words are stored lowest byte first, as on the machines this
program runs on; the type of an Ethernet frame is swapped by `htons`.
-/
namespace CarNetwork.Transport

open CarNetwork.ByteText CarNetwork.Ethernet CarNetwork.Protocol CarNetwork.SharedBus
open CarNetwork.WordBytes

def MAX_DATA : ℕ := 1500

/-- `Ethernet::Frame`; `size` is the length of the data. -/
structure Frame where
  dst : Address
  src : Address
  proto : UInt16
  data : Bytes
  fits : data.length ≤ MAX_DATA

/-! ## Addresses -/

/-- `address_to_bytes` prints the address and scans the text again. -/
def addressToBytes (a : Address) : Option Address := scanAddress a.str

/-- No address is taken for the broadcast address by a failed scan. -/
@[simp] theorem addressToBytes_eq (a : Address) : addressToBytes a = some a := by
  simp only [addressToBytes, Address.str, List.append_assoc]
  rw [scanAddress_hexBytes (by decide), address_eta]

/-! ## The shared-memory engine -/

def serializeFrame (f : Frame) : Bytes :=
  addressBytes f.dst ++ (addressBytes f.src ++
    (wordBytes 2 f.proto.toNat ++ (wordBytes 4 f.data.length ++ f.data)))

/-- Reads as many bytes as the size field says, past the end of the message if need be;
`beyond` is what stands there. -/
def deserializeFrame (beyond : ℕ → UInt8) (s : Bytes) : Option Frame := do
  let (dst, s) ← readAddress s
  let (src, s) ← readAddress s
  let (proto, s) ← readWord 2 s
  let (size, s) ← readWord 4 s
  if h : size ≤ MAX_DATA then
    some ⟨dst, src, UInt16.ofNat proto, (s ++ (List.range size).map beyond).take size,
      (List.length_take_le _ _).trans h⟩
  else none

/-- What a send puts on one of the two channels. -/
inductive Wire
  | bus (msg : BusMessage)
  | ethernet (packet : Bytes)

def Wire.origin : Wire → ChannelOrigin
  | .bus _ => .sharedMemory
  | .ethernet _ => .ethernet

/-- `EngineShm::send`: the return value, and the message given to the bus. -/
def shmSend (f : Frame) : ℤ × Option Wire :=
  let blob := serializeFrame f
  if blob.isEmpty then (-1, none)
  else if h : blob.length ≤ PAYLOAD then (0, some (.bus ⟨blob, h⟩))
  else (-2, none)

/-- `EngineShm::on_receive_msg` up to the interface. -/
def onReceiveMsg (beyond : ℕ → UInt8) (msg : Bytes) : Option Frame :=
  if msg.isEmpty then none else deserializeFrame beyond msg

/-! ## The Ethernet engine -/

/-- `EngineEthernet::send`; `sendto` is the result of the system call. -/
def ethernetSend (mac : Address) (sendto : Bytes → ℤ) (f : Frame) : ℤ × Option Wire :=
  let dst := (addressToBytes f.dst).getD Address.BROADCAST
  let packet := addressBytes dst ++
    (addressBytes mac ++ ((wordBytes 2 f.proto.toNat).reverse ++ f.data))
  let sent := sendto packet
  if sent < 0 then (-1, none)
  else (if 14 < sent then sent - 14 else 0, some (.ethernet packet))

def ETH_FRAME_LEN : ℕ := 1514

/-- `EngineEthernet::on_packet` on one packet. -/
def onPacket (buf : Bytes) : Option Frame := do
  let (dst, s) ← readAddress (buf.take ETH_FRAME_LEN)
  let (src, s) ← readAddress s
  let (proto, s) ← readSwapped 2 s
  return ⟨dst, src, UInt16.ofNat proto, s.take MAX_DATA, List.length_take_le _ _⟩

/-! ## Interface and protocol -/

structure Nic where
  mac : Address
  ethernetEngine : Bool

/-- `NIC::send`: shared memory for the own address, the Ethernet for all others. -/
def nicSend (nic : Nic) (sendto : Bytes → ℤ) (dst : Address) (proto : UInt16) (data : Bytes)
    (fits : data.length ≤ MAX_DATA) : ℤ × Option Wire :=
  let f : Frame := ⟨dst, nic.mac, proto, data, fits⟩
  if dst = nic.mac then shmSend f
  else if nic.ethernetEngine then ethernetSend nic.mac sendto f
  else (-2, none)

/-- `NIC::on_eth_frame`: own frames are ignored. -/
def onEthFrame (mac : Address) (f : Frame) : Option Frame := if f.src = mac then none else some f

/-- The protocol header and the payload. -/
def packetBytes (src dst : Endpoint) (payload : Bytes) : Bytes :=
  wordBytes 2 src.port.toNat ++
    (wordBytes 2 dst.port.toNat ++ (wordBytes 2 payload.length ++ payload))

@[simp] theorem length_packetBytes (src dst : Endpoint) (payload : Bytes) :
    (packetBytes src dst payload).length = payload.length + 6 := by
  simp [packetBytes]
  omega

/-- `Protocol::send`. -/
def protocolSend (nic : Nic) (etherType : UInt16) (sendto : Bytes → ℤ) (src dst : Endpoint)
    (payload : Bytes) : ℤ × Option Wire :=
  if h : MTU < payload.length then (-1, none)
  else nicSend nic sendto dst.mac etherType (packetBytes src dst payload) (by
    rw [length_packetBytes, MAX_DATA]
    rw [MTU] at h
    omega)

/-- `Protocol::AsyncCapsule` with the fields that only matter to the transport. -/
structure Capsule extends AsyncCapsule where
  length : UInt16
  proto : UInt16

/-- `Protocol::update` up to `notify_by_port`. -/
def protocolUpdate (etherType : UInt16) (origin : ChannelOrigin) (f : Frame) : Option Capsule :=
  if f.proto ≠ etherType then none
  else if f.data.length ≤ 6 then none
  else do
    let (srcPort, s) ← readWord 2 f.data
    let (dstPort, s) ← readWord 2 s
    let (_, s) ← readWord 2 s
    return {
      src := ⟨f.src, UInt16.ofNat srcPort⟩
      dst := ⟨f.dst, UInt16.ofNat dstPort⟩
      origin := origin
      payload := s
      length := UInt16.ofNat s.length
      proto := f.proto }

/-- What the interface of a node with the given address takes off the wire. -/
def receivedFrame (mac : Address) (beyond : ℕ → UInt8) : Wire → Option Frame
  | .bus msg => onReceiveMsg beyond msg.bytes
  | .ethernet packet => (onPacket packet).bind (onEthFrame mac)

/-- All layers of a receiver with the given address. -/
def receive (mac : Address) (etherType : UInt16) (beyond : ℕ → UInt8) (wire : Wire) :
    Option Capsule :=
  (receivedFrame mac beyond wire).bind (protocolUpdate etherType wire.origin)

/-! ## Round trips -/

theorem toNat_lt_word (w : UInt16) : w.toNat < 256 ^ 2 := UInt16.toNat_lt w

theorem deserialize_serialize (beyond : ℕ → UInt8) (f : Frame) :
    deserializeFrame beyond (serializeFrame f) = some f := by
  obtain ⟨dst, src, proto, data, fits⟩ := f
  have hsize : data.length < 256 ^ 4 := by
    rw [MAX_DATA] at fits
    omega
  simp only [deserializeFrame, serializeFrame, readAddress_addressBytes,
    readWord_wordBytes (toNat_lt_word proto), readWord_wordBytes hsize, Option.bind_eq_bind,
    Option.bind_some, dif_pos fits, List.take_left,
    UInt16.ofNat_toNat]

theorem length_serializeFrame (f : Frame) : (serializeFrame f).length = f.data.length + 18 := by
  simp [serializeFrame, addressBytes]
  omega

theorem onReceiveMsg_serialize (beyond : ℕ → UInt8) (f : Frame) :
    onReceiveMsg beyond (serializeFrame f) = some f := by
  have hne : (serializeFrame f).isEmpty = false := by simp [serializeFrame, addressBytes]
  rw [onReceiveMsg, if_neg (by simp [hne]), deserialize_serialize]

/-- What the engine makes of a packet: the data is cut at the limit of a frame. -/
theorem onPacket_bytes (dst src : Address) (proto : UInt16) (data : Bytes) :
    onPacket (addressBytes dst ++
      (addressBytes src ++ ((wordBytes 2 proto.toNat).reverse ++ data))) =
      some ⟨dst, src, proto, data.take MAX_DATA, List.length_take_le _ _⟩ := by
  have hcut : (addressBytes dst ++
      (addressBytes src ++ ((wordBytes 2 proto.toNat).reverse ++ data))).take
      ETH_FRAME_LEN = addressBytes dst ++ (addressBytes src ++ ((wordBytes 2 proto.toNat).reverse ++
        data.take MAX_DATA)) := by
    simp [List.take_append, addressBytes, ETH_FRAME_LEN, MAX_DATA]
  simp only [onPacket, hcut, readAddress_addressBytes, readSwapped_reverse (toNat_lt_word proto),
    Option.bind_eq_bind, Option.bind_some, List.take_take, min_self, UInt16.ofNat_toNat,
    Option.pure_def]

/-- A packet of the engine is read back as the frame it was made from. -/
theorem onPacket_packet (f : Frame) :
    onPacket (addressBytes f.dst ++
      (addressBytes f.src ++ ((wordBytes 2 f.proto.toNat).reverse ++ f.data))) =
      some f := by
  obtain ⟨dst, src, proto, data, fits⟩ := f
  simp only [onPacket_bytes, List.take_of_length_le fits]

/-- The header is taken off, and what follows it is the payload, whatever length the
header gives. -/
theorem protocolUpdate_header {etherType : UInt16} {origin : ChannelOrigin} {f : Frame}
    {src dst : Endpoint} {n : ℕ} {rest : Bytes} (hproto : f.proto = etherType)
    (hdata : f.data = wordBytes 2 src.port.toNat ++
      (wordBytes 2 dst.port.toNat ++ (wordBytes 2 n ++ rest))) (hne :
        rest ≠ []) (hn : n < 256 ^ 2) :
    protocolUpdate etherType origin f = some {
      src := ⟨f.src, src.port⟩, dst := ⟨f.dst, dst.port⟩, origin, payload := rest,
      length := UInt16.ofNat rest.length, proto := etherType } := by
  have hpos := List.length_pos_iff.mpr hne
  have hlong : ¬ f.data.length ≤ 6 := by
    simp [hdata]
    omega
  rw [protocolUpdate, if_neg (by simp [hproto]), if_neg hlong]
  simp only [hdata, readWord_wordBytes (toNat_lt_word _), readWord_wordBytes hn,
    Option.bind_eq_bind, Option.bind_some, UInt16.ofNat_toNat, Option.pure_def, hproto]

theorem length_lt_word {payload : Bytes} (hsize : payload.length ≤ MTU) :
    payload.length < 256 ^ 2 := by
  rw [MTU] at hsize
  omega

/-- The bus takes what fits into a slot. -/
theorem shmSend_eq (f : Frame) : shmSend f =
    if h : (serializeFrame f).length ≤ PAYLOAD then
      (0, some (.bus ⟨serializeFrame f, h⟩))
    else (-2, none) := by
  have hne : (serializeFrame f).isEmpty = false := by simp [serializeFrame, addressBytes]
  rw [shmSend]
  exact if_neg (by simp [hne])

theorem shmSend_ok {f : Frame} (hok : 0 ≤ (shmSend f).1) :
    ∃ fits, (shmSend f).2 = some (.bus ⟨serializeFrame f, fits⟩) := by
  rw [shmSend_eq] at hok ⊢
  split at hok
  · rename_i hfits
    rw [dif_pos hfits]
    exact ⟨hfits, rfl⟩
  · exact absurd hok (by norm_num)

theorem ethernetSend_ok {mac : Address} {sendto : Bytes → ℤ} {f : Frame} (hsrc : f.src = mac)
    (hok : 0 ≤ (ethernetSend mac sendto f).1) :
    (ethernetSend mac sendto f).2 = some (.ethernet (addressBytes f.dst ++
      (addressBytes f.src ++ ((wordBytes 2 f.proto.toNat).reverse ++ f.data)))) := by
  unfold ethernetSend at hok ⊢
  simp only [addressToBytes_eq, Option.getD_some, ← hsrc] at hok ⊢
  split at hok
  · exact absurd hok (by norm_num)
  · rename_i hsent
    rw [if_neg hsent]

/-- A frame that was sent arrives as it was made, on whichever channel. -/
theorem nicSend_ok {nic : Nic} {sendto : Bytes → ℤ} {dst : Address} {proto : UInt16} {data : Bytes}
    {fits : data.length ≤ MAX_DATA} (hok : 0 ≤ (nicSend nic sendto dst proto data fits).1) :
    ∃ wire, (nicSend nic sendto dst proto data fits).2 = some wire ∧
      wire.origin = (if dst = nic.mac then .sharedMemory else .ethernet) ∧
      ∀ mac beyond, (wire.origin = .ethernet → mac ≠ nic.mac) →
        receivedFrame mac beyond wire = some ⟨dst, nic.mac, proto, data, fits⟩ := by
  unfold nicSend at hok ⊢
  dsimp only at hok ⊢
  split at hok
  · rename_i hown
    obtain ⟨hlen, hsent⟩ := shmSend_ok hok
    rw [if_pos hown, if_pos hown]
    exact ⟨_, hsent, rfl, fun mac beyond _ => onReceiveMsg_serialize beyond _⟩
  · rename_i hother
    rw [if_neg hother, if_neg hother]
    split at hok
    · rename_i hengine
      rw [if_pos hengine]
      refine ⟨_, ethernetSend_ok rfl hok, rfl, fun mac beyond hmac => ?_⟩
      have hforeign : nic.mac ≠ mac := (hmac rfl).symm
      rw [receivedFrame, onPacket_packet, Option.bind_some, onEthFrame, if_neg hforeign]
    · exact absurd hok (by norm_num)

/-- A payload whose send succeeded reaches the protocol of a receiver. -/
theorem protocolSend_ok {nic : Nic} {etherType : UInt16} {sendto : Bytes → ℤ} {src dst : Endpoint}
    {payload : Bytes} (hne : payload ≠ [])
    (hok : 0 ≤ (protocolSend nic etherType sendto src dst payload).1) :
    ∃ wire, (protocolSend nic etherType sendto src dst payload).2 = some wire ∧
      wire.origin = (if dst.mac = nic.mac then .sharedMemory else .ethernet) ∧
      ∀ mac beyond, (wire.origin = .ethernet → mac ≠ nic.mac) →
        receive mac etherType beyond wire = some {
          src := ⟨nic.mac, src.port⟩, dst, origin := wire.origin, payload,
          length := UInt16.ofNat payload.length, proto := etherType } := by
  unfold protocolSend at hok ⊢
  split at hok
  · exact absurd hok (by norm_num)
  · rename_i hsize
    rw [dif_neg hsize]
    obtain ⟨wire, hwire, horigin, hframe⟩ := nicSend_ok hok
    refine ⟨wire, hwire, horigin, fun mac beyond hmac => ?_⟩
    rw [receive, hframe mac beyond hmac, Option.bind_some]
    exact protocolUpdate_header rfl rfl hne (length_lt_word (Nat.le_of_not_lt hsize))

/-- Transport is exact on both channels: where `Protocol::send` reports success for a
payload that is not empty, every receiver ends up with the sender's address and the
source port, the destination as given, the protocol number and the payload; and no
address is turned into the broadcast address. -/
theorem transport_faithful (nic : Nic) (etherType : UInt16) (sendto : Bytes → ℤ)
    (src dst : Endpoint) (payload : Bytes) (hne : payload ≠ [])
    (hok : 0 ≤ (protocolSend nic etherType sendto src dst payload).1) :
    addressToBytes dst.mac = some dst.mac ∧
    ∃ wire, (protocolSend nic etherType sendto src dst payload).2 = some wire ∧
      wire.origin = (if dst.mac = nic.mac then .sharedMemory else .ethernet) ∧
      ∀ mac beyond, (wire.origin = .ethernet → mac ≠ nic.mac) →
        receive mac etherType beyond wire = some {
          src := ⟨nic.mac, src.port⟩, dst, origin := wire.origin, payload,
          length := UInt16.ofNat payload.length, proto := etherType } :=
  ⟨addressToBytes_eq _, protocolSend_ok hne hok⟩

open CarNetwork.Fleet.Deployment (vmMac vmMac_ne_broadcast)

def aNic : Nic := ⟨vmMac 20, true⟩

/-- Two bytes broadcast from virtual machine 20 reach virtual machine 30. -/
theorem two_bytes_broadcast :
    ∃ wire, (protocolSend aNic 0x88B5 (fun packet => packet.length) ⟨vmMac 20, 101⟩
        ⟨Address.BROADCAST, 0xFFFF⟩ [104, 105]).2 = some wire ∧
      receive (vmMac 30) 0x88B5 (fun _ => 0) wire = some {
        src := ⟨vmMac 20, 101⟩, dst := ⟨Address.BROADCAST, 0xFFFF⟩, origin := .ethernet,
        payload := [104, 105], length := 2, proto := 0x88B5 } := by
  obtain ⟨-, wire, hsent, horigin, hreceived⟩ := transport_faithful aNic 0x88B5
    (fun packet => packet.length) ⟨vmMac 20, 101⟩ ⟨Address.BROADCAST, 0xFFFF⟩ [104, 105]
    (by decide) (by decide +kernel)
  have heth : wire.origin = .ethernet := horigin.trans (if_neg (vmMac_ne_broadcast 20).symm)
  refine ⟨wire, hsent, ?_⟩
  rw [hreceived (vmMac 30) (fun _ => 0) (fun _ => by decide), heth]
  rfl

/-! ## Size limits -/

section Limits

variable {nic : Nic} {etherType : UInt16} {sendto : Bytes → ℤ} {src dst : Endpoint}
  {payload : Bytes}

/-- The frame header has 18 bytes, the protocol header 6. -/
theorem protocolSend_own (hdst : dst.mac = nic.mac) (hsize : payload.length ≤ MTU) :
    (protocolSend nic etherType sendto src dst payload).1 =
      if payload.length + 24 ≤ PAYLOAD then 0 else -2 := by
  rw [protocolSend, dif_neg (by omega), nicSend, if_pos hdst, shmSend_eq]
  simp only [length_serializeFrame, length_packetBytes]
  split <;> rfl

/-- The Ethernet takes every frame, if the kernel takes packets of its maximal size. -/
theorem protocolSend_foreign (hdst : dst.mac ≠ nic.mac) (hengine : nic.ethernetEngine = true)
    (hkernel : ∀ packet : Bytes, packet.length ≤ ETH_FRAME_LEN → 0 ≤ sendto packet)
    (hsize : payload.length ≤ MTU) : 0 ≤ (protocolSend nic etherType sendto src dst payload).1 := by
  have hsent := hkernel (addressBytes dst.mac ++ (addressBytes nic.mac ++
    ((wordBytes 2 etherType.toNat).reverse ++ packetBytes src dst payload))) (by
      rw [MTU] at hsize
      simp [addressBytes, ETH_FRAME_LEN]
      omega)
  rw [protocolSend, dif_neg (by omega)]
  simp only [nicSend, if_neg hdst, if_pos hengine, ethernetSend, addressToBytes_eq,
    Option.getD_some]
  rw [if_neg (by omega)]
  dsimp only
  split <;> omega

variable (nic etherType src dst payload) in
/-- A payload is not refused for its size: it fits into a frame with its header, the
shared-memory engine does not report its limit, and the Ethernet engine succeeds whenever
the kernel takes packets of the maximal size. -/
structure HonoursMtu : Prop where
  frame : (packetBytes src dst payload).length ≤ MAX_DATA
  sharedMemory : dst.mac = nic.mac →
    ∀ sendto, (protocolSend nic etherType sendto src dst payload).1 ≠ -2
  ethernet : dst.mac ≠ nic.mac → nic.ethernetEngine = true → ∀ sendto : Bytes → ℤ,
    (∀ packet : Bytes, packet.length ≤ ETH_FRAME_LEN → 0 ≤ sendto packet) →
      0 ≤ (protocolSend nic etherType sendto src dst payload).1

/-- The shared memory honours the protocol's limit only for payloads that leave room for
both headers; the Ethernet always does. -/
theorem honoursMtu_iff (hsize : payload.length ≤ MTU) :
    HonoursMtu nic etherType src dst payload ↔
      (dst.mac = nic.mac → payload.length + 24 ≤ PAYLOAD) := by
  constructor
  · intro h hdst
    by_contra hlong
    exact h.sharedMemory hdst (fun _ => 0) (by rw [protocolSend_own hdst hsize, if_neg hlong])
  · intro h
    refine ⟨?_, fun hdst sendto => ?_, fun hdst hengine sendto hkernel =>
      protocolSend_foreign hdst hengine hkernel hsize⟩
    · rw [length_packetBytes, MAX_DATA]
      rw [MTU] at hsize
      omega
    · rw [protocolSend_own hdst hsize, if_pos (h hdst)]
      norm_num

end Limits

/-- A payload of the largest size for the shared memory goes to the own address. -/
theorem largest_own_payload :
    HonoursMtu aNic 0x88B5 ⟨vmMac 20, 101⟩ ⟨vmMac 20, 0xFFFF⟩ (List.replicate 1476 97) :=
  (honoursMtu_iff (by decide +kernel)).mpr fun _ => by decide +kernel

/-- One byte more is within the protocol's limit and refused. -/
theorem one_byte_more_refused :
    (List.replicate 1477 (97 : UInt8)).length ≤ MTU ∧
      (protocolSend aNic 0x88B5 (fun packet => packet.length) ⟨vmMac 20, 101⟩ ⟨vmMac 20, 0xFFFF⟩
        (List.replicate 1477 97)).1 = -2 := by
  have hsize : (List.replicate 1477 (97 : UInt8)).length ≤ MTU := by decide +kernel
  refine ⟨hsize, ?_⟩
  rw [protocolSend_own rfl hsize]
  decide +kernel

end CarNetwork.Transport
