import CarNetwork.Delivery
import CarNetwork.Transport

/-!
# Message sizes along a data message's way

A component's message is written three times: by the component for the shared
memory of its car, by the gateway for the Ethernet, and by each gateway that hears
it for the shared memory of the other cars. Every writer puts in its own id, port
and time, and every reader trims the body, so the length changes on the way; and the
shared memory takes 18 bytes less than the Ethernet.
-/
namespace CarNetwork.Sizes

open CarNetwork.ByteText CarNetwork.DecimalText CarNetwork.Conversions CarNetwork.Ethernet
open CarNetwork.Protocol CarNetwork.Car CarNetwork.SharedBus CarNetwork.Transport
open CarNetwork.WordBytes

/-- The longest message the shared memory takes: the frame header has 18 bytes, the
protocol header 6. -/
def SHM_LIMIT : ℕ := 1476

/-- `Protocol::send` reports success for this message. -/
def accepted (etherType : UInt16) (sendto : Bytes → ℤ) (nic : Nic) (src dst : Endpoint)
    (msg : Message) : Bool :=
  decide (0 ≤ (protocolSend nic etherType sendto src dst (buildMessage msg)).1)

/-- What the observer of the destination port hands to the owner of the node at `mac`. -/
def arrival (etherType : UInt16) (sendto : Bytes → ℤ) (nic : Nic) (src dst : Endpoint)
    (msg : Message) (mac : Address) (beyond : ℕ → UInt8) : Option Rx := do
  let wire ← (protocolSend nic etherType sendto src dst (buildMessage msg)).2
  let c ← receive mac etherType beyond wire
  (rxOfPacket ⟨wire.origin, dst.port⟩ c.toAsyncCapsule).toOption.join

/-- Components have the shared-memory engine only. -/
def componentNic (p : Instance) : Nic := ⟨p.address, false⟩

def gatewayNic (p : Instance) : Nic := ⟨p.address, true⟩

section Limits

variable {etherType : UInt16} {sendto : Bytes → ℤ} {nic : Nic} {src dst : Endpoint} {msg : Message}

theorem accepted_shm_iff (hdst : dst.mac = nic.mac) :
    accepted etherType sendto nic src dst msg = true ↔ (buildMessage msg).length ≤ SHM_LIMIT := by
  rw [accepted, decide_eq_true_iff]
  by_cases hsize : (buildMessage msg).length ≤ MTU
  · rw [protocolSend_own hdst hsize, SHM_LIMIT, PAYLOAD]
    split <;> omega
  · have hrefused : (protocolSend nic etherType sendto src dst (buildMessage msg)).1 = -1 := by
      rw [protocolSend, dif_pos (by omega)]
    rw [hrefused, SHM_LIMIT]
    rw [MTU] at hsize
    omega

theorem accepted_ethernet (hkernel : ∀ packet : Bytes, packet.length ≤ ETH_FRAME_LEN →
      0 ≤ sendto packet)
    (hdst : dst.mac ≠ nic.mac) (hnic : nic.ethernetEngine = true)
    (hlen : (buildMessage msg).length ≤ MTU) :
    accepted etherType sendto nic src dst msg = true :=
  decide_eq_true (protocolSend_foreign hdst hnic hkernel hlen)

/-- An accepted message arrives with its body trimmed. -/
theorem arrival_eq {mac : Address} {beyond : ℕ → UInt8}
    (hok : accepted etherType sendto nic src dst msg = true)
    (hmac : dst.mac ≠ nic.mac → mac ≠ nic.mac) :
    arrival etherType sendto nic src dst msg mac beyond = some ⟨{ msg with body := trim msg.body },
      ⟨nic.mac, src.port⟩, dst, if dst.mac = nic.mac then .sharedMemory else .ethernet⟩ := by
  obtain ⟨wire, hwire, horigin, hreceived⟩ :=
    protocolSend_ok (buildMessage_ne_nil msg) (of_decide_eq_true hok)
  have hforeign : wire.origin = .ethernet → mac ≠ nic.mac := by
    intro heth
    apply hmac
    intro hown
    rw [horigin, if_pos hown] at heth
    cases heth
  simp only [arrival, hwire, hreceived mac beyond hforeign, Option.bind_eq_bind, Option.bind_some,
    rxOfPacket, ne_eq, not_true_eq_false, if_false, parse_build, ← horigin]
  rfl

end Limits

/-! ## One message through the fleet -/

/-- A component and the gateway of its car, in the same group. -/
structure SendingCar where
  component : Instance
  gateway : Instance
  vmId : ℤ
  sameCar : component.address = gateway.address
  individual : gateway.address ≠ Address.BROADCAST
  sameGroup : component.currentGroupId = gateway.currentGroupId

/-- The gateway of another car of that group. -/
structure HearingCar (car : SendingCar) where
  gateway : Instance
  vmId : ℤ
  peerPorts : List UInt16
  other : gateway.address ≠ car.gateway.address
  sameGroup : gateway.currentGroupId = car.gateway.currentGroupId

/-- Clock readings with sixteen decimal digits. -/
def Time := { t : UInt64 // 10 ^ 15 ≤ t.toNat ∧ t.toNat < 10 ^ 16 }

/-- What stays the same on the way of one message. -/
structure Network where
  etherType : UInt16
  sendto : Bytes → ℤ
  beyond : ℕ → UInt8
  /-- The kernel takes every packet that fits into an Ethernet frame. -/
  kernel : ∀ packet : Bytes, packet.length ≤ ETH_FRAME_LEN → 0 ≤ sendto packet

namespace SendingCar

variable (net : Network) (car : SendingCar)

/-- The message a component builds for its gateway. -/
def message (port : UInt16) (type : Int32) (body : Bytes) (id : UInt64) (time : Time) : Message :=
  commMessage car.component ⟨car.component.address, port⟩ type body id time.1

/-- The component's own send. -/
def sends (port : UInt16) (msg : Message) : Bool :=
  accepted net.etherType net.sendto (componentNic car.component) ⟨car.component.address, port⟩
    ⟨car.component.address, GATEWAY_PORT⟩ msg

def gatewayHears (port : UInt16) (msg : Message) : Option Rx :=
  arrival net.etherType net.sendto (componentNic car.component) ⟨car.component.address, port⟩
    ⟨car.component.address, GATEWAY_PORT⟩ msg car.gateway.address net.beyond

/-- The send of `forward_message`. -/
def forwards (rx : Rx) (time : Time) : Bool :=
  accepted net.etherType net.sendto (gatewayNic car.gateway) ⟨car.gateway.address, GATEWAY_PORT⟩
    ⟨Address.BROADCAST, GATEWAY_PORT⟩ (relayed car.gateway GATEWAY_PORT car.vmId rx.msg time.1)

end SendingCar

namespace HearingCar

variable (net : Network) {car : SendingCar} (other : HearingCar car)

def hears (rx : Rx) (time : Time) : Option Rx :=
  arrival net.etherType net.sendto (gatewayNic car.gateway) ⟨car.gateway.address, GATEWAY_PORT⟩
    ⟨Address.BROADCAST, GATEWAY_PORT⟩ (relayed car.gateway GATEWAY_PORT car.vmId rx.msg time.1)
    other.gateway.address net.beyond

/-- All sends of `fanout_message`. -/
def fansOut (rx : Rx) (now : ℕ → Time) : Bool :=
  other.peerPorts.zipIdx.all fun (peer, i) =>
    accepted net.etherType net.sendto (gatewayNic other.gateway)
      ⟨other.gateway.address, GATEWAY_PORT⟩ ⟨other.gateway.address, peer⟩
      (relayed other.gateway GATEWAY_PORT other.vmId rx.msg (now i).1)

/-- The message of a component still fits into the shared memory with this car's id and
the gateway's port, of five digits, in place of the component's, and the body trimmed. -/
def Fits (msg : Message) : Prop :=
  (buildMessage msg).length + 5 + (decimal (UInt8.ofInt other.vmId).toNat).length +
    (trim msg.body).length ≤
    SHM_LIMIT + (decimal msg.origPort.toNat).length + (decimal msg.origVm.toNat).length +
      msg.body.length

end HearingCar

theorem length_decimal_time (t : Time) : (decimal t.1.toNat).length = 16 := by
  have hlow := t.2.1
  have hle := length_decimal_le (k := 16) (by norm_num) t.2.2
  have hgt : ¬ (decimal t.1.toNat).length ≤ 15 := by
    unfold decimal
    rw [if_neg (by omega), List.length_reverse, List.length_map,
      Nat.digits_length_le_iff (by norm_num)]
    omega
  omega

theorem length_gatewayPort : (decimal GATEWAY_PORT.toNat).length = 5 := by decide +kernel

/-- What a gateway passes on of a message it has heard. -/
def passedOn (p : Instance) (vmId : ℤ) (msg : Message) (time : Time) : Message :=
  relayed p GATEWAY_PORT vmId { msg with body := trim msg.body } time.1

theorem length_passedOn (p : Instance) (vmId : ℤ) (msg : Message) (time time' : Time)
    (hgroup : msg.groupId = UInt8.ofInt p.currentGroupId) (htime : msg.timestamp = time'.1) :
    (buildMessage (passedOn p vmId msg time)).length + (decimal msg.origVm.toNat).length +
      (decimal msg.origPort.toNat).length + msg.body.length =
    (buildMessage msg).length + (decimal (UInt8.ofInt vmId).toNat).length + 5 +
      (trim msg.body).length := by
  have h1 := length_decimal_time time
  have h2 := length_decimal_time time'
  rw [length_buildMessage, length_buildMessage msg, hgroup, htime]
  simp only [passedOn, relayed, length_gatewayPort]
  omega

section Way

variable (net : Network) (car : SendingCar) {port : UInt16}

theorem gatewayHears_eq {msg : Message} (hfirst : car.sends net port msg = true) :
    car.gatewayHears net port msg = some ⟨{ msg with body := trim msg.body },
      ⟨car.component.address, port⟩, ⟨car.component.address, GATEWAY_PORT⟩, .sharedMemory⟩ := by
  rw [SendingCar.gatewayHears, arrival_eq hfirst (fun h => absurd rfl h)]
  simp [componentNic]

/-- The first hop's limit leaves enough room for the Ethernet. -/
theorem forwards_of_sends {type : Int32} {body : Bytes} {id : UInt64} {time time' : Time}
    {src dst : Endpoint} {origin : ChannelOrigin}
    (hfirst : car.sends net port (car.message port type body id time) = true) :
    car.forwards net
      ⟨{ car.message port type body id time with body := trim body }, src, dst, origin⟩
      time' = true := by
  have hlimit := (accepted_shm_iff rfl).mp hfirst
  have hlen := length_passedOn car.gateway car.vmId (car.message port type body id time) time' time
    (congrArg UInt8.ofInt car.sameGroup) rfl
  have hid := length_decimal_le (k := 3) (by norm_num)
    (lt_trans (UInt8.toNat_lt (UInt8.ofInt car.vmId)) (by norm_num))
  have htrim := length_trim_le (car.message port type body id time).body
  have hsize : (buildMessage (passedOn car.gateway car.vmId (car.message port type body id time)
      time')).length ≤
      MTU := by
    rw [SHM_LIMIT] at hlimit
    rw [MTU]
    omega
  exact accepted_ethernet net.kernel car.individual.symm rfl hsize

theorem hears_eq (other : HearingCar car) {rx : Rx} {time : Time}
    (hforward : car.forwards net rx time = true) :
    other.hears net rx time = some
      ⟨{ relayed car.gateway GATEWAY_PORT car.vmId rx.msg time.1 with body := trim rx.msg.body },
        ⟨car.gateway.address, GATEWAY_PORT⟩, ⟨Address.BROADCAST, GATEWAY_PORT⟩, .ethernet⟩ := by
  rw [HearingCar.hears, arrival_eq hforward (fun _ => other.other)]
  simp [gatewayNic, car.individual.symm, relayed]

/-- The second rewriting replaces what the first one put in. -/
theorem length_fanned (other : HearingCar car) {msg : Message} {time time' time'' : Time}
    (hgroup : msg.groupId = UInt8.ofInt car.gateway.currentGroupId)
    (htime : msg.timestamp = time.1) :
    (buildMessage (passedOn other.gateway other.vmId (passedOn car.gateway car.vmId msg time')
      time'')).length ≤
      SHM_LIMIT ↔ other.Fits msg := by
  have hfirst := length_passedOn car.gateway car.vmId msg time' time hgroup htime
  have hsecond := length_passedOn other.gateway other.vmId
    (passedOn car.gateway car.vmId msg time') time'' time'
    (congrArg UInt8.ofInt other.sameGroup.symm) rfl
  have hvm : (passedOn car.gateway car.vmId msg time').origVm = UInt8.ofInt car.vmId := rfl
  have hport : (passedOn car.gateway car.vmId msg time').origPort = GATEWAY_PORT := rfl
  have hbody : (passedOn car.gateway car.vmId msg time').body = trim msg.body := rfl
  rw [hvm, hport, hbody, trim_trim, length_gatewayPort] at hsecond
  rw [HearingCar.Fits]
  constructor
  · intro h
    omega
  · intro h
    omega

theorem fansOut_iff (other : HearingCar car) {msg : Message} {time time' : Time} {now : ℕ → Time}
    {src dst : Endpoint} {origin : ChannelOrigin}
    (hgroup : msg.groupId = UInt8.ofInt car.gateway.currentGroupId)
    (htime : msg.timestamp = time.1) :
    let forwarded := passedOn car.gateway car.vmId msg time'
    other.fansOut net ⟨{ forwarded with body := trim forwarded.body }, src, dst,
      origin⟩ now = true ↔
      (other.peerPorts ≠ [] → other.Fits msg) := by
  intro forwarded
  have hone : ∀ i peer, accepted net.etherType net.sendto (gatewayNic other.gateway)
      ⟨other.gateway.address, GATEWAY_PORT⟩ ⟨other.gateway.address, peer⟩
      (passedOn other.gateway other.vmId forwarded (now i)) = true ↔ other.Fits msg := by
    intro i peer
    rw [accepted_shm_iff rfl]
    exact length_fanned car other hgroup htime
  rw [HearingCar.fansOut, List.all_eq_true]
  constructor
  · intro h hne
    obtain ⟨peer, rest, hports⟩ := List.exists_cons_of_ne_nil hne
    exact (hone 0 peer).mp (h (peer, 0) (by simp [hports]))
  · intro h entry hentry
    apply (hone entry.2 entry.1).mpr
    apply h
    rintro hnil
    simp [hnil] at hentry

/-- After a component's send to its gateway has been accepted, the broadcast of the
gateway is accepted, and so is every send of the other cars' gateways exactly where
the rewritten message is still within the limit of the shared memory. -/
theorem later_sends_fit_iff (others : List (HearingCar car)) (port : UInt16)
    (type : Int32) (body : Bytes) (id : UInt64) (time time' : Time)
    (now : HearingCar car → ℕ → Time)
    (hfirst : car.sends net port (car.message port type body id time) = true) :
    (∃ rx, car.gatewayHears net port (car.message port type body id time) = some rx ∧
      car.forwards net rx time' = true ∧
      ∀ other ∈ others, ∃ rx', other.hears net rx time' = some rx' ∧
        other.fansOut net rx' (now other) = true) ↔
    ∀ other ∈ others, other.peerPorts ≠ [] → other.Fits (car.message port type body id time) := by
  have hforward : car.forwards net ⟨{ car.message port type body id time with body := trim body },
      ⟨car.component.address, port⟩, ⟨car.component.address, GATEWAY_PORT⟩,
      .sharedMemory⟩ time' = true :=
    forwards_of_sends net car hfirst
  have hgroup := congrArg UInt8.ofInt car.sameGroup
  constructor
  · rintro ⟨rx, hrx, -, hothers⟩ other hother
    obtain ⟨rx', hrx', hfan⟩ := hothers other hother
    obtain rfl := Option.some.inj ((gatewayHears_eq net car hfirst).symm.trans hrx)
    obtain rfl := Option.some.inj ((hears_eq net car other hforward).symm.trans hrx')
    exact (fansOut_iff net car other hgroup rfl).mp hfan
  · intro hfits
    refine ⟨_, gatewayHears_eq net car hfirst, hforward, fun other hother => ?_⟩
    exact ⟨_, hears_eq net car other hforward,
      (fansOut_iff net car other hgroup rfl).mpr (hfits other hother)⟩

end Way

section Sample

open CarNetwork.Fleet.Deployment (vmMac vmMac_ne_broadcast)

def aNetwork : Network where
  etherType := 0x88B5
  sendto packet := packet.length
  beyond _ := 0
  kernel packet _ := Int.natCast_nonneg packet.length

/-- The car with id 20, in group 2. -/
def aCar : SendingCar where
  component := { address := vmMac 20, currentGroupId := 2 }
  gateway := { address := vmMac 20, currentGroupId := 2 }
  vmId := 20
  sameCar := rfl
  individual := vmMac_ne_broadcast 20
  sameGroup := rfl

/-- The car with id 21 in the same group. -/
def anotherCar : HearingCar aCar where
  gateway := { address := vmMac 21, currentGroupId := 2 }
  vmId := 21
  peerPorts := componentPorts
  other h := absurd (congrArg Address.lastOctet h) (by decide)
  sameGroup := rfl

def aTime : Time := ⟨1700000000000000, by decide +kernel, by decide +kernel⟩

/-- A message of the brake with the given number of letters. -/
def letters (n : ℕ) : Message := aCar.message BRAKE_PORT 102 (List.replicate n 97) 1 aTime

/-- Six letters get through everywhere. -/
theorem short_message_fits :
    ∃ rx, aCar.gatewayHears aNetwork BRAKE_PORT (letters 6) = some rx ∧
      aCar.forwards aNetwork rx aTime = true ∧
      ∀ other ∈ [anotherCar], ∃ rx', other.hears aNetwork rx aTime = some rx' ∧
        other.fansOut aNetwork rx' (fun _ => aTime) = true :=
  (later_sends_fit_iff aNetwork aCar [anotherCar] BRAKE_PORT 102 (List.replicate 6 97) 1 aTime aTime
    (fun _ _ => aTime) (by decide +kernel)).mpr (by
      intro other hother _
      obtain rfl := List.mem_singleton.mp hother
      rw [HearingCar.Fits]
      decide +kernel)

/-- The longest message the brake can send is two bytes too long for the other cars: the
gateway's port has two digits more than the brake's. -/
theorem longest_message_refused :
    aCar.sends aNetwork BRAKE_PORT (letters 1399) = true ∧
    ((aCar.gatewayHears aNetwork BRAKE_PORT (letters 1399)).bind fun rx =>
      (anotherCar.hears aNetwork rx aTime).map fun rx' =>
        anotherCar.fansOut aNetwork rx' fun _ => aTime) = some false := by
  decide +kernel

end Sample

end CarNetwork.Sizes
