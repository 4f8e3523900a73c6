import CarNetwork.RelayOnce

/-!
# What is received is what was sent

The frames of the data traffic carry messages of components: a gateway only copies them,
at most once to the Ethernet and once more to the shared memory of another machine. On
the way the body loses the white space around it and nothing else.
-/
namespace CarNetwork.RelayOnce

open CarNetwork.ByteText CarNetwork.Conversions CarNetwork.Ethernet CarNetwork.Protocol
open CarNetwork.Car CarNetwork.Fleet CarNetwork.Sizes CarNetwork.Relay CarNetwork.Provenance
open CarNetwork.Runs

variable {V : Type}

/-- The two messages are the same for the application. -/
structure SameContent (m₀ m : Message) : Prop where
  type : m.type = m₀.type
  msgId : m.msgId = m₀.msgId
  body : trim m.body = trim m₀.body

/-- The frame with number `k` is the one with number `r`, or was made from it by `n` gateways
in turn. -/
inductive Copy (t : Trace (Node V) AsyncCapsule Reception) (r : ℕ) : ℕ → ℕ → Prop
  | self : Copy t r r 0
  | relay {j k n : ℕ} {y : Item (Node V) AsyncCapsule} {v : V} : Copy t r j n →
      t.items[k]? = some y →
      y.cause = some j → y.maker = .gateway v → Copy t r k (n + 1)

/-- How far a frame is from the component of machine `v` that sent it. -/
inductive Stage (v : V) (y : Item (Node V) AsyncCapsule) : ℕ → Prop
  | sent (port : UInt16) : y.maker = .component v port → Stage v y 0
  | forwarded : y.maker = .gateway v → y.data.origin = .ethernet → Stage v y 1
  | fannedOut (w : V) : w ≠ v → y.maker = .gateway w → y.data.origin = .sharedMemory → Stage v y 2

/-- A frame with message `m` comes from the frame of a component. -/
def Traced (t : Trace (Node V) AsyncCapsule Reception) (k : ℕ) (y : Item (Node V) AsyncCapsule)
    (m : Message) : Prop :=
  ∃ r x v port m₀ n, t.items[r]? = some x ∧ x.maker = .component v port ∧
    x.data.payload = buildMessage m₀ ∧ SameContent m₀ m ∧ Copy t r k n ∧ Stage v y n

/-- What a process was told is the message of the frame it was handed. -/
def Heard (t : Trace (Node V) AsyncCapsule Reception) (i : ℕ) (rx : Rx) : Prop :=
  ∃ y m, t.items[i]? = some y ∧ y.data.payload = buildMessage m ∧
    rx.msg = { m with body := trim m.body }

section Grow

variable {t t' : Trace (Node V) AsyncCapsule Reception} {r k n : ℕ}

/-- A trace that has grown. -/
def Extends (t t' : Trace (Node V) AsyncCapsule Reception) : Prop :=
  ∀ (i : ℕ) x, t.items[i]? = some x → t'.items[i]? = some x

theorem extends_append {more : List (Item (Node V) AsyncCapsule)} (h : t'.items = t.items ++ more) :
    Extends t t' := by
  intro i x hx
  rw [h]
  exact Trace.getElem?_append_of_some hx

theorem Copy.mono (hext : Extends t t') (h : Copy t r k n) : Copy t' r k n := by
  induction h with
  | self => exact .self
  | relay _ hy hcause hmaker ih => exact .relay ih (hext _ _ hy) hcause hmaker

theorem Traced.mono {y : Item (Node V) AsyncCapsule} {m : Message} (hext : Extends t t')
    (h : Traced t k y m) : Traced t' k y m := by
  obtain ⟨r, x, v, port, m₀, n, hx, hmaker, hp, hsame, hcopy, hstage⟩ := h
  exact ⟨r, x, v, port, m₀, n, hext _ _ hx, hmaker, hp, hsame, hcopy.mono hext, hstage⟩

theorem Heard.mono {rx : Rx} (hext : Extends t t') (h : Heard t k rx) : Heard t' k rx := by
  obtain ⟨y, m, hy, hp, hrx⟩ := h
  exact ⟨y, m, hext _ _ hy, hp, hrx⟩

/-- A frame of a component is where its copies come from. -/
theorem traced_self {y : Item (Node V) AsyncCapsule} {v : V} {port : UInt16} {m : Message}
    (hy : t.items[k]? = some y) (hmaker : y.maker = .component v port)
    (hp : y.data.payload = buildMessage m) : Traced t k y m :=
  ⟨k, y, v, port, m, 0, hy, hmaker, hp, ⟨rfl, rfl, rfl⟩, .self, .sent port hmaker⟩

end Grow

variable [DecidableEq V] {d : Deployment V} {group : UInt8}

theorem buildMessage_injective {m m' : Message} (h : buildMessage m = buildMessage m') :
    m = m' := by
  have := parse_build m
  rw [h, parse_build] at this
  exact (Except.ok.inj this).symm

/-- The interface of a gateway has an Ethernet engine, that of a component has not. -/
def ethernetEngine : Node V → Bool
  | .gateway _ => true
  | .component _ _ => false

variable (d) in
/-- The frame is on the channel that its destination asks for, and within its limit. -/
structure OnChannel (x : Item (Node V) AsyncCapsule) : Prop where
  origin : x.data.origin = if x.data.dst.mac = d.mac x.maker.vm then .sharedMemory else .ethernet
  engine : x.data.origin = .ethernet → ethernetEngine x.maker = true
  fits : fits x.data = true

variable (d group) in
structure ContentInv (s : State V) : Prop where
  gateways : ∀ v, GatewayReady d group v (s.gateway v)
  components : ∀ v port, ComponentReady d group v port (s.component v port)
  frames : ∀ x ∈ s.trace.items, FrameOk d group x
  channels : ∀ x ∈ s.trace.items, OnChannel d x
  traced : ∀ k y m, s.trace.items[k]? = some y → y.data.payload = buildMessage m →
    Traced s.trace k y m
  heard : ∀ e ∈ s.trace.log, ∀ rx ∈ e.result.rx, Heard s.trace e.item rx
  logged : ∀ e ∈ s.trace.log, e.item < s.trace.items.length

/-! ## One handling -/

section Handlings

variable {s : State V} {i k : ℕ} {x : Item (Node V) AsyncCapsule} {v : V}

/-- What a gateway is handed on the shared memory, a component of its machine has sent. -/
theorem Stage.of_shm {n : ℕ} {u : V} (hstage : Stage u x n) (ho : x.data.origin = .sharedMemory)
    (hreach : reaches d x (.gateway v) = true) : n = 0 ∧ u = v := by
  obtain ⟨hmem, hne⟩ := of_reaches_shm ho hreach
  have hvm : v = x.maker.vm := vm_of_mem_processes hmem
  cases hstage with
  | sent port hmaker => exact ⟨rfl, by rw [hvm, hmaker]; rfl⟩
  | forwarded hmaker heth => cases ho.symm.trans heth
  | fannedOut w _ hmaker _ =>
    rw [hmaker] at hvm hne
    exact absurd (congrArg Node.gateway hvm) hne

/-- What it takes off the Ethernet, the gateway of the sender's machine has forwarded. -/
theorem Stage.of_ethernet {n : ℕ} {u : V} (hstage : Stage u x n) (hx : FrameOk d group x)
    (ho : x.data.origin = .ethernet) : n = 1 ∧ x.maker = .gateway u := by
  cases hstage with
  | sent port hmaker =>
    obtain ⟨w, hw⟩ := hx.ethernet ho
    cases hmaker.symm.trans hw
  | forwarded hmaker _ => exact ⟨rfl, hmaker⟩
  | fannedOut w _ _ hshm => cases ho.symm.trans hshm

/-- A copy that a gateway makes is one stage further. -/
theorem traced_relay {t : Trace (Node V) AsyncCapsule Reception} {y : Item (Node V) AsyncCapsule}
    {m m' : Message} (hx : Traced t i x m) (hframe : FrameOk d group x)
    (hreach : reaches d x (.gateway v) = true)
    (hforeign : x.data.origin = .ethernet → x.maker ≠ .gateway v) (hy : t.items[k]? = some y)
    (hcause : y.cause = some i) (hmaker : y.maker = .gateway v)
    (horigin : x.data.origin = .sharedMemory ∧ y.data.origin = .ethernet ∨
      x.data.origin = .ethernet ∧ y.data.origin = .sharedMemory)
    (hsame : SameContent m m') : Traced t k y m' := by
  obtain ⟨r, x₀, u, port, m₀, n, hx₀, hmaker₀, hp₀, hsame₀, hcopy, hstage⟩ := hx
  have hsame' : SameContent m₀ m' :=
    ⟨hsame.type.trans hsame₀.type, hsame.msgId.trans hsame₀.msgId, hsame.body.trans hsame₀.body⟩
  refine ⟨r, x₀, u, port, m₀, n + 1, hx₀, hmaker₀, hp₀, hsame', .relay hcopy hy hcause hmaker, ?_⟩
  rcases horigin with ⟨ho, ho'⟩ | ⟨ho, ho'⟩
  · obtain ⟨rfl, rfl⟩ := hstage.of_shm ho hreach
    exact .forwarded hmaker ho'
  · obtain ⟨rfl, hgateway⟩ := hstage.of_ethernet hframe ho
    refine .fannedOut v (fun hvu => ?_) hmaker ho'
    exact hforeign ho (hvu ▸ hgateway)

end Handlings

/-! ## Steps -/

section Steps

variable {s s' : State V} {a : Action V} {i : ℕ} {x : Item (Node V) AsyncCapsule}

/-- Frames are added at the end. -/
theorem ContentInv.traced_append (h : ContentInv d group s) {n : Node V} {cause : Option ℕ}
    {out : List AsyncCapsule} {t : Trace (Node V) AsyncCapsule Reception}
    (ht : t.items = s.trace.items ++ out.map (⟨n, cause, ·⟩))
    (hout : ∀ k f m, f ∈ out → t.items[k]? = some ⟨n, cause, f⟩ → f.payload = buildMessage m →
      Traced t k ⟨n, cause, f⟩ m) :
    ∀ k y m, t.items[k]? = some y → y.data.payload = buildMessage m → Traced t k y m := by
  intro k y m hy hp
  have hy' := hy
  rw [ht, List.getElem?_append] at hy'
  split at hy'
  · exact (h.traced k y m hy' hp).mono (extends_append ht)
  · obtain ⟨f, hf, rfl⟩ := List.mem_map.mp (List.mem_of_getElem? hy')
    exact hout k f m hf hy hp

/-- What a component sends stays within its machine. -/
theorem onChannel_component {v : V} {port : UInt16} {effects : List Effect} {cause : Option ℕ}
    {f : AsyncCapsule} (hf : f ∈ emitted false (d.mac v) effects) :
    OnChannel d ⟨.component v port, cause, f⟩ := by
  obtain ⟨horigin, hfits, hengine⟩ := channel_of_mem_emitted hf
  refine ⟨horigin, hengine, hfits ?_⟩
  cases ho : f.origin with
  | sharedMemory => rfl
  | ethernet => cases hengine ho

theorem onChannel_gateway {v : V} {effects : List Effect} {cause : Option ℕ} {f : AsyncCapsule}
    (hf : f ∈ emitted true (d.mac v) effects) (hfits : fits f = true) :
    OnChannel d ⟨.gateway v, cause, f⟩ :=
  ⟨(channel_of_mem_emitted hf).1, fun _ => rfl, hfits⟩

/-- What was heard before stays true, and what is heard now is the message of the frame. -/
theorem ContentInv.heard_handle (h : ContentInv d group s) {n : Node V} {r : Reception}
    {out : List AsyncCapsule} {m : Message} (hx : s.trace.items[i]? = some x)
    (hp : x.data.payload = buildMessage m) (hrx : ∀ rx ∈ r.rx, rx = rxOfMessage m x.data) :
    ∀ e ∈ (s.trace.handle i n r out).log, ∀ rx ∈ e.result.rx, Heard
      (s.trace.handle i n r out) e.item rx := by
  have hext : Extends s.trace (s.trace.handle i n r out) := extends_append rfl
  intro e he rx hmem
  rcases List.mem_append.mp he with he | he
  · exact (h.heard e he rx hmem).mono hext
  · obtain rfl := List.mem_singleton.mp he
    exact ⟨x, m, hext i x hx, hp, by rw [hrx rx hmem]; rfl⟩

theorem ContentInv.logged_handle (h : ContentInv d group s) {n : Node V} {r : Reception}
    {out : List AsyncCapsule} (hx : s.trace.items[i]? = some x) :
    ∀ e ∈ (s.trace.handle i n r out).log, e.item < (s.trace.handle i n r out).items.length := by
  intro e he
  rw [Trace.handle, List.length_append]
  rcases List.mem_append.mp he with he | he
  · exact lt_of_lt_of_le (h.logged e he) (Nat.le_add_right _ _)
  · obtain rfl := List.mem_singleton.mp he
    exact lt_of_lt_of_le (List.getElem?_eq_some_iff.mp hx).1 (Nat.le_add_right _ _)

/-- What a gateway relays is the message it heard. -/
theorem sameContent_attempt {cfg : Config} {g : Gateway} {c f : AsyncCapsule} {m m' : Message}
    {now : ℕ → UInt64} (hf : f ∈ attempts cfg g (rxOfMessage m c) now)
    (hp : f.payload = buildMessage m') :
    SameContent m m' := by
  obtain ⟨⟨time, hpayload⟩, -⟩ := mem_attempts hf
  obtain rfl := buildMessage_injective (hp.symm.trans hpayload)
  exact ⟨rfl, rfl, trim_trim m.body⟩

theorem ContentInv.arriveGateway (h : ContentInv d group s) {v : V} {env : Env} {msgId : UInt64}
    (hx : s.trace.items[i]? = some x) (hreach : reaches d x (.gateway v) = true) :
    ContentInv d group (arrive d s i x env msgId (.gateway v)) := by
  have hframe := h.frames x (List.mem_of_getElem? hx)
  have hg := h.gateways v
  obtain ⟨hh, haddress, hgroup, hobs, -⟩ := id hg
  obtain ⟨m, hp, hm, hmgroup⟩ := hframe.data
  have hbroadcast : (s.gateway v).proto.address ≠ Address.BROADCAST := haddress ▸ d.individual v
  obtain ⟨effects, heq, hout⟩ := gatewayReceive_data env (d.config v) hh hobs hbroadcast hp hm
  have hrx : ∀ rx ∈ rxs effects, rx = rxOfMessage m x.data := by
    split at hout <;> rw [(Prod.mk.inj hout).1] <;> simp
  have hsent : ∀ f ∈ emitted true (s.gateway v).proto.address effects,
      f ∈ attempts (d.config v) (s.gateway v) (rxOfMessage m x.data) env.now ∧
        fits f = true ∧ (x.data.origin = .ethernet → x.maker ≠ .gateway v) := by
    intro f hf
    split at hout
    · rw [(Prod.mk.inj hout).2] at hf
      cases hf
    · rename_i hheard
      rw [(Prod.mk.inj hout).2] at hf
      obtain ⟨hmem, hfits⟩ := List.mem_filter.mp hf
      refine ⟨hmem, hfits, fun ho hmaker => hheard (Or.inl ⟨ho, ?_⟩)⟩
      rw [haddress]
      exact (hframe.own_iff ho).mpr hmaker
  simp only [arrive, heq]
  refine ⟨gatewayReady_update h.gateways hg, h.components,
    forall_items_append h.frames fun f hf => frameOk_attempt hg hm (hsent f hf).1,
    forall_items_append h.channels fun f hf => onChannel_gateway (haddress ▸ hf) (hsent f hf).2.1,
    h.traced_append rfl fun k f m' hf hk hp' => ?_, h.heard_handle hx hp hrx, h.logged_handle hx⟩
  obtain ⟨hmem, -, hforeign⟩ := hsent f hf
  have hext : Extends s.trace (s.trace.handle i (.gateway v) ⟨rxs effects, (s.gateway v).peerPorts⟩
      (emitted true (s.gateway v).proto.address effects)) := extends_append rfl
  refine traced_relay ((h.traced i x m hx hp).mono hext) hframe hreach hforeign hk rfl rfl ?_
    (sameContent_attempt hmem hp')
  rcases (mem_attempts hmem).2.2 with ⟨ho, ho', -⟩ | ⟨ho, ho', -⟩
  · exact Or.inl ⟨ho, ho'⟩
  · exact Or.inr ⟨ho, ho'⟩

theorem ContentInv.arriveComponent (h : ContentInv d group s) {v : V} {port : UInt16} {env : Env}
    {msgId : UInt64} (hx : s.trace.items[i]? = some x)
    (hreach : reaches d x (.component v port) = true) :
    ContentInv d group (arrive d s i x env msgId (.component v port)) := by
  have hframe := h.frames x (List.mem_of_getElem? hx)
  have hready := h.components v port
  obtain ⟨effects, heq, -, hok⟩ := handling_component env msgId hready hframe hreach
  obtain ⟨m, hp, hm, -⟩ := hframe.data
  obtain ⟨effects', heq', hout⟩ := componentReceive_data env msgId
    (ne_anyPort_of_mem (hframe.port_of_reaches hreach)) hready.2.2 hp hm
  obtain rfl : effects = effects' := by
    rw [heq] at heq'
    exact (Prod.mk.inj (Except.ok.inj heq')).2
  have hrx : ∀ rx ∈ rxs effects, rx = rxOfMessage m x.data := by
    split at hout <;> rw [(Prod.mk.inj hout).1] <;> simp
  simp only [arrive, heq]
  exact ⟨h.gateways, componentReady_update h.components hready,
    forall_items_append h.frames fun f hf => hok f hf _,
    forall_items_append h.channels fun f hf => onChannel_component (hready.1 ▸ hf),
    h.traced_append rfl fun k f m' _ hk hp' => traced_self hk rfl hp', h.heard_handle hx hp hrx,
    h.logged_handle hx⟩

theorem ContentInv.kept (h : ContentInv d group s) (hs : step d group s a = some s') :
    ContentInv d group s' := by
  cases a with
  | send v port text id time =>
    simp only [step] at hs
    split at hs
    · split at hs
      · cases hs
      · rename_i effects heq
        obtain rfl := Option.some.inj hs
        exact ⟨h.gateways, h.components,
          forall_items_append h.frames fun f hf => frameOk_sendLocal (h.components v port) heq hf,
          forall_items_append h.channels fun f hf =>
            onChannel_component ((h.components v port).1 ▸ hf),
          h.traced_append rfl fun k f m _ hk hp => traced_self hk rfl hp,
          fun e he rx hrx => (h.heard e he rx hrx).mono (extends_append rfl), fun e he => by
            rw [Trace.publish, List.length_append]
            exact lt_of_lt_of_le (h.logged e he) (Nat.le_add_right _ _)⟩
    · cases hs
  | receive i n now stray id =>
    simp only [step] at hs
    split at hs
    · cases hs
    · rename_i x hx
      simp only [Option.ite_none_right_eq_some] at hs
      obtain ⟨⟨hreach, -⟩, hs⟩ := hs
      obtain rfl := Option.some.inj hs
      cases n with
      | gateway v => exact h.arriveGateway hx hreach
      | component v port => exact h.arriveComponent hx hreach
  | changeGateway v g =>
    simp only [step, Option.ite_none_right_eq_some] at hs
    obtain ⟨hg, hs⟩ := hs
    obtain rfl := Option.some.inj hs
    exact ⟨gatewayReady_update h.gateways hg, h.components, h.frames, h.channels, h.traced,
      h.heard, h.logged⟩
  | changeComponent v port p =>
    simp only [step, Option.ite_none_right_eq_some] at hs
    obtain ⟨hp, hs⟩ := hs
    obtain rfl := Option.some.inj hs
    exact ⟨h.gateways, componentReady_update h.components hp, h.frames, h.channels,
      h.traced, h.heard, h.logged⟩

theorem contentInv_of_reachable {s₀ : State V} (h₀ : Started d group s₀)
    (h : Reachable (step d group) s₀ s) : ContentInv d group s := by
  refine h.invariant (ContentInv d group) ⟨h₀.gateways, h₀.components, ?_, ?_, ?_, ?_, ?_⟩
    fun _ _ _ hinv _ hs => hinv.kept hs
  all_goals simp [h₀.silent]

/-- In every run of the data traffic, whatever any process is ever told has the type, the id
and, up to white space at both ends, the body of a message that a component has put on
the bus of its machine, and at most two gateways have copied it since. -/
theorem received_as_sent {s₀ : State V} (h₀ : Started d group s₀)
    (h : Reachable (step d group) s₀ s) :
    ∀ e ∈ s.trace.log, ∀ rx ∈ e.result.rx,
      ∃ (r : ℕ) (x : Item (Node V) AsyncCapsule) (v : V) (port : UInt16) (m : Message) (n : ℕ),
        s.trace.items[r]? = some x ∧ x.maker = .component v port ∧
        x.data.payload = buildMessage m ∧ rx.msg.type = m.type ∧ rx.msg.msgId = m.msgId ∧
        rx.msg.body = trim m.body ∧ Copy s.trace r e.item n ∧ n ≤ 2 := by
  intro e he rx hrx
  have hinv := contentInv_of_reachable h₀ h
  obtain ⟨y, m, hy, hp, hmsg⟩ := hinv.heard e he rx hrx
  obtain ⟨r, x, v, port, m₀, n, hx, hmaker, hp₀, hsame, hcopy, hstage⟩ :=
    hinv.traced e.item y m hy hp
  refine ⟨r, x, v, port, m₀, n, hx, hmaker, hp₀, ?_, ?_, ?_, hcopy, ?_⟩
  · rw [hmsg]
    exact hsame.type
  · rw [hmsg]
    exact hsame.msgId
  · rw [hmsg]
    exact hsame.body
  · cases hstage <;> omega

/-- In every run of the data traffic, every frame is one that the transport carries: the layers
below the protocol of its sender send it, and those of every process that it reaches hand
exactly this frame to their protocol. -/
theorem frames_transported {s₀ : State V} (h₀ : Started d group s₀)
    (h : Reachable (step d group) s₀ s) (etherType : UInt16) {sendto : Bytes → ℤ}
    (hkernel : ∀ packet : Bytes, packet.length ≤ Transport.ETH_FRAME_LEN → 0 ≤ sendto packet) :
    ∀ x ∈ s.trace.items, ∃ wire,
      (Transport.protocolSend ⟨d.mac x.maker.vm, ethernetEngine x.maker⟩ etherType sendto x.data.src
        x.data.dst x.data.payload).2 = some wire ∧
      ∀ n ∈ audience d x.maker x.data, ∀ beyond,
        (Transport.receive (d.mac n.vm) etherType beyond wire).map
          (·.toAsyncCapsule) = some x.data := by
  intro x hx
  have hinv := contentInv_of_reachable h₀ h
  obtain ⟨m, hp, -⟩ := (hinv.frames x hx).data
  have hchannel := hinv.channels x hx
  obtain ⟨wire, hwire, hreceived⟩ := transported hp (hinv.frames x hx).source hchannel.origin
    hchannel.engine hchannel.fits etherType hkernel
  refine ⟨wire, hwire, fun n hn beyond => hreceived _ beyond fun ho => ?_⟩
  simp only [audience, ho, List.mem_map, List.mem_filter, decide_eq_true_eq] at hn
  obtain ⟨w, ⟨-, hother, -⟩, rfl⟩ := hn
  exact fun hmac => hother (d.mac_injective hmac)

end Steps

/-- The gateway of a car hears what a component of it has sent. -/
theorem own_alarm_heard : ∃ s : State (Fin 2), ∃ e ∈ s.trace.log, ∃ rx ∈ e.result.rx,
    rx.msg.body = ascii "brake!" ∧ ∃ (m : Message) (r n : ℕ),
      rx.msg.body = trim m.body ∧ Copy s.trace r e.item n ∧ n ≤ 2 := by
  have hrun : ((run (step twoCars 0) (quietCars twoCars) [.send 0 BRAKE_PORT (ascii "brake!") 0 0,
      .receive 0 (.gateway 0) (fun _ => 0) (fun _ => 0) 0]).map fun s =>
        s.trace.log.any fun e => e.result.rx.any fun rx => rx.msg.body = ascii "brake!") =
          some true := by
    decide +kernel
  obtain ⟨s, hs, hheard⟩ := exists_reachable_of_run _ hrun
  simp only [List.any_eq_true, decide_eq_true_eq] at hheard
  obtain ⟨e, he, rx, hrx, htext⟩ := hheard
  obtain ⟨r, -, -, -, m, n, -, -, -, -, -, hbody, hcopy, hle⟩ :=
    received_as_sent (started_quietCars twoCars) hs e he rx hrx
  exact ⟨s, e, he, rx, hrx, htext, m, r, n, hbody, hcopy, hle⟩

/-! ## The way of one message -/

section Delivery

variable {s : State V} {i : ℕ} {x : Item (Node V) AsyncCapsule} {v : V} {m : Message}

/-- The largest body that fits both channels on its whole way. -/
def BODY_LIMIT : ℕ := SHM_LIMIT - 125

theorem fits_of_body {c : AsyncCapsule} (hp : c.payload = buildMessage m)
    (hbody : m.body.length ≤ BODY_LIMIT) :
    fits c = true := by
  have hlen := length_buildMessage_le m
  rw [BODY_LIMIT, SHM_LIMIT] at hbody
  cases ho : c.origin with
  | sharedMemory =>
    simp only [fits, ho, hp, decide_eq_true_eq, SHM_LIMIT]
    omega
  | ethernet =>
    simp only [fits, ho, hp, decide_eq_true_eq, MTU]
    omega

/-- Nobody has been handed a frame that has just been sent. -/
theorem ContentInv.fresh (h : ContentInv d group s) {k : ℕ}
    (hk : s.trace.items.length ≤ k) (n : Node V) :
    s.trace.results k n = [] := by
  rw [Trace.results, List.map_eq_nil_iff, List.filter_eq_nil_iff]
  intro e he
  have := h.logged e he
  simp only [decide_eq_true_eq, not_and]
  omega

/-- A gateway that is handed a frame of its machine, or of another one, tries to relay it and
succeeds. -/
theorem ContentInv.relays (h : ContentInv d group s) (hx : s.trace.items[i]? = some x)
    (hp : x.data.payload = buildMessage m) (hbody : m.body.length ≤ BODY_LIMIT)
    (hreach : reaches d x (.gateway v) = true)
    (hforeign : x.data.origin = .ethernet → x.maker ≠ .gateway v)
    (hfresh : s.trace.results i (.gateway v) = []) (now : ℕ → UInt64) :
    ∃ s', step d group s (.receive i (.gateway v) now (fun _ => 0) 0) = some s' ∧
      s'.gateway = s.gateway ∧
      (∀ k n, k ≠ i → s'.trace.results k n = s.trace.results k n) ∧
        s'.trace.items = s.trace.items ++
        (attempts (d.config v) (s.gateway v) (rxOfMessage m x.data) now).map
          (⟨.gateway v, some i, ·⟩) := by
  have hframe := h.frames x (List.mem_of_getElem? hx)
  obtain ⟨hh, haddress, hgroup, hobs, -⟩ := h.gateways v
  obtain ⟨m', hp', hm, hmgroup⟩ := hframe.data
  obtain rfl := buildMessage_injective (hp.symm.trans hp')
  have hbroadcast : (s.gateway v).proto.address ≠ Address.BROADCAST := haddress ▸ d.individual v
  obtain ⟨effects, heq, hout⟩ :=
    gatewayReceive_data { now, stray := fun _ => 0 } (d.config v) hh hobs hbroadcast hp hm
  have hheard : ¬ ((x.data.origin = .ethernet ∧ x.data.src.mac = (s.gateway v).proto.address) ∨
      (m.groupId.toNat : ℤ) ≠ (s.gateway v).proto.currentGroupId) := by
    rintro (⟨ho, hmac⟩ | hgroup')
    · exact hforeign ho ((hframe.own_iff ho).mp (haddress ▸ hmac))
    · exact hgroup' (by rw [hmgroup, hgroup])
  rw [if_neg hheard] at hout
  have hfit : ∀ f ∈ attempts (d.config v) (s.gateway v) (rxOfMessage m x.data) now,
      fits f = true := by
    intro f hf
    obtain ⟨⟨time, hpayload⟩, -⟩ := mem_attempts hf
    exact fits_of_body hpayload (le_trans (length_trim_le m.body) hbody)
  have hstep : step d group s (.receive i (.gateway v) now (fun _ => 0) 0) =
      some (arrive d s i x { now, stray := fun _ => 0 } 0 (.gateway v)) := by
    simp only [step, hx, hreach, hfresh, List.isEmpty_nil, and_self, if_true]
  refine ⟨_, hstep, ?_, ?_, ?_⟩
  · simp only [arrive, heq, Function.update_eq_self]
  · intro k n hk
    simp only [arrive, heq]
    exact Trace.results_handle_of_ne fun hsame => hk hsame.1.symm
  · simp only [arrive, heq, Trace.handle]
    rw [(Prod.mk.inj hout).2, List.filter_eq_self.mpr hfit]

/-- What `send_local` sends stays on the machine. -/
theorem localDestination_mac {mac : Address} {text data : Bytes} {dst : Endpoint}
    (h : localDestination mac text = .ok (dst, data)) : dst.mac = mac := by
  unfold localDestination at h
  split at h
  · simp only [bind, Except.bind] at h
    split at h
    · cases h
    · cases h
      rfl
  · cases h
    rfl

/-- A component sends, and its message is the next frame of the trace. -/
theorem ContentInv.sends (h : ContentInv d group s) {port : UInt16} {text data : Bytes}
    {dst : Endpoint} (hport : .component v port ∈ processes d v)
    (hlocal : localDestination (d.mac v) text = .ok (dst, data))
    (hbody : data.length ≤ BODY_LIMIT) (id time : UInt64) :
    ∃ s' m, step d group s (.send v port text id time) = some s' ∧ s'.gateway = s.gateway ∧
      (∀ k n, s'.trace.results k n = s.trace.results k n) ∧
      m.body = data ∧ m.type = Int32.ofInt port.toNat ∧ m.msgId = id ∧
      s'.trace.items = s.trace.items ++
        [⟨.component v port, none, ⟨⟨d.mac v, port⟩, dst, .sharedMemory, buildMessage m⟩⟩] := by
  obtain ⟨haddress, -, -⟩ := h.components v port
  have hmac := localDestination_mac hlocal
  let m := commMessage (s.component v port) ⟨d.mac v, port⟩ (Int32.ofInt port.toNat) data id time
  have hsend : sendLocal (s.component v port) port text id time =
      .ok (sendMessage (s.component v port) ⟨d.mac v, port⟩ dst m) := by
    simp only [sendLocal, haddress, hlocal, bind, Except.bind]
    rfl
  have hemitted : emitted false (s.component v port).address
      (sendMessage (s.component v port) ⟨d.mac v, port⟩ dst m) =
      [⟨⟨d.mac v, port⟩, dst, .sharedMemory, buildMessage m⟩] := by
    rw [emitted_shm (by rw [hmac, haddress]), haddress]
    exact List.filter_eq_self.mpr fun c hc =>
      fits_of_body (m := m) (by rw [List.mem_singleton.mp hc]) hbody
  let frame : AsyncCapsule := ⟨⟨d.mac v, port⟩, dst, .sharedMemory, buildMessage m⟩
  refine ⟨{ s with trace := s.trace.publish (.component v port) [frame] }, m, ?_, rfl,
    fun _ _ => rfl, rfl, rfl, rfl, rfl⟩
  simp only [step, if_pos hport, hsend, hemitted, frame]

/-- A component that is handed a frame for its port is told of it. -/
theorem ContentInv.hears (h : ContentInv d group s) {port : UInt16}
    (hx : s.trace.items[i]? = some x) (hp : x.data.payload = buildMessage m)
    (hreach : reaches d x (.component v port) = true)
    (hdst : x.data.dst.port = port) (hfresh : s.trace.results i (.component v port) = [])
    (now : ℕ → UInt64) :
    ∃ s', step d group s (.receive i (.component v port) now (fun _ => 0) 0) = some s' ∧
      s'.trace.results i (.component v port) = [⟨[rxOfMessage m x.data], []⟩] := by
  have hframe := h.frames x (List.mem_of_getElem? hx)
  obtain ⟨m', hp', hm, hmgroup⟩ := hframe.data
  obtain rfl := buildMessage_injective (hp.symm.trans hp')
  obtain ⟨-, hgroup, hobs⟩ := h.components v port
  obtain ⟨effects, heq, hout⟩ := componentReceive_data { now, stray := fun _ => 0 } 0
    (ne_anyPort_of_mem (hframe.port_of_reaches hreach)) hobs hp hm
  rw [if_pos ⟨by rw [hmgroup, hgroup], hdst.symm⟩] at hout
  refine ⟨_, by simp only [step, hx, hreach, hfresh, List.isEmpty_nil, and_self, if_true]; rfl, ?_⟩
  simp only [arrive, heq]
  rw [Trace.results_handle_self, hfresh, (Prod.mk.inj hout).1]
  rfl

/-- In every state of every run: what a component sends can be brought to every component of
every other car that its gateway fans out to, in four steps and whatever else is under
way, with the type, the id and the trimmed body of the call. -/
theorem reaches_every_peer {s₀ : State V} (h₀ : Started d group s₀)
    (hs : Reachable (step d group) s₀ s) {w : V} {p q : UInt16} {text data : Bytes} {dst : Endpoint}
    (hp : .component v p ∈ processes d v)
    (hq : .component w q ∈ processes d w) (hwv : w ≠ v) (hpeer : q ∈ (s.gateway w).peerPorts)
    (hlocal : localDestination (d.mac v) text = .ok (dst, data)) (hbody : data.length ≤ BODY_LIMIT)
    (id time : UInt64) (now : ℕ → UInt64) :
    ∃ s' j k l rx, run (step d group) s [.send v p text id time,
        .receive j (.gateway v) now (fun _ => 0) 0, .receive k (.gateway w) now (fun _ => 0) 0,
        .receive l (.component w q) now (fun _ => 0) 0] = some s' ∧
      s'.trace.results l (.component w q) = [⟨[rx], []⟩] ∧ rx.msg.type = Int32.ofInt p.toNat ∧
      rx.msg.msgId = id ∧ rx.msg.body = trim data := by
  have hinv := contentInv_of_reachable h₀ hs
  -- the frame on the bus of the sender's machine
  obtain ⟨s₁, m, hsend, hg₁, hres₁, hmbody, hmtype, hmid, hitems₁⟩ :=
    hinv.sends hp hlocal hbody id time
  have hinv₁ := hinv.kept hsend
  let x : Item (Node V) AsyncCapsule :=
    ⟨.component v p, none, ⟨⟨d.mac v, p⟩, dst, .sharedMemory, buildMessage m⟩⟩
  have hx : s₁.trace.items[s.trace.items.length]? = some x := by
    rw [hitems₁, List.getElem?_concat_length]
  have hreach : reaches d x (.gateway v) = true :=
    reaches_iff.mpr (Or.inl (by simp [audience, x, processes, Node.vm]))
  have hfresh : s₁.trace.results s.trace.items.length (.gateway v) = [] := by
    rw [hres₁]
    exact hinv.fresh le_rfl _
  -- its copy on the Ethernet
  obtain ⟨s₂, hforward, hg₂, hres₂, hitems₂⟩ :=
    hinv₁.relays hx rfl (hmbody ▸ hbody) hreach (fun h => by cases h) hfresh now
  have hinv₂ := hinv₁.kept hforward
  rw [attempts_sharedMemory rfl] at hitems₂
  let m₂ := relayed (s₁.gateway v).proto GATEWAY_PORT (d.config v).vmId
    (rxOfMessage m x.data).msg (now 0)
  let y : Item (Node V) AsyncCapsule :=
    ⟨.gateway v, some s.trace.items.length,
    ⟨(s₁.gateway v).localEp, ⟨Address.BROADCAST, GATEWAY_PORT⟩, .ethernet, buildMessage m₂⟩⟩
  have hy : s₂.trace.items[s₁.trace.items.length]? = some y := by
    rw [hitems₂]
    exact List.getElem?_concat_length
  have hreach₂ : reaches d y (.gateway w) = true :=
    reaches_iff.mpr (Or.inl (by simp [audience, y, Node.vm, d.complete w, hwv]))
  have hfresh₂ : s₂.trace.results s₁.trace.items.length (.gateway w) = [] := by
    rw [hres₂ _ _ (by simp [hitems₁])]
    exact hinv₁.fresh le_rfl _
  have hbody₂ : m₂.body.length ≤ BODY_LIMIT := le_trans (length_trim_le m.body) (hmbody ▸ hbody)
  -- and the copies on the bus of the other machine
  obtain ⟨s₃, hfanout, -, hres₃, hitems₃⟩ := hinv₂.relays hy rfl hbody₂ hreach₂
    (fun _ h => hwv (Node.gateway.inj h).symm) hfresh₂ now
  have hinv₃ := hinv₂.kept hfanout
  rw [← hg₁, ← hg₂] at hpeer
  obtain ⟨i, hi⟩ := List.getElem?_of_mem hpeer
  let m₃ := relayed (s₂.gateway w).proto GATEWAY_PORT (d.config w).vmId
    (rxOfMessage m₂ y.data).msg (now i)
  let z : Item (Node V) AsyncCapsule :=
    ⟨.gateway w, some s₁.trace.items.length,
    ⟨(s₂.gateway w).localEp, ⟨(s₂.gateway w).proto.address, q⟩, .sharedMemory, buildMessage m₃⟩⟩
  have hz : s₃.trace.items[s₂.trace.items.length + i]? = some z := by
    rw [hitems₃, List.getElem?_append_right (Nat.le_add_right _ _), Nat.add_sub_cancel_left,
      List.getElem?_map, attempts]
    simp [rxOfMessage, y, List.getElem?_zipIdx, hi, z, m₃]
  have hreach₃ : reaches d z (.component w q) = true :=
    reaches_iff.mpr (Or.inl (by simpa [audience, z, Node.vm] using hq))
  have hlength : s₂.trace.items.length = s₁.trace.items.length + 1 := by simp [hitems₂]
  have hfresh₃ : s₃.trace.results (s₂.trace.items.length + i) (.component w q) = [] := by
    rw [hres₃ _ _ (by omega)]
    exact hinv₂.fresh (Nat.le_add_right _ _) _
  obtain ⟨s', hhear, hresult⟩ := hinv₃.hears hz rfl hreach₃ rfl hfresh₃ now
  refine ⟨s', s.trace.items.length, s₁.trace.items.length, s₂.trace.items.length + i,
    rxOfMessage m₃ z.data, ?_, hresult, hmtype, hmid, ?_⟩
  · simp only [run, hsend, hforward, hfanout, hhear, Option.bind_some]
  · change trim (trim (trim m.body)) = trim data
    rw [trim_trim, trim_trim, hmbody]

end Delivery

/-- An alarm of the first car's brake on its way to that of the second. -/
theorem alarm_reaches_other_brake : ∃ (s' : State (Fin 2)) (l : ℕ) (rx : Rx),
    s'.trace.results l (.component 1 BRAKE_PORT) = [⟨[rx], []⟩] ∧ rx.msg.body = trim
      (ascii " brake!") := by
  have hsender : .component 0 BRAKE_PORT ∈ processes twoCars 0 := by decide +kernel
  have hreader : .component 1 BRAKE_PORT ∈ processes twoCars 1 := by decide +kernel
  have hlocal : localDestination (twoCars.mac 0) (ascii " brake!") =
      .ok (⟨twoCars.mac 0, GATEWAY_PORT⟩, ascii " brake!") := by decide +kernel
  obtain ⟨s', -, -, l, rx, -, hresult, -, -, hbody⟩ :=
    reaches_every_peer (started_quietCars twoCars) .refl
    hsender hreader (by decide) (by decide +kernel) hlocal (by decide +kernel) 0 0 (fun _ => 0)
  exact ⟨s', l, rx, hresult, hbody⟩

end CarNetwork.RelayOnce
