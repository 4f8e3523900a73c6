import CarNetwork.Components
import CarNetwork.Progress
import CarNetwork.Replacement

/-!
# Whether the traffic of a fleet ends

An answer goes to the gateway of its car and from there to the components of all other
cars, but not to those of its own. So as long as one car at most has components that
answer to everything, answers to answers come to an end. With two such cars they do not:
the cars answer each other for ever, whatever else is in flight and in whatever order it
is delivered.
-/
namespace CarNetwork.Components

open CarNetwork.ByteText CarNetwork.Conversions CarNetwork.Ethernet CarNetwork.Protocol
open CarNetwork.Car CarNetwork.Fleet CarNetwork.Relay CarNetwork.Runs CarNetwork.Replacement
open CarNetwork.RelayOnce (fits_of_body BODY_LIMIT mem_emitted_sendLocal)
open CarNetwork.Cascade (Copy)

variable {V : Type} [DecidableEq V] {d : Deployment V} {e : Equipment V} {s s' : State V}

/-! ## Who a frame reaches -/

theorem vm_of_mem_processes {v : V} {n : Node V} (h : n ∈ processes d e v) : n.vm = v := by
  unfold processes at h
  rcases List.mem_cons.mp h with rfl | h
  · rfl
  · split at h
    · cases h
    · obtain ⟨port, -, rfl⟩ := List.mem_map.mp h
      rfl

theorem mem_processes_of_mem_audience {node n : Node V} {c : AsyncCapsule}
    (h : n ∈ audience d e node c) :
    n ∈ processes d e n.vm := by
  unfold audience at h
  split at h
  · have hn := (List.mem_filter.mp h).1
    rwa [vm_of_mem_processes hn]
  · obtain ⟨w, -, rfl⟩ := List.mem_map.mp h
    exact List.mem_cons_self

theorem component_mem_processes {v : V} {port : UInt16} :
    .component v port ∈ processes d e v ↔ d.isCoordinator v = false ∧ port ∈ e.ports v := by
  unfold processes
  cases d.isCoordinator v <;> simp

theorem mem_audience_sharedMemory {node n : Node V} {c : AsyncCapsule}
    (ho : c.origin = .sharedMemory) :
    n ∈ audience d e node c ↔ n ∈ processes d e node.vm ∧ n ≠ node := by
  simp [audience, ho]

theorem mem_audience_ethernet {node n : Node V} {c : AsyncCapsule} (ho : c.origin = .ethernet) :
    n ∈ audience d e node c ↔ ∃ w, w ≠ node.vm ∧
      (c.dst.mac = Address.BROADCAST ∨ c.dst.mac = d.mac w) ∧ n = .gateway w := by
  simp only [audience, ho, List.mem_map, List.mem_filter, d.complete, true_and, decide_eq_true_eq]
  constructor
  · rintro ⟨w, ⟨hw, hdst⟩, rfl⟩
    exact ⟨w, hw, hdst, rfl⟩
  · rintro ⟨w, hw, hdst, rfl⟩
    exact ⟨w, ⟨hw, hdst⟩, rfl⟩

/-! ## What a delivery does -/

/-- Machines that are set up, and nothing but data messages in flight, with any bodies, groups
and addresses. -/
structure Traffic (d : Deployment V) (e : Equipment V) (s : State V) : Prop where
  hears : ∀ v, (s.gateway v).phase.hears = true
  address : ∀ v, (s.gateway v).proto.address = d.mac v
  listens : ∀ v, (s.gateway v).proto.portObservers = observers ANY_PORT
  componentAddress : ∀ v port, (s.component v port).address = d.mac v
  componentListens : ∀ v port, (s.component v port).portObservers = observers port
  receiver : ∀ x ∈ s.copies, x.receiver ∈ processes d e x.receiver.vm
  data : ∀ x ∈ s.copies, ∃ m, x.capsule.payload = buildMessage m ∧ m.control = .NONE

/-- The frames that are sent when a process is given a copy. -/
def sentFor (d : Deployment V) (e : Equipment V) (s : State V) (x : Copy V) (m : Message)
    (now : ℕ → UInt64) (id : UInt64) :
    List AsyncCapsule :=
  match x.receiver with
  | .gateway v =>
    if (x.capsule.origin = .ethernet ∧ x.capsule.src.mac = d.mac v) ∨
        (m.groupId.toNat : ℤ) ≠ (s.gateway v).proto.currentGroupId then []
    else (attempts (d.config v) (s.gateway v) (rxOfMessage m x.capsule) now).filter fits
  | .component v port =>
    if (m.groupId.toNat : ℤ) = (s.component v port).currentGroupId ∧ port = x.capsule.dst.port then
      answerFrames (e.kind v port) (s.component v port) port (trim m.body) id (now 0)
    else []

/-- A delivery of data changes no process but the angle of a steering component. -/
theorem arrive_data (h : Traffic d e s) {x : Copy V}
    (hx : x.receiver ∈ processes d e x.receiver.vm) {m : Message}
    (hp : x.capsule.payload = buildMessage m) (hm : m.control = .NONE) (env : Env) (id : UInt64) :
    ∃ angle, arrive d e s x env id = { s with
      angle := angle
      copies := s.copies ++ (sentFor d e s x m env.now id).flatMap (copies d e x.receiver) } := by
  obtain ⟨receiver, c⟩ := x
  cases receiver with
  | gateway v =>
    have hbroadcast : (s.gateway v).proto.address ≠ Address.BROADCAST :=
      h.address v ▸ d.individual v
    obtain ⟨effects, heq, hout⟩ :=
      gatewayReceive_data env (d.config v) (h.hears v) (h.listens v) hbroadcast hp hm
    have hsent : emitted true (s.gateway v).proto.address effects =
        sentFor d e s ⟨.gateway v, c⟩ m env.now id := by
      rw [h.address v] at hout ⊢
      exact (congrArg Prod.snd hout).trans (apply_ite Prod.snd _ _ _)
    refine ⟨s.angle, ?_⟩
    simp only [arrive, heq, Function.update_eq_self, hsent]
  | component v port =>
    have hany := e.ne_any v port (component_mem_processes.mp hx).2
    obtain ⟨effects, heq, hout⟩ :=
      receive_data (e.kind v port) env id hany (h.componentListens v port) hp hm
    have hsent : emitted false (s.component v port).address effects =
        sentFor d e s ⟨.component v port, c⟩ m env.now id :=
      (congrArg Prod.snd hout).trans (apply_ite Prod.snd _ _ _)
    refine ⟨(arrive d e s ⟨.component v port, c⟩ env id).angle, ?_⟩
    simp only [arrive, heq, putInFlight, Function.update_eq_self, hsent]

/-- A copy of data for a process of the fleet. -/
def CopyOk (d : Deployment V) (e : Equipment V) (x : Copy V) : Prop :=
  x.receiver ∈ processes d e x.receiver.vm ∧ ∃ m, x.capsule.payload = buildMessage m ∧
    m.control = .NONE

theorem Traffic.copyOk (h : Traffic d e s) {x : Copy V} (hx : x ∈ s.copies) : CopyOk d e x :=
  ⟨h.receiver x hx, h.data x hx⟩

theorem Traffic.put (h : Traffic d e s) {l : List (Copy V)} (hl : ∀ x ∈ l, CopyOk d e x)
    (angle : V → UInt16 → ℤ) :
    Traffic d e { s with angle := angle, copies := l } :=
  { h with receiver := fun x hx => (hl x hx).1, data := fun x hx => (hl x hx).2 }

theorem copyOk_of_mem_copies {node : Node V} {c : AsyncCapsule} {m : Message} {y : Copy V}
    (hp : c.payload = buildMessage m) (hm : m.control = .NONE) (hy : y ∈ copies d e node c) :
    CopyOk d e y := by
  obtain ⟨n, hn, rfl⟩ := List.mem_map.mp hy
  exact ⟨mem_processes_of_mem_audience hn, m, hp, hm⟩

/-- What is sent for data is data: the message itself with the same body, or one of the answers. -/
theorem data_of_mem_sentFor {x : Copy V} {m : Message} {now : ℕ → UInt64} {id : UInt64}
    {f : AsyncCapsule} (hm : m.control = .NONE) (hf : f ∈ sentFor d e s x m now id) :
    ∃ m', f.payload = buildMessage m' ∧ m'.control = .NONE ∧
      (m'.body = trim m.body ∨ m'.body ∈ answers) := by
  unfold sentFor at hf
  split at hf
  · split at hf
    · cases hf
    · obtain ⟨⟨time, hp⟩, -⟩ := mem_attempts (List.mem_filter.mp hf).1
      exact ⟨_, hp, hm, .inl rfl⟩
  · split at hf
    · unfold answerFrames at hf
      split at hf
      · cases hf
      · rename_i text htext
        obtain rfl := List.mem_singleton.mp hf
        exact ⟨_, rfl, rfl, .inr (mem_answers htext)⟩
    · cases hf

/-- A delivery replaces a copy by copies of the frames that are sent for it. -/
theorem step_deliver (h : Traffic d e s) {i : ℕ} {now : ℕ → UInt64} {stray : ℤ → ℤ} {id : UInt64}
    (hs : step d e s (.deliver i now stray id) = some s') :
    ∃ x m angle, s.copies[i]? = some x ∧ x.capsule.payload = buildMessage m ∧ m.control = .NONE ∧
      s' = { s with
        angle := angle
        copies := s.copies.eraseIdx i ++
          (sentFor d e s x m now id).flatMap (copies d e x.receiver) } := by
  simp only [step, Option.map_eq_some_iff] at hs
  obtain ⟨x, hx, rfl⟩ := hs
  obtain ⟨hreceiver, m, hp, hm⟩ := h.copyOk (List.mem_of_getElem? hx)
  have hrest : Traffic d e { s with copies := s.copies.eraseIdx i } :=
    h.put (fun y hy => h.copyOk (List.mem_of_mem_eraseIdx hy)) s.angle
  obtain ⟨angle, heq⟩ := arrive_data hrest hreceiver hp hm { now, stray } id
  exact ⟨x, m, angle, hx, hp, hm, heq⟩

theorem copyOk_of_mem_new {x y : Copy V} {m : Message} {now : ℕ → UInt64} {id : UInt64}
    (hm : m.control = .NONE) (hy : y ∈ (sentFor d e s x m now id).flatMap (copies d e x.receiver)) :
    CopyOk d e y := by
  obtain ⟨f, hf, hy⟩ := List.mem_flatMap.mp hy
  obtain ⟨m', hp', hm', -⟩ := data_of_mem_sentFor hm hf
  exact copyOk_of_mem_copies hp' hm' hy

theorem Traffic.deliver (h : Traffic d e s) {x : Copy V} {m : Message} {now : ℕ → UInt64}
    {id : UInt64} {i : ℕ} (hm : m.control = .NONE) (angle : V → UInt16 → ℤ) :
    Traffic d e { s with
      angle := angle
      copies := s.copies.eraseIdx i ++
        (sentFor d e s x m now id).flatMap (copies d e x.receiver) } := by
  refine h.put (fun y hy => ?_) angle
  rcases List.mem_append.mp hy with hy | hy
  · exact h.copyOk (List.mem_of_mem_eraseIdx hy)
  · exact copyOk_of_mem_new hm hy

/-! ## One car with talkative components -/

section Ranks

/-- The frame carries a text that the brake or the airbag answers. -/
def triggers (c : AsyncCapsule) : Bool :=
  match parseMessage c.payload with
  | .ok m => trigger (trim m.body)
  | .error _ => false

theorem triggers_eq {c : AsyncCapsule} {m : Message} (hp : c.payload = buildMessage m) :
    triggers c = trigger (trim m.body) := by
  rw [triggers, hp, parse_build]

/-- How many deliveries may still follow one another, when only the car `a` has talkative
components. A text that the brake or the airbag answers makes its way to a component, the
answer makes its way to the car `a`, and the answer of that car ends at the others. -/
def rank (a : V) (x : Copy V) : ℕ :=
  match x.receiver, x.capsule.origin with
  | .component v port, _ =>
    if x.capsule.dst.port ≠ port then 0 else if v = a then 3
      else if triggers x.capsule then 6 else 0
  | .gateway v, .ethernet => if v = a then 4 else if triggers x.capsule then 7 else 1
  | .gateway v, .sharedMemory => if triggers x.capsule then 8 else if v = a then 2 else 5

variable {a v : V} {c : AsyncCapsule}

theorem rank_component_le (port : UInt16) :
    rank a ⟨.component v port, c⟩ ≤ if v = a then 3 else if triggers c then 6 else 0 := by
  simp only [rank]
  split <;> omega

theorem rank_component_unaddressed {port : UInt16} (h : c.dst.port ≠ port) :
    rank a ⟨.component v port, c⟩ = 0 :=
  if_pos h

theorem rank_ethernet (ho : c.origin = .ethernet) :
    rank a ⟨.gateway v, c⟩ = if v = a then 4 else if triggers c then 7 else 1 := by
  simp only [rank, ho]

theorem rank_sharedMemory (ho : c.origin = .sharedMemory) :
    rank a ⟨.gateway v, c⟩ = if triggers c then 8 else if v = a then 2 else 5 := by
  simp only [rank, ho]

/-- A forward ranks below the copy that the gateway got from its shared memory. -/
theorem rank_forwarded {f : AsyncCapsule} {y : Copy V} (ho : c.origin = .sharedMemory)
    (hf : f.origin = .ethernet) (hsame : triggers f = triggers c)
    (hy : y ∈ copies d e (.gateway v) f) : rank a y < rank a ⟨.gateway v, c⟩ := by
  obtain ⟨n, hn, rfl⟩ := List.mem_map.mp hy
  obtain ⟨w, hw, -, rfl⟩ := (mem_audience_ethernet hf).mp hn
  rw [rank_ethernet hf, rank_sharedMemory ho, hsame]
  have hw : w ≠ v := hw
  by_cases htrigger : triggers c = true
  · simp only [htrigger, if_true]
    split <;> omega
  · simp only [htrigger]
    by_cases hv : v = a
    · have hwa : w ≠ a := hv ▸ hw
      simp [hv, hwa]
    · split <;> simp

/-- A fan-out ranks below the copy that the gateway got from the Ethernet. -/
theorem rank_fannedOut {f : AsyncCapsule} {y : Copy V} (ho : c.origin = .ethernet)
    (hf : f.origin = .sharedMemory) (hsame : triggers f = triggers c)
    (hy : y ∈ copies d e (.gateway v) f) : rank a y < rank a ⟨.gateway v, c⟩ := by
  obtain ⟨n, hn, rfl⟩ := List.mem_map.mp hy
  obtain ⟨hprocess, hne⟩ := (mem_audience_sharedMemory hf).mp hn
  have hvm := vm_of_mem_processes hprocess
  cases n with
  | gateway w =>
    have hwv : w = v := hvm
    exact absurd (hwv ▸ rfl) hne
  | component w port =>
    obtain rfl : w = v := hvm
    have hle : rank a ⟨.component w port, f⟩ ≤ _ := rank_component_le port
    rw [rank_ethernet ho]
    rw [hsame] at hle
    refine lt_of_le_of_lt hle ?_
    split
    · omega
    · split <;> omega

/-- An answer ranks below the copy that it answers. -/
theorem rank_answered {port : UInt16} {f : AsyncCapsule} {y : Copy V}
    (haddressed : c.dst.port = port) (hquiet : v ≠ a → triggers c = true)
    (hf : f.origin = .sharedMemory) (hdst : f.dst.port = GATEWAY_PORT)
    (hanswer : triggers f = false) (hy : y ∈ copies d e (.component v port) f) :
    rank a y < rank a ⟨.component v port, c⟩ := by
  have hrank : rank a ⟨.component v port, c⟩ = if v = a then 3 else 6 := by
    simp only [rank, haddressed, ne_eq, not_true_eq_false, if_false]
    by_cases hv : v = a
    · rw [if_pos hv, if_pos hv]
    · rw [if_neg hv, if_neg hv, if_pos (hquiet hv)]
  obtain ⟨n, hn, rfl⟩ := List.mem_map.mp hy
  obtain ⟨hprocess, -⟩ := (mem_audience_sharedMemory hf).mp hn
  have hvm := vm_of_mem_processes hprocess
  rw [hrank]
  cases n with
  | gateway w =>
    obtain rfl : w = v := hvm
    rw [rank_sharedMemory hf, hanswer]
    simp only [Bool.false_eq_true, if_false]
    split <;> omega
  | component w port' =>
    obtain rfl : w = v := hvm
    -- the other components of the car see the frame on the bus, but it is not for them
    have hany := e.ne_any w port' (component_mem_processes.mp hprocess).2
    rw [rank_component_unaddressed (fun h => hany (h.symm.trans hdst))]
    split <;> omega

/-- What is sent for a copy ranks below it. -/
theorem rank_lt {x y : Copy V} {m : Message} {now : ℕ → UInt64} {id : UInt64}
    (hquiet : ∀ v ≠ a, d.isCoordinator v = false → ∀ port ∈ e.ports v,
      talkative (e.kind v port) = false)
    (hx : x.receiver ∈ processes d e x.receiver.vm) (hp : x.capsule.payload = buildMessage m)
    (hy : y ∈ (sentFor d e s x m now id).flatMap (copies d e x.receiver)) :
    rank a y < rank a x := by
  obtain ⟨receiver, c⟩ := x
  obtain ⟨f, hf, hy⟩ := List.mem_flatMap.mp hy
  unfold sentFor at hf
  cases receiver with
  | gateway v =>
    dsimp only at hf
    split at hf
    · cases hf
    · obtain ⟨⟨time, hpf⟩, -, hchannel⟩ := mem_attempts (List.mem_filter.mp hf).1
      have hsame : triggers f = triggers c := by
        rw [triggers_eq hpf, triggers_eq hp]
        exact congrArg trigger (trim_trim m.body)
      rcases hchannel with ⟨ho, hfo, -⟩ | ⟨ho, hfo, -⟩
      · exact rank_forwarded ho hfo hsame hy
      · exact rank_fannedOut ho hfo hsame hy
  | component v port =>
    dsimp only at hf
    split at hf
    · rename_i hconcerns
      unfold answerFrames at hf
      split at hf
      · cases hf
      · rename_i text htext
        obtain rfl := List.mem_singleton.mp hf
        obtain ⟨hcar, hmem⟩ := component_mem_processes.mp hx
        refine rank_answered hconcerns.2.symm (fun hv => ?_) rfl rfl ?_ hy
        · rw [triggers_eq hp]
          exact trigger_of_answer htext (hquiet v hv hcar port hmem)
        · exact (triggers_eq rfl).trans (trigger_answers text (mem_answers htext))
    · cases hf

/-! ### How many copies a delivery makes -/

theorem le_sum_vms (f : V → ℕ) (v : V) : f v ≤ (d.vms.map f).sum :=
  List.le_sum_of_mem (List.mem_map_of_mem (d.complete v))

/-- No frame reaches more processes than there are. -/
def crowd (d : Deployment V) (e : Equipment V) : ℕ :=
  (d.vms.map fun v => (e.ports v).length + 1).sum

theorem length_copies_le (node : Node V) (c : AsyncCapsule) :
    (copies d e node c).length ≤ crowd d e := by
  have hone : (processes d e node.vm).length ≤ (e.ports node.vm).length + 1 := by
    unfold processes
    split <;> simp
  have hsum : (e.ports node.vm).length + 1 ≤ crowd d e :=
    le_sum_vms (fun v => (e.ports v).length + 1) node.vm
  have hvms : d.vms.length ≤ crowd d e := by simp [crowd]
  rw [copies, List.length_map, audience]
  cases c.origin with
  | sharedMemory => exact (List.length_filter_le _ _).trans (hone.trans hsum)
  | ethernet => exact (List.length_map _).le.trans ((List.length_filter_le _ _).trans hvms)

/-- No process sends more frames for a copy than this. -/
def burst (d : Deployment V) (gateway : V → Gateway) : ℕ :=
  1 + (d.vms.map fun v => (gateway v).peerPorts.length).sum

theorem length_sentFor_le (x : Copy V) (m : Message) (now : ℕ → UInt64) (id : UInt64) :
    (sentFor d e s x m now id).length ≤ burst d s.gateway := by
  unfold sentFor burst
  split
  · rename_i v _
    have hpeers : (s.gateway v).peerPorts.length ≤
        (d.vms.map fun v => (s.gateway v).peerPorts.length).sum :=
      le_sum_vms (fun v => (s.gateway v).peerPorts.length) v
    split
    · simp
    · refine (List.length_filter_le _ _).trans ?_
      unfold attempts
      split
      · simp
      · rw [List.length_map, List.length_zipIdx]
        omega
  · split
    · unfold answerFrames
      split <;> simp
    · simp

theorem length_new_le (x : Copy V) (m : Message) (now : ℕ → UInt64) (id : UInt64) :
    ((sentFor d e s x m now id).flatMap (copies d e x.receiver)).length ≤
      burst d s.gateway * crowd d e := by
  have hle : ∀ n ∈ (sentFor d e s x m now id).map fun f => (copies d e x.receiver f).length,
      n ≤ crowd d e := by
    intro n hn
    obtain ⟨f, -, rfl⟩ := List.mem_map.mp hn
    exact length_copies_le _ _
  calc ((sentFor d e s x m now id).flatMap (copies d e x.receiver)).length
      ≤ ((sentFor d e s x m now id).map fun f => (copies d e x.receiver f).length).length •
        crowd d e := by
        rw [List.length_flatMap]
        exact List.sum_le_card_nsmul _ _ hle
    _ ≤ burst d s.gateway * crowd d e := by
        rw [List.length_map, smul_eq_mul]
        exact Nat.mul_le_mul_right _ (length_sentFor_le x m now id)

def Action.isTick : Action V → Bool
  | .tick .. => true
  | _ => false

/-- If one car at most has components that answer to everything, cascades end: from any data
messages in flight, with any bodies, no sequence of deliveries and losses is longer than a
fixed bound. -/
theorem cascade_ends_beside (h : Traffic d e s)
    (hquiet : ∀ v ≠ a, d.isCoordinator v = false → ∀ port ∈ e.ports v,
      talkative (e.kind v port) = false) :
    ∃ n, ∀ as t, run (only (fun b => !b.isTick) (step d e)) s as = some t → as.length ≤ n := by
  refine ⟨worth (burst d s.gateway * crowd d e) (rank a) s.copies, fun as t hrun => ?_⟩
  refine length_le_of_ranks State.copies (fun t => Traffic d e t ∧
    t.gateway = s.gateway) ?_ ⟨h, rfl⟩ as hrun
  rintro t b u ⟨ht, hsame⟩ hu
  obtain ⟨htick, hu⟩ := only_eq_some.mp hu
  cases b with
  | deliver i now stray id =>
    obtain ⟨x, m, angle, hi, hp, hm, rfl⟩ := step_deliver ht hu
    have hx := ht.receiver x (List.mem_of_getElem? hi)
    have hlen : ((sentFor d e t x m now id).flatMap (copies d e x.receiver)).length ≤
        burst d t.gateway * crowd d e :=
      length_new_le x m now id
    rw [hsame] at hlen
    exact ⟨⟨ht.deliver hm angle, hsame⟩, x, _, ⟨i, hi, rfl⟩, hlen,
      fun y hy => rank_lt hquiet hx hp hy⟩
  | lose i =>
    simp only [step, Option.ite_none_right_eq_some] at hu
    obtain ⟨hi, hu⟩ := hu
    obtain rfl := Option.some.inj hu
    exact ⟨⟨ht.put (fun y hy => ht.copyOk (List.mem_of_mem_eraseIdx hy)) t.angle, hsame⟩,
      t.copies[i], [],
      ⟨i, List.getElem?_eq_getElem hi, (List.append_nil _).symm⟩, Nat.zero_le _, by simp⟩
  | tick v port id time => cases htick

end Ranks

/-! ## Two cars with talkative components -/

section Talkers

/-- A talkative component of a car. -/
structure Talker (d : Deployment V) (e : Equipment V) where
  vm : V
  port : UInt16
  car : d.isCoordinator vm = false
  has : port ∈ e.ports vm
  talks : talkative (e.kind vm port) = true

/-- The component and its gateway are in the group, and the gateway fans out to the component. -/
structure Connected (group : UInt8) (s : State V) (k : Talker d e) : Prop where
  gateway : (s.gateway k.vm).proto.currentGroupId = group.toNat
  component : (s.component k.vm k.port).currentGroupId = group.toNat
  peer : k.port ∈ (s.gateway k.vm).peerPorts

/-- A message of the group that is short enough for both channels. -/
def Short (group : UInt8) (m : Message) : Prop :=
  m.control = .NONE ∧ m.groupId = group ∧ m.body.length ≤ BODY_LIMIT

/-- The copy is on its way between the two cars. -/
inductive Live (group : UInt8) (k k' : Talker d e) (x : Copy V) : Prop
  | component (m : Message) (j : Talker d e) (hj : j = k ∨ j = k')
      (hp : x.capsule.payload = buildMessage m)
      (hm : Short group m) (hreceiver : x.receiver = .component j.vm j.port)
      (haddressed : x.capsule.dst.port = j.port)
  | forward (m : Message) (j : Talker d e) (hj : j = k ∨ j = k')
      (hp : x.capsule.payload = buildMessage m)
      (hm : Short group m) (hreceiver : x.receiver = .gateway j.vm)
      (ho : x.capsule.origin = .sharedMemory)
  | fanout (m : Message) (j : Talker d e) (hj : j = k ∨ j = k')
      (hp : x.capsule.payload = buildMessage m)
      (hm : Short group m) (hreceiver : x.receiver = .gateway j.vm)
      (ho : x.capsule.origin = .ethernet)
      (hforeign : x.capsule.src.mac ≠ d.mac j.vm)

variable {group : UInt8} {k k' : Talker d e} {x : Copy V} {m : Message}
  {now : ℕ → UInt64} {id : UInt64}

theorem short_relayed (cfg : Config) (c : AsyncCapsule) {g : Gateway}
    (hg : g.proto.currentGroupId = group.toNat) (hm : Short group m) (time : UInt64) :
    Short group (relayed g.proto GATEWAY_PORT cfg.vmId (rxOfMessage m c).msg time) := by
  refine ⟨hm.1, ?_, le_trans (length_trim_le m.body) hm.2.2⟩
  rw [relayed, hg]
  exact uint8_ofInt_toNat group

/-- A talkative component answers, and its gateway gets the answer. -/
theorem live_of_component {j : Talker d e} (hj : j = k ∨ j = k') (hk : Connected group s j)
    (hm : Short group m) {c : AsyncCapsule} (haddressed : c.dst.port = j.port) :
    ∃ y ∈ (sentFor d e s ⟨.component j.vm j.port, c⟩ m now id).flatMap
      (copies d e (.component j.vm j.port)),
      Live group k k' y := by
  obtain ⟨text, htext⟩ := answer_of_talkative j.talks (trim m.body)
  have hsent : sentFor d e s ⟨.component j.vm j.port, c⟩ m now id =
      [answerFrame (s.component j.vm j.port) j.port text id (now 0)] := by
    simp only [sentFor]
    rw [if_pos ⟨by rw [hm.2.1, hk.component], haddressed.symm⟩, answerFrames, htext]
  have hgroup : UInt8.ofInt (s.component j.vm j.port).currentGroupId = group := by
    rw [hk.component]
    exact uint8_ofInt_toNat group
  rw [hsent, List.flatMap_singleton]
  refine ⟨⟨.gateway j.vm, _⟩,
    List.mem_map_of_mem ((mem_audience_sharedMemory rfl).mpr ⟨List.mem_cons_self, by simp⟩), ?_⟩
  exact .forward _ j hj rfl ⟨rfl, hgroup, length_answers text (mem_answers htext)⟩ rfl rfl

/-- A gateway forwards what it gets from its components, and the gateway of the other car
gets it. -/
theorem live_of_forward {j j' : Talker d e} (hj' : j' = k ∨ j' = k') (hne : j.vm ≠ j'.vm)
    (h : Traffic d e s) (hk : Connected group s j) (hm : Short group m) {c : AsyncCapsule}
    (ho : c.origin = .sharedMemory) :
    ∃ y ∈ (sentFor d e s ⟨.gateway j.vm, c⟩ m now id).flatMap (copies d e (.gateway j.vm)),
      Live group k k' y := by
  have hshort := short_relayed (d.config j.vm) c hk.gateway hm (now 0)
  have hsent : sentFor d e s ⟨.gateway j.vm, c⟩ m now id =
    [⟨(s.gateway j.vm).localEp, ⟨Address.BROADCAST, GATEWAY_PORT⟩, .ethernet,
    buildMessage (relayed (s.gateway j.vm).proto GATEWAY_PORT (d.config j.vm).vmId
        (rxOfMessage m c).msg (now 0))⟩] := by
    simp only [sentFor]
    rw [if_neg (by simp [ho, hm.2.1, hk.gateway]), attempts_sharedMemory ho]
    refine List.filter_eq_self.mpr fun f hf => ?_
    obtain rfl := List.mem_singleton.mp hf
    exact fits_of_body rfl hshort.2.2
  rw [hsent, List.flatMap_singleton]
  refine ⟨⟨.gateway j'.vm, _⟩,
    List.mem_map_of_mem ((mem_audience_ethernet rfl).mpr ⟨j'.vm, hne.symm, .inl rfl, rfl⟩), ?_⟩
  refine .fanout _ j' hj' rfl hshort rfl rfl fun hmac => hne (d.mac_injective ?_)
  exact (h.address j.vm).symm.trans hmac

/-- A gateway fans out what it gets from the other car, and its talkative component gets it. -/
theorem live_of_fanout {j : Talker d e} (hj : j = k ∨ j = k') (hk : Connected group s j)
    (hm : Short group m) {c : AsyncCapsule} (ho : c.origin = .ethernet)
    (hforeign : c.src.mac ≠ d.mac j.vm) :
    ∃ y ∈ (sentFor d e s ⟨.gateway j.vm, c⟩ m now id).flatMap (copies d e (.gateway j.vm)),
      Live group k k' y := by
  obtain ⟨i, hi⟩ := List.getElem?_of_mem hk.peer
  have hshort := short_relayed (d.config j.vm) c hk.gateway hm (now i)
  let f : AsyncCapsule := ⟨(s.gateway j.vm).localEp, ⟨(s.gateway j.vm).proto.address, j.port⟩,
    .sharedMemory, buildMessage (relayed (s.gateway j.vm).proto GATEWAY_PORT (d.config j.vm).vmId
    (rxOfMessage m c).msg (now i))⟩
  have hf : f ∈ sentFor d e s ⟨.gateway j.vm, c⟩ m now id := by
    simp only [sentFor]
    rw [if_neg (by simp [ho, hforeign, hm.2.1, hk.gateway])]
    refine List.mem_filter.mpr ⟨?_, fits_of_body rfl hshort.2.2⟩
    simp only [attempts, rxOfMessage, ho]
    exact List.mem_map.mpr ⟨(j.port, i), List.mem_zipIdx_iff_getElem?.mpr hi, rfl⟩
  have hreceiver : Node.component j.vm j.port ∈ audience d e (.gateway j.vm) f :=
    (mem_audience_sharedMemory rfl).mpr ⟨component_mem_processes.mpr ⟨j.car, j.has⟩, by simp⟩
  exact ⟨⟨.component j.vm j.port, f⟩, List.mem_flatMap.mpr ⟨f, hf, List.mem_map_of_mem hreceiver⟩,
    .component _ j hj rfl hshort rfl rfl⟩

/-- What is sent for a live copy makes a live copy. -/
theorem live_of_live (h : Traffic d e s) (hne : k.vm ≠ k'.vm) (hk : Connected group s k)
    (hk' : Connected group s k') (hx : Live group k k' x)
    (hp : x.capsule.payload = buildMessage m) :
    ∃ y ∈ (sentFor d e s x m now id).flatMap (copies d e x.receiver), Live group k k' y := by
  have hconnected : ∀ j, j = k ∨ j = k' → Connected group s j := by
    rintro j (rfl | rfl)
    · exact hk
    · exact hk'
  have hsame : ∀ m', x.capsule.payload = buildMessage m' → m' = m :=
    fun m' hp' => buildMessage_injective (hp'.symm.trans hp)
  obtain ⟨receiver, c⟩ := x
  cases hx with
  | component m' j hj hp' hm hreceiver haddressed =>
    obtain rfl := hsame m' hp'
    obtain rfl : receiver = _ := hreceiver
    exact live_of_component hj (hconnected j hj) hm haddressed
  | forward m' j hj hp' hm hreceiver ho =>
    obtain rfl := hsame m' hp'
    obtain rfl : receiver = _ := hreceiver
    rcases hj with rfl | rfl
    · exact live_of_forward (.inr rfl) hne h hk hm ho
    · exact live_of_forward (.inl rfl) hne.symm h hk' hm ho
  | fanout m' j hj hp' hm hreceiver ho hforeign =>
    obtain rfl := hsame m' hp'
    obtain rfl : receiver = _ := hreceiver
    exact live_of_fanout hj (hconnected j hj) hm ho hforeign

def Action.isLoss : Action V → Bool
  | .lose _ => true
  | _ => false

/-- What a tick sends is a call of `send_local`, if anything. -/
theorem onTick_sends (kind : ComponentKind) (p : Instance) (port : UInt16) (angle : ℤ)
    (id time : UInt64) :
    (onTick kind p port angle id time).2 = .ok [] ∨
      ∃ text, (onTick kind p port angle id time).2 = sendLocal p port text id time := by
  cases kind with
  | powertrain => exact .inl rfl
  | _ => exact .inr ⟨_, rfl⟩

theorem putInFlight_data {v : V} {port : UInt16}
    {sent : Except CxxException (List Effect)} (s : State V)
    (hsent : ∀ effects, sent = .ok effects →
      ∀ f ∈ emitted false (s.component v port).address effects,
      ∃ m, f.payload = buildMessage m ∧ m.control = .NONE) :
    ∃ new, putInFlight d e s v port sent = { s with copies := s.copies ++ new } ∧ ∀ y ∈ new,
      CopyOk d e y := by
  cases sent with
  | error _ =>
    refine ⟨[], ?_, by simp⟩
    rw [putInFlight, List.append_nil]
  | ok effects =>
    refine ⟨_, rfl, fun y hy => ?_⟩
    obtain ⟨f, hf, hy⟩ := List.mem_flatMap.mp hy
    obtain ⟨m, hp, hm⟩ := hsent effects rfl f hf
    exact copyOk_of_mem_copies hp hm hy

/-- A tick puts data in flight and changes nothing else but an angle. -/
theorem step_tick {v : V} {port : UInt16} {id time : UInt64}
    (hs : step d e s (.tick v port id time) = some s') :
    ∃ angle new, s' = { s with angle := angle, copies := s.copies ++ new } ∧ ∀ y ∈ new,
      CopyOk d e y := by
  simp only [step, Option.ite_none_right_eq_some] at hs
  obtain ⟨-, hs⟩ := hs
  obtain rfl := Option.some.inj hs
  have hdata : ∀ effects, (onTick (e.kind v port) (s.component v port) port (s.angle v port) id
      time).2 = .ok effects →
      ∀ f ∈ emitted false (s.component v port).address effects, ∃ m, f.payload = buildMessage m ∧
        m.control = .NONE := by
    intro effects heffects f hf
    rcases onTick_sends (e.kind v port) (s.component v port) port (s.angle v port) id time with
      hnone | ⟨text, htext⟩
    · cases hnone.symm.trans heffects
      cases hf
    · obtain ⟨dst, data, rfl⟩ := mem_emitted_sendLocal (htext.symm.trans heffects) hf
      exact ⟨_, rfl, rfl⟩
  obtain ⟨new, heq, hnew⟩ := putInFlight_data { s with
    angle := Function.update s.angle v (Function.update (s.angle v) port
      (onTick (e.kind v port) (s.component v port) port (s.angle v port) id time).1) } hdata
  exact ⟨_, new, heq, hnew⟩

/-- Steps without a loss keep the machines as they are, and a live copy in flight. -/
theorem live_step (hne : k.vm ≠ k'.vm) (h : Traffic d e s) (hk : Connected group s k)
    (hk' : Connected group s k') (hlive : ∃ x ∈ s.copies, Live group k k' x) {b : Action V}
    (hb : b.isLoss = false) (hs : step d e s b = some s') :
    Traffic d e s' ∧ Connected group s' k ∧ Connected group s' k' ∧ ∃ x ∈ s'.copies,
      Live group k k' x := by
  cases b with
  | deliver i now stray id =>
    obtain ⟨x, m, angle, hi, hp, hm, rfl⟩ := step_deliver h hs
    refine ⟨h.deliver hm angle, ⟨hk.1, hk.2, hk.3⟩, ⟨hk'.1, hk'.2, hk'.3⟩, ?_⟩
    exact Replaces.live (Live group k k') ⟨i, hi, rfl⟩ (fun hx =>
      live_of_live h hne hk hk' hx hp) hlive
  | lose i => cases hb
  | tick v port id time =>
    obtain ⟨angle, new, rfl, hnew⟩ := step_tick hs
    obtain ⟨x, hx, hlive⟩ := hlive
    refine ⟨h.put (fun y hy => ?_) angle, ⟨hk.1, hk.2, hk.3⟩, ⟨hk'.1, hk'.2, hk'.3⟩, x,
      List.mem_append_left _ hx, hlive⟩
    rcases List.mem_append.mp hy with hy | hy
    · exact h.copyOk hy
    · exact hnew y hy

/-- Two cars with talkative components never fall silent: once one of them has been sent a
message of the group, then as long as nothing is lost there is a copy in flight, whatever is
delivered and whoever ticks, and so there are runs of any length without a tick. -/
theorem talkers_never_silent (hne : k.vm ≠ k'.vm) (h : Traffic d e s) (hk : Connected group s k)
    (hk' : Connected group s k') (hlive : ∃ x ∈ s.copies, Live group k k' x) {t : State V}
    (ht : Reaches (step d e) (fun _ b => b.isLoss = false) s t) :
    t.copies ≠ [] ∧ ∀ n, ∃ as u, as.length = n ∧ run
      (only (fun b => !b.isTick && !b.isLoss) (step d e)) t as = some u := by
  let I : State V → Prop := fun t => Traffic d e t ∧ Connected group t k ∧ Connected group t k' ∧
    ∃ x ∈ t.copies, Live group k k' x
  have hI : I t := ht.invariant I ⟨h, hk, hk', hlive⟩ fun t b u ⟨h, hk, hk', hlive⟩ hb hu =>
    live_step hne h hk hk' hlive hb hu
  refine ⟨fun hnil => ?_, fun n => ?_⟩
  · obtain ⟨-, -, -, x, hx, -⟩ := hI
    rw [hnil] at hx
    cases hx
  · clear ht
    induction n generalizing t with
    | zero => exact ⟨[], t, rfl, rfl⟩
    | succ n ih =>
      obtain ⟨ht, hc, hc', x, hx, hxlive⟩ := hI
      obtain ⟨i, hi⟩ := List.getElem?_of_mem hx
      let b : Action V := .deliver i (fun _ => 0) (fun _ => 0) 0
      obtain ⟨u, hu⟩ : ∃ u, step d e t b = some u :=
        ⟨_, by simp only [b, step, hi, Option.map_some]; rfl⟩
      obtain ⟨as, w, hlen, hrun⟩ := ih (live_step hne ht hc hc' ⟨x, hx, hxlive⟩ rfl hu)
      refine ⟨b :: as, w, by rw [List.length_cons, hlen], ?_⟩
      rw [run, only_eq_some.mpr ⟨rfl, hu⟩]
      exact hrun

end Talkers

/-! ## Cars with all components -/

section Full

def allPorts : List UInt16 :=
  [POWERTRAIN_PORT, BRAKE_PORT, STEERING_PORT, TRANSMISSION_PORT, AIRBAG_PORT]

/-- The class that is constructed with this port. -/
def kindAt (port : UInt16) : ComponentKind :=
  if port = BRAKE_PORT then .brake
  else if port = STEERING_PORT then .steering
  else if port = TRANSMISSION_PORT then .transmission
  else if port = AIRBAG_PORT then .airbag
  else .powertrain

/-- Some cars have all components, the others those that `Car` constructs. -/
def fullFor (full : V → Bool) : Equipment V where
  ports v := if full v then allPorts else componentPorts
  kind _ port := kindAt port
  nodup v := by
    split
    · decide
    · decide
  ne_any v := by
    have hnone : ANY_PORT ∉ allPorts := by decide
    have hall : ∀ port ∈ allPorts, port ≠ ANY_PORT := fun port hport heq => hnone (heq ▸ hport)
    have hsome : ∀ port ∈ componentPorts, port ≠ ANY_PORT := fun _ => ne_anyPort_of_mem
    split
    · exact hall
    · exact hsome

/-- All machines run in group 0, and the brake of one of them has just sent an alarm. -/
def alarmIn (d : Deployment V) (e : Equipment V) (v : V) : State V where
  gateway w := { runningGateway d w with peerPorts := setPeerPorts GATEWAY_PORT (e.ports w) }
  component := runningComponent d
  angle _ _ := 0
  copies := [⟨.gateway v, ⟨⟨d.mac v, BRAKE_PORT⟩, ⟨d.mac v, GATEWAY_PORT⟩, .sharedMemory,
    buildMessage { body := ascii "brake!" }⟩⟩]

theorem traffic_alarmIn (v : V) : Traffic d e (alarmIn d e v) where
  hears _ := rfl
  address _ := rfl
  listens _ := rfl
  componentAddress _ _ := rfl
  componentListens _ _ := rfl
  receiver x hx := by
    obtain rfl := List.mem_singleton.mp hx
    exact List.mem_cons_self
  data x hx := by
    obtain rfl := List.mem_singleton.mp hx
    exact ⟨_, rfl, rfl⟩

/-- One of two cars has all components: what the alarm of the other one sets off ends. -/
theorem one_full_car_falls_silent :
    talkative ((fullFor fun v : Fin 2 => v == 1).kind 1 STEERING_PORT) = true ∧
      ∃ n, ∀ as t, run (only (fun b => !b.isTick) (step RelayOnce.twoCars (fullFor
        fun v => v == 1)))
        (alarmIn RelayOnce.twoCars (fullFor fun v => v == 1) 0) as = some t → as.length ≤ n := by
  refine ⟨by decide, cascade_ends_beside (traffic_alarmIn 0) (a := 1) fun v hv _ port hport => ?_⟩
  obtain rfl : v = 0 := by omega
  have hmem : port ∈ componentPorts := hport
  simp only [componentPorts, List.mem_cons, List.not_mem_nil, or_false] at hmem
  rcases hmem with rfl | rfl <;> decide

/-- The steering component of a car that has all components. -/
def steeringOf (v : Fin 2) : Talker RelayOnce.twoCars (fullFor fun _ => true) where
  vm := v
  port := STEERING_PORT
  car := by revert v; decide
  has := (by decide : STEERING_PORT ∈ allPorts)
  talks := (by decide : talkative (kindAt STEERING_PORT) = true)

/-- Both cars have all components: after one alarm they never fall silent. -/
theorem two_full_cars_never_silent :
    ∃ t, Reaches (step RelayOnce.twoCars (fullFor fun _ => true)) (fun _ b => b.isLoss = false)
        (alarmIn RelayOnce.twoCars (fullFor fun _ => true) 0) t ∧ t.copies.length = 25 ∧
      ∀ n, ∃ as u, as.length = n ∧ run (only (fun b => !b.isTick && !b.isLoss)
        (step RelayOnce.twoCars (fullFor fun _ => true))) t as = some u := by
  have hrun : (run (step RelayOnce.twoCars (fullFor fun _ => true))
      (alarmIn RelayOnce.twoCars (fullFor fun _ => true) 0)
      [.deliver 0 (fun _ => 0) (fun _ => 0) 0, .deliver 0 (fun _ => 0) (fun _ => 0) 0]).map
        (fun t => t.copies.length) = some 25 := by
    decide +kernel
  obtain ⟨t, ht, hlen⟩ := Option.map_eq_some_iff.mp hrun
  have hreaches : Reaches (step RelayOnce.twoCars (fullFor fun _ => true)) (fun _ b =>
      b.isLoss = false)
      (alarmIn RelayOnce.twoCars (fullFor fun _ => true) 0) t := by
    refine reaches_run _ .refl (fun _ _ b hb _ => ?_) ht
    simp only [List.mem_cons, List.not_mem_nil, or_false, or_self] at hb
    rw [hb]
    rfl
  have hlive : ∃ x ∈ (alarmIn RelayOnce.twoCars (fullFor fun _ => true) 0).copies,
      Live 0 (steeringOf 0) (steeringOf 1) x :=
    ⟨_, List.mem_singleton.mpr rfl,
      .forward _ (steeringOf 0) (.inl rfl) rfl ⟨rfl, rfl, by decide⟩ rfl rfl⟩
  have hconnected : ∀ v, Connected 0 (alarmIn RelayOnce.twoCars (fullFor fun _ => true) 0)
      (steeringOf v) :=
    fun _ => ⟨rfl, rfl, (by decide : STEERING_PORT ∈ setPeerPorts GATEWAY_PORT allPorts)⟩
  exact ⟨t, hreaches, hlen,
    (talkers_never_silent (by decide) (traffic_alarmIn 0) (hconnected 0) (hconnected 1) hlive
    hreaches).2⟩

end Full

end CarNetwork.Components
