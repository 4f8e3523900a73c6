import CarNetwork.BarrierStep
import CarNetwork.ClockMessages

/-!
# Soundness of the clock measurements

Runs of the fleet with a time: it does not go back, and what a machine reads from its
clock while it handles a copy is the time plus an offset of that machine. The
readings a clock message carries were made before it was sent, by the two machines
it goes between, whatever is lost, duplicated or reordered.
-/
namespace CarNetwork.Fleet

open CarNetwork.ByteText CarNetwork.Ethernet CarNetwork.Protocol CarNetwork.Car
open CarNetwork.Conversions CarNetwork.Runs

variable {V : Type} [DecidableEq V]

/-- A step of the fleet, with the time at its end. -/
def timedStep (d : Deployment V) (st : State V × ℤ) (act : Action V × ℤ) : Option (State V × ℤ) :=
  (step d st.1 act.1).map (·, act.2)

/-- Time does not go back, and the readings made in a delivery are made between its
beginning and its end, on a clock below `2 ^ 62` that is `offset` ahead. -/
def OnTime (offset : V → ℤ) (st : State V × ℤ) (act : Action V × ℤ) : Prop :=
  st.2 ≤ act.2 ∧ ∀ i now stray f, act.1 = .deliver i now stray → st.1.inFlight[i]? = some f →
    ∀ k, (now k).toNat < 2 ^ 62 ∧ st.2 ≤ (now k).toNat - offset f.receiver.vm ∧
      (now k).toNat - offset f.receiver.vm ≤ act.2

/-- What is true of a clock message between two gateways: it stays in one group, one end
of it is the coordinator, and its readings are in causal order. -/
def ClockFact (d : Deployment V) (offset : V → ℤ) (time : ℤ) (f : Flight V) (body : Bytes) :
    ControlType → Prop
  | .SYNC_REQ => ∀ w, f.sender = .gateway w → f.senderGroup = (d.group w).toNat
  | .SYNC_RESP => ∀ c w, f.sender = .gateway c → f.receiver = .gateway w →
    d.isCoordinator c = true ∧ d.group c = d.group w ∧ ∃ t1 rest,
      scanUnsignedLong body = some (t1, rest) ∧ t1.toNat < 2 ^ 62 ∧ (t1.toNat : ℤ) - offset c ≤ time
  | .DELAY_REQ => ∀ w c, f.sender = .gateway w → f.receiver = .gateway c →
    d.isCoordinator c = true ∧ d.group c = d.group w ∧ ∃ t1 t2 : UInt64,
      scanDelayReq body = some (t1, t2, t2) ∧ t1.toNat < 2 ^ 62 ∧ t2.toNat < 2 ^ 62 ∧
      (t1.toNat : ℤ) - offset c ≤ t2.toNat - offset w ∧ (t2.toNat : ℤ) - offset w ≤ time
  | .DELAY_RESP => ∀ c w, f.sender = .gateway c → f.receiver = .gateway w →
    d.isCoordinator c = true ∧ d.group c = d.group w ∧
      SoundSample (offset w - offset c) (scanDelayResp body).1 (scanDelayResp body).2
  | _ => True

def FlightOk (d : Deployment V) (offset : V → ℤ) (time : ℤ) (f : Flight V) : Prop :=
  ∀ e q src t, f.kind = .control e.type → f.capsule.payload = Emission.wire SECRET_KEY e q src t →
    ClockFact d offset time f (cleanBody e.body) e.type

/-- The sample is sound for the clocks of the worker and of a coordinator of its group. -/
def SampleOk (d : Deployment V) (offset : V → ℤ) (node : Node V) (o r : ℤ) : Prop :=
  ∃ w c, node = .gateway w ∧ d.isCoordinator c = true ∧ d.group c = d.group w ∧
    SoundSample (offset w - offset c) o r

structure ClockInv (d : Deployment V) (offset : V → ℤ) (st : State V × ℤ) : Prop where
  wellFormed : WellFormed d st.1
  flights : ∀ f ∈ st.1.inFlight, FlightOk d offset st.2 f
  samples : ∀ e ∈ st.1.log, ∀ o r, e.effect = .ptpSample o r → SampleOk d offset e.node o r

section Facts

variable {d : Deployment V} {offset : V → ℤ} {time time' : ℤ} {f : Flight V}

theorem ClockFact.mono {body : Bytes} {t : ControlType} (hle : time ≤ time')
    (h : ClockFact d offset time f body t) : ClockFact d offset time' f body t := by
  cases t with
  | SYNC_RESP =>
    intro c w hs hr
    obtain ⟨hc, hg, t1, rest, hscan, hlt, ht⟩ := h c w hs hr
    exact ⟨hc, hg, t1, rest, hscan, hlt, ht.trans hle⟩
  | DELAY_REQ =>
    intro w c hs hr
    obtain ⟨hc, hg, t1, t2, hscan, hlt1, hlt2, h12, ht⟩ := h w c hs hr
    exact ⟨hc, hg, t1, t2, hscan, hlt1, hlt2, h12, ht.trans hle⟩
  | _ => exact h

theorem FlightOk.mono (hle : time ≤ time') (h : FlightOk d offset time f) :
    FlightOk d offset time' f :=
  fun e q src t hk hp => (h e q src t hk hp).mono hle

theorem flightOk_of_wire {e : Emission} {q : Instance} {src : Endpoint} {t : UInt64}
    (hp : f.capsule.payload = e.wire SECRET_KEY q src t)
    (h : ClockFact d offset time f (cleanBody e.body) e.type) : FlightOk d offset time f := by
  intro e' q' src' t' _ hp'
  obtain ⟨htype, hbody⟩ := Emission.of_wire_eq (hp'.symm.trans hp)
  rwa [htype, hbody]

theorem flightOk_of_kind (h : ∀ t, f.kind = .control t → ∀ body, ClockFact d offset time f body t) :
    FlightOk d offset time f :=
  fun _ _ _ _ hk _ => h _ hk _

/-- A reply to another machine goes there and nowhere else. -/
theorem receiver_of_reply {v w u : V} {group : ℤ} {kind : SendKind} {src dst : Endpoint}
    {payload : Bytes} (hdst : dst.mac = d.mac w) (hne : w ≠ v)
    (hf : f ∈ copies d (.gateway v) group (.transmit kind src dst payload))
    (hr : f.receiver = .gateway u) : u = w := by
  obtain ⟨r, hmem, rfl⟩ := mem_copies hf
  obtain ⟨u', -, hu', hmac⟩ := mem_receivers_gateway (hdst ▸ d.mac_ne hne) hmem
  cases hu'.symm.trans hr
  rcases hmac with hb | hmac
  · exact (d.individual w (hdst ▸ hb)).elim
  · exact d.mac_injective (hmac.symm.trans hdst)

theorem flightOk_of_reply (e : Emission) {v w : V} {group : ℤ} {q : Instance}
    {src ctl dst : Endpoint} {t : UInt64} (hdst : dst.mac = d.mac w) (hne : w ≠ v)
    (hfact : ∀ f' : Flight V, (∀ u, f'.sender = .gateway u → u = v) →
      (∀ u, f'.receiver = .gateway u → u = w) → ClockFact d offset time f'
        (cleanBody e.body) e.type) (hf :
          f ∈ copies d (.gateway v) group
            (.transmit (.control e.type) src dst (e.wire SECRET_KEY q ctl t))) :
    FlightOk d offset time f := by
  have hreceiver := fun u => receiver_of_reply (u := u) hdst hne hf
  obtain ⟨r, -, rfl⟩ := mem_copies hf
  refine flightOk_of_wire rfl (hfact _ (fun u hu => ?_) hreceiver)
  cases hu
  rfl

end Facts

section Step

variable {d : Deployment V} {offset : V → ℤ}

/-- A master is the coordinator of its group and has joined it. -/
theorem group_of_master {v : V} {g : Gateway} (h : GatewayOk d v g) (hm : g.proto.isMaster = true) :
    d.isCoordinator v = true ∧ g.proto.currentGroupId = (d.group v).toNat := by
  rw [h.isMaster, Bool.and_eq_true] at hm
  refine ⟨hm.2, ?_⟩
  have hj : g.phase.hasJoined = true := by
    cases hph : g.phase <;> simp_all [Phase.hasRole, Phase.hasJoined]
  rw [h.group, if_pos hj]

/-- What the effects of a handler must satisfy: copies of clock messages have their fact,
and samples are sound. -/
def EffectOk (d : Deployment V) (offset : V → ℤ) (time : ℤ) (v : V) (group : ℤ)
    (x : Effect) : Prop :=
  (∀ f ∈ copies d (.gateway v) group x, FlightOk d offset time f) ∧
  ∀ o r, x = .ptpSample o r → SampleOk d offset (.gateway v) o r

theorem effectOk_of_kind {time : ℤ} {v : V} {group : ℤ} {kind : SendKind} {src dst : Endpoint}
    {payload : Bytes} (hkind : ∀ t, kind = .control t → ∀ f : Flight V, f.sender = .gateway v →
      f.senderGroup = group → ∀ body, ClockFact d offset time f body t) :
    EffectOk d offset time v group (.transmit kind src dst payload) := by
  refine ⟨fun f hf => ?_, by simp⟩
  obtain ⟨r, -, rfl⟩ := mem_copies hf
  exact flightOk_of_kind fun t ht body => hkind t ht _ rfl rfl body

/-- Nothing is asked of effects that are neither frames nor samples. -/
theorem effectOk_of_quiet {time : ℤ} {v : V} {group : ℤ} {x : Effect}
    (hframe : ∀ kind src dst payload, x ≠ .transmit kind src dst payload)
    (hsample : ∀ o r, x ≠ .ptpSample o r) : EffectOk d offset time v group x := by
  refine ⟨fun f hf => ?_, fun o r hx => (hsample o r hx).elim⟩
  cases x with
  | transmit kind src dst payload => exact (hframe _ _ _ _ rfl).elim
  | _ => cases hf

theorem effectOk_of_reply (e : Emission) {time : ℤ} {v w : V} {group : ℤ} {q : Instance}
    {src ctl dst : Endpoint} {t : UInt64} (hdst : dst.mac = d.mac w) (hne : w ≠ v)
    (hfact : ∀ f : Flight V, (∀ u, f.sender = .gateway u → u = v) →
      (∀ u, f.receiver = .gateway u → u = w) → ClockFact d offset time f
        (cleanBody e.body) e.type) :
    EffectOk d offset time v group
      (.transmit (.control e.type) src dst (e.wire SECRET_KEY q ctl t)) :=
  ⟨fun _ hf => flightOk_of_reply e hdst hne hfact hf, by simp⟩

section Answers

variable {v w : V} {f : Flight V} {g : Gateway} {q : Instance} {src : Endpoint}
  {t : UInt64} {env : Env}
  {begins ends group : ℤ} {x : Effect}

/-- The answer to a clock message satisfies its fact when the message does, and a sample
is sound. -/
theorem effectOk_of_sync {e : Emission} (hg : GatewayOk d v g) (hkey : env.key = SECRET_KEY)
    (he : e.Sync) (hsender : f.sender = .gateway w) (hne : w ≠ v)
    (hmac : f.capsule.src.mac = d.mac w) (hgroup : q.currentGroupId = f.senderGroup)
    (hr : f.receiver = .gateway v)
    (hfact : ClockFact d offset begins f (cleanBody e.body) e.type)
    (hnow : (env.now 0).toNat < 2 ^ 62 ∧ begins ≤ (env.now 0).toNat - offset v ∧
      (env.now 0).toNat - offset v ≤ ends)
    (hx : x ∈ (handleSync env g.proto (received e q src t) f.capsule e).effects) :
    EffectOk d offset ends v group x := by
  obtain ⟨hlt, hbegins, hends⟩ := hnow
  cases e with
  | ready =>
    obtain ⟨src', dst, payload, rfl⟩ := mem_onReady hx
    refine effectOk_of_kind fun t ht _ _ _ _ => ?_
    cases ht
    trivial
  | go =>
    rw [mem_onGo hx]
    exact effectOk_of_quiet (by simp) (by simp)
  | syncReq =>
    obtain ⟨hint, hm, rfl⟩ := mem_onSyncReq hx
    obtain ⟨hc, hgv⟩ := group_of_master hg hm
    have hsame : d.group v = d.group w := by
      have hw : f.senderGroup = (d.group w).toNat := hfact w hsender
      simp only [isMessageInternal, received, controlMessage, hgroup, hw, hgv, uint8_ofInt_toNat,
        decide_eq_true_eq] at hint
      exact UInt8.toNat_inj.mp (by exact_mod_cast hint.symm)
    rw [hkey]
    refine effectOk_of_reply (.syncResp (env.now 0)) hmac hne fun f' hs hr' a b ha hb => ?_
    rw [hs a ha, hr' b hb]
    exact ⟨hc, hsame, env.now 0, [], scan_syncResp _, hlt, hends⟩
  | syncResp t0 =>
    obtain ⟨hc, hsame, t1, rest, hscan, hlt1, ht1⟩ := hfact w v hsender hr
    have hbody : scanUnsignedLong (received (.syncResp t0) q src t).body = some (t1, rest) := hscan
    rw [mem_onSyncResp hbody hx, hkey]
    refine effectOk_of_reply (.delayReq t1 (env.now 0) (env.now 0)) hmac hne
      fun f' hs hr' a b ha hb => ?_
    rw [hs a ha, hr' b hb]
    exact ⟨hc, hsame, t1, env.now 0, scan_delayReq _ _ _, hlt1, hlt, ht1.trans hbegins, hends⟩
  | delayReq s1 s2 s3 =>
    obtain ⟨hc, hsame, t1, t2, hscan, hlt1, hlt2, h12, ht2⟩ := hfact w v hsender hr
    have hbody : scanDelayReq (received (.delayReq s1 s2 s3) q src t).body = some (t1, t2, t2) :=
      hscan
    rw [mem_onDelayReq hbody hx, hkey]
    refine effectOk_of_reply (.delayResp (ptpOffset t1 t2 t2 (env.now 0))
      (ptpRtt t1 t2 t2 (env.now 0)))
      hmac hne fun f' hs hr' a b ha hb => ?_
    obtain ⟨ho, hrtt⟩ := inLongLong_ptp hlt1 hlt2 hlt
    rw [hs a ha, hr' b hb, scan_delayResp ho hrtt]
    refine ⟨hc, hsame, ?_⟩
    dsimp only
    exact soundSample_of_causal hlt1 hlt2 hlt (by omega) (by omega)
  | delayResp o0 r0 =>
    obtain ⟨hc, hsame, hsound⟩ := hfact w v hsender hr
    rcases mem_onDelayResp hx with rfl | ⟨us, rfl⟩
    · refine ⟨fun f' hf' => (List.not_mem_nil hf').elim, fun o r hor => ?_⟩
      cases hor
      exact ⟨v, w, rfl, hc, hsame, hsound⟩
    · exact effectOk_of_quiet (by simp) (by simp)
  | _ => exact he.elim

/-- A delivery to a gateway has effects that are in order. -/
theorem effectOk_of_delivered {g' : Gateway} {effects : List Effect} (hg : GatewayOk d v g)
    (hkey : env.key = SECRET_KEY) (hr : f.receiver = .gateway v) (hf : FlightOk d offset begins f)
    (hnow : (env.now 0).toNat < 2 ^ 62 ∧ begins ≤ (env.now 0).toNat - offset v ∧
      (env.now 0).toNat - offset v ≤ ends)
    (hd : Delivered d v env f g g' effects) (hx : x ∈ effects) :
    EffectOk d offset ends v group x := by
  cases hd with
  | ignored => cases hx
  | packet m _ hh hkind heffects =>
    rcases heffects x hx with ⟨po, rfl, -⟩ | ⟨rx, -, hx⟩
    · exact effectOk_of_quiet (by simp) (by simp)
    · obtain ⟨src, dst, m, rfl, -⟩ := Gateway.mem_onReceive hx
      exact effectOk_of_kind (by simp)
  | sync e q src t w hh hkind hpayload he hsender hne hmac hgroup =>
    rcases List.mem_append.mp hx with hx | hx
    · exact effectOk_of_sync hg hkey he hsender hne hmac hgroup hr
        (hf e q src t hkind hpayload) hnow hx
    · split at hx
      · have htype : (received e q src t).control ≠ .NONE := by
          cases e <;> simp [received, controlMessage, Emission.type]
        obtain ⟨po, rfl, -⟩ := mem_forward_control htype hx
        exact effectOk_of_quiet (by simp) (by simp)
      · cases hx

end Answers

variable {s s' : State V} {a : Action V} {time time' : ℤ}

/-- A step of a gateway keeps the invariant when its effects are in order. -/
theorem clockInv_perform {v : V} {group : ℤ} {cause : Option (Flight V)} {effects : List Effect}
    {base : State V} (hwf : WellFormed d (perform d base (.gateway v) group cause effects))
    (hle : time ≤ time') (hinv : ClockInv d offset (s, time))
    (hflights : ∀ f ∈ base.inFlight, f ∈ s.inFlight) (hlog : base.log = s.log)
    (heffects : ∀ x ∈ effects, EffectOk d offset time' v group x) :
    ClockInv d offset (perform d base (.gateway v) group cause effects, time') := by
  refine ⟨hwf, fun f hf => ?_, fun e he o r heq => ?_⟩
  · rcases mem_inFlight_perform.mp hf with hf | ⟨x, hx, hf⟩
    · exact (hinv.flights f (hflights f hf)).mono hle
    · exact (heffects x hx).1 f hf
  · rcases List.mem_append.mp he with he | he
    · exact hinv.samples e (hlog ▸ he) o r heq
    · obtain ⟨x, hx, rfl⟩ := List.mem_map.mp he
      exact (heffects x hx).2 o r heq

theorem clockInv_step (hok : OnTime offset (s, time) (a, time'))
    (hinv : ClockInv d offset (s, time)) (h : step d s a = some s') :
    ClockInv d offset (s', time') := by
  have hwf := hinv.wellFormed
  have hwf' := wellFormed_step hwf h
  obtain ⟨hle, hreads⟩ := hok
  cases step_cases hwf h with
  | act v act g effects hact =>
    refine clockInv_perform hwf' hle hinv (fun f hf => hf) rfl fun x hx => ?_
    cases Gateway.ownSend_of_act hact hx with
    | group kind src dst payload hkind =>
      refine effectOk_of_kind fun t ht _ _ _ _ => ?_
      rcases hkind with rfl | rfl | rfl <;> cases ht <;> trivial
    | ready =>
      refine effectOk_of_kind fun t ht _ _ _ _ => ?_
      cases ht
      trivial
    | syncReq src payload hrunning =>
      refine effectOk_of_kind fun t ht f hs hgroup _ => ?_
      cases ht
      intro w hw
      cases hs.symm.trans hw
      have hb : (s.gateways v).phase.atBarrier = true := by rw [hrunning]; rfl
      rw [hgroup, ((hwf.gateways v).act hact).joined_group (atBarrier_act hact hb)]
  | deliver i now stray f v g effects hi hr hd =>
    have hnow := hreads i now stray f rfl hi 0
    rw [hr] at hnow
    refine clockInv_perform hwf' hle hinv (fun f hf => List.mem_of_mem_eraseIdx hf) rfl
      fun x hx => ?_
    exact effectOk_of_delivered (hwf.gateways v) rfl hr
      (hinv.flights f (List.mem_of_getElem? hi)) hnow
      hd hx
  | background _ _ hb =>
    obtain ⟨v, port, group, cause, es, hlog, hflights, -, -, -, hes⟩ := hb.effects
    refine ⟨hwf', fun f hf => ?_, fun e he o r heq => ?_⟩
    · rcases hflights f hf with hf | ⟨x, hx, hf⟩
      · exact (hinv.flights f hf).mono hle
      · cases hes x hx with
        | send kind src dst payload hkind =>
          refine flightOk_of_kind fun t ht body => ?_
          obtain ⟨r, -, rfl⟩ := mem_copies hf
          rcases hkind with rfl | rfl | rfl <;> cases ht
          trivial
        | packet => cases hf
    · dsimp only at he
      rw [hlog] at he
      rcases List.mem_append.mp he with he | he
      · exact hinv.samples e he o r heq
      · obtain ⟨x, hx, rfl⟩ := List.mem_map.mp he
        cases hes x hx <;> cases heq

/-- Soundness of the measurement: in every run of the fleet on clocks with constant
offsets, with any loss, duplication and reordering, every sample that is passed to
`addPtpSample` has a round trip that is not negative, and twice its offset is twice
the difference of the worker's clock and the clock of its group's coordinator up to
the round trip and one for the rounding. -/
theorem samples_sound (hcoord : d.Coordinated) {time₀ : ℤ}
    (h : Reaches (timedStep d) (OnTime offset) (initial d, time₀) (s, time)) {e : Event V}
    (he : e ∈ s.log) {o r : ℤ} (heq : e.effect = .ptpSample o r) :
    ∃ w, e.node = .gateway w ∧ ∀ c, d.isCoordinator c = true → d.group c = d.group w →
      0 ≤ r ∧ |2 * o - 2 * (offset w - offset c)| ≤ r + 1 := by
  have hinv : ClockInv d offset (s, time) := by
    refine h.invariant (ClockInv d offset) ⟨wellFormed_initial d,
      by simp [initial], by simp [initial]⟩ ?_
    rintro ⟨s, time⟩ ⟨a, time'⟩ ⟨s', t'⟩ hinv hok hstep
    simp only [timedStep, Option.map_eq_some_iff, Prod.mk.injEq] at hstep
    obtain ⟨u, hu, rfl, rfl⟩ := hstep
    exact clockInv_step hok hinv hu
  obtain ⟨w, c, hnode, hc, hgroup, hsound⟩ := hinv.samples e he o r heq
  refine ⟨w, hnode, fun c' hc' hgroup' => ?_⟩
  have hunique : c' = c := (hcoord w).unique ⟨hc', hgroup'⟩ ⟨hc, hgroup⟩
  rw [hunique]
  exact hsound

end Step

/-- The condition of a timed run, for deliveries that read the clock always the same. -/
def onTimeAt (offset : V → ℤ) (st : State V × ℤ) (act : Action V × ℤ) : Bool :=
  decide (st.2 ≤ act.2) && match act.1 with
    | .deliver i now _ =>
      match st.1.inFlight[i]? with
      | none => true
      | some f =>
        decide ((now 0).toNat < 2 ^ 62) && decide (st.2 ≤ (now 0).toNat - offset f.receiver.vm) &&
          decide ((now 0).toNat - offset f.receiver.vm ≤ act.2)
    | _ => true

omit [DecidableEq V] in
theorem onTime_of_onTimeAt {offset : V → ℤ} {st : State V × ℤ} {act : Action V × ℤ}
    (hconst : ∀ i now stray, act.1 = .deliver i now stray → ∀ k, now k = now 0)
    (h : onTimeAt offset st act = true) : OnTime offset st act := by
  simp only [onTimeAt, Bool.and_eq_true, decide_eq_true_eq] at h
  refine ⟨h.1, fun i now stray f hact hi k => ?_⟩
  rw [hconst i now stray hact k]
  simpa [hact, hi, and_assoc] using h.2

/-- One exchange, with the car's clock 1000 ahead and delays of 10 and 31. -/
def exchangeRun : List (Action (Fin 2) × ℤ) :=
  (barrierRun 1 0).map (·, 0) ++
    [(.lose 0, 0), (.deliver 0 (fun _ => 0) (fun _ => 0), 0),
      (.deliver 0 (fun _ => 1000) (fun _ => 0), 0), (.gateway 1 .leaveBarrier, 0),
      (.gateway 1 (.tick fun _ => 3000000), 0),
      (.deliver 1 (fun _ => 5000) (fun _ => 0), 5000),
      (.deliver 1 (fun _ => 6010) (fun _ => 0), 5010),
      (.deliver 1 (fun _ => 5041) (fun _ => 0), 5041),
      (.deliver 1 (fun _ => 6060) (fun _ => 0), 5060)]

def delivers : Action V → Bool
  | .deliver _ _ _ => true
  | _ => false

theorem exchangeRun_clocks {act : Action (Fin 2) × ℤ} (hact : act ∈ exchangeRun) {i : ℕ}
    {now : ℕ → UInt64} {stray : ℤ → ℤ} (h : act.1 = .deliver i now stray) (k : ℕ) :
    now k = now 0 := by
  rcases List.mem_append.mp hact with hact | hact
  · obtain ⟨a, ha, rfl⟩ := List.mem_map.mp hact
    have hno : (barrierRun 1 0).all (fun a => !delivers a) = true := by decide
    have := List.all_eq_true.mp hno a ha
    simp [show a = .deliver i now stray from h, delivers] at this
  · simp only [List.mem_cons, List.not_mem_nil, or_false] at hact
    rcases hact with rfl | rfl | rfl | rfl | rfl | rfl | rfl | rfl | rfl <;> cases h <;> rfl

theorem exchangeRun_sound :
    ∃ s time, oneCar.Coordinated ∧
      Reaches (timedStep oneCar) (OnTime ![0, 1000]) (initial oneCar, 0) (s, time) ∧
      ∃ e ∈ s.log, e.effect = .ptpSample 989 41 ∧ ∃ w, e.node = .gateway w ∧
        ∀ c, oneCar.isCoordinator c = true → oneCar.group c = oneCar.group w →
          0 ≤ (41 : ℤ) ∧ |2 * 989 - 2 * (![0, 1000] w - ![0, 1000] c)| ≤ 41 + (1 : ℤ) := by
  have hcoord : oneCar.Coordinated := by
    have h : ∀ v : Fin 2, ∃ c, (oneCar.isCoordinator c = true ∧ oneCar.group c = oneCar.group v) ∧
        ∀ y, oneCar.isCoordinator y = true ∧ oneCar.group y = oneCar.group v → y = c := by
      decide +kernel
    exact h
  have hrun : ((runIf (onTimeAt ![0, 1000]) (timedStep oneCar) (initial oneCar, 0) exchangeRun).map
      fun st => st.1.log.any fun e => match e.effect with
        | .ptpSample o r => decide (o = 989 ∧ r = 41)
        | _ => false) = some true := by decide +kernel
  obtain ⟨⟨s, time⟩, hs, hobs⟩ := exists_reaches_of_runIf (OnTime ![0, 1000]) exchangeRun
    (fun _ _ hact => onTime_of_onTimeAt fun _ _ _ => exchangeRun_clocks hact) hrun
  obtain ⟨e, he, hsample⟩ := List.any_eq_true.mp hobs
  have heq : e.effect = .ptpSample 989 41 := by
    revert hsample
    cases e.effect <;> simp
  exact ⟨s, time, hcoord, hs, e, he, heq, samples_sound hcoord hs he heq⟩

end CarNetwork.Fleet
