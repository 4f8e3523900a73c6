import CarNetwork.ClockHistory
import CarNetwork.Runs

/-!
# One clock exchange after another

A worker and its master over any number of exchanges. The worker keeps its samples from
one exchange to the next, and what the operating system makes of a correction decides
with which difference of the clocks the next exchange starts. How much of a correction
`adjtimex` carries out, and how fast, is left open: a kernel is a test on what was asked
for and how far the clock moved.
-/
namespace CarNetwork.ClockFeedback

open CarNetwork.Runs CarNetwork.Conversions CarNetwork.Ethernet CarNetwork.ClockSync
  CarNetwork.Protocol

/-! ## An exchange with the state it leaves -/

/-- Reception by one side, and its state after that. -/
def after (stray : ℤ → ℤ) (now : ℕ → UInt64) (p : Instance) (c : AsyncCapsule) : Option Instance :=
  match update { now, stray } p c with
  | .ok (p, _) => some p
  | .error _ => none

/-- A complete exchange: the state it leaves the worker in, and the correction asked for. -/
def round (stray : ℤ → ℤ) (master worker : Instance) (request : AsyncCapsule)
    (now1 now2 now4 now5 : ℕ → UInt64) : Option (Instance × ℤ) := do
  let response ← answer stray now1 master request
  let delayReq ← answer stray now2 worker response
  let worker ← after stray now2 worker response
  let delayResp ← answer stray now4 master delayReq
  let us ← correction stray now5 worker delayResp
  let worker ← after stray now5 worker delayResp
  return (worker, us)

section Round

variable {b : UInt8} {p q : Instance} {c : AsyncCapsule} {src : Endpoint} {t : UInt64}
  {now : ℕ → UInt64} {stray : ℤ → ℤ}

/-- A response leaves the worker as it was. -/
theorem after_syncResp {t1 : UInt64} (hp : p.currentGroupId = b.toNat)
    (hq : q.currentGroupId = b.toNat) (hw : p.isMaster = false)
    (hc : c.payload = (Emission.syncResp t1).wire SECRET_KEY q src t) :
    after stray now p c = some p := by
  simp only [after, update_sync now stray p hc trivial, handleSync,
    if_pos (show isMessageInternal p (received (.syncResp t1) q src t) ∧ p.isMaster = false from
      ⟨internal_of_group hp hq, hw⟩), onSyncResp]

/-- A delay response leaves it with one more sample. -/
theorem after_delayResp {o r : ℤ} (hp : p.currentGroupId = b.toNat)
    (hq : q.currentGroupId = b.toNat) (hw : p.isMaster = false) (ho : InLongLong o)
    (hr : InLongLong r)
    (hc : c.payload = (Emission.delayResp o r).wire SECRET_KEY q src t) :
    after stray now p c =
      some { p with clockSyncer := p.clockSyncer.addPtpSample o r, runningPtp := false } := by
  have hbody : scanDelayResp (received (.delayResp o r) q src t).body = (o, r) :=
    scan_delayResp ho hr
  simp only [after, update_sync now stray p hc trivial, handleSync,
    if_pos (show isMessageInternal p (received (.delayResp o r) q src t) ∧ p.isMaster = false from
      ⟨internal_of_group hp hq, hw⟩), onDelayResp, hbody]

variable {master worker : Instance} {request : AsyncCapsule} {ctl : Endpoint}
  {now1 now2 now4 : ℕ → UInt64} {theta delay : ℤ}

/-- With equal delays both ways, the worker keeps the difference of the clocks as one more
sample and asks for the average. -/
theorem round_eq (stray : ℤ → ℤ) (now5 : ℕ → UInt64) (hmaster : master.currentGroupId = b.toNat)
    (hworker : worker.currentGroupId = b.toNat) (hm : master.isMaster = true)
    (hw : worker.isMaster = false)
    (hreq : request.payload = Emission.syncReq.wire SECRET_KEY worker ctl t)
    (hlo : -2 ^ 31 < theta) (hhi : theta < 2 ^ 31)
    (h2 : ((now2 0).toNat : ℤ) = (now1 0).toNat + delay + theta)
    (h4 : ((now4 0).toNat : ℤ) = (now1 0).toNat + 2 * delay) :
    ∃ rtt, round stray master worker request now1 now2 now4 now5 =
      some ({ worker with
          clockSyncer := worker.clockSyncer.addPtpSample theta rtt
          runningPtp := false },
        (worker.clockSyncer.addPtpSample theta rtt).applySync) := by
  have hoffset : ptpOffset (now1 0) (now2 0) (now2 0) (now4 0) = theta :=
    ptpOffset_symmetric hlo hhi h2 h4
  have hrtt : InLongLong (ptpRtt (now1 0) (now2 0) (now2 0) (now4 0)) := inLongLong_ptpRtt _ _ _ _
  have hlong : InLongLong theta := ⟨by omega, by omega⟩
  refine ⟨ptpRtt (now1 0) (now2 0) (now2 0) (now4 0), ?_⟩
  simp only [round, answer_syncReq hmaster hworker hm hreq, Option.bind_eq_bind, Option.bind_some]
  rw [answer_syncResp hworker hmaster hw rfl, Option.bind_some,
    after_syncResp hworker hmaster hw rfl, Option.bind_some, answer_delayReq hmaster hworker hm rfl,
    Option.bind_some, hoffset,
    correction_delayResp hworker hmaster hw hlong hrtt rfl, Option.bind_some,
    after_delayResp hworker hmaster hw hlong hrtt rfl, Option.bind_some]
  rfl

end Round

/-! ## The loop -/

/-- The worker, how far its clock is ahead of the master's, and the last correction it
asked for. -/
structure State where
  worker : Instance
  theta : ℤ
  asked : ℤ := 0

/-- The clock readings of an exchange, the delay of each of its messages, and how far the
worker's clock moves after it. -/
structure Exchange where
  src : Endpoint
  ctl : Endpoint
  sent : UInt64
  now1 : ℕ → UInt64
  now2 : ℕ → UInt64
  now4 : ℕ → UInt64
  now5 : ℕ → UInt64
  delay : ℤ
  moved : ℤ

/-- The readings are those of two clocks with this difference, with equal delays both ways. -/
def Exchange.Fits (a : Exchange) (theta : ℤ) : Prop :=
  ((a.now2 0).toNat : ℤ) = (a.now1 0).toNat + a.delay + theta ∧
    ((a.now4 0).toNat : ℤ) = (a.now1 0).toNat + 2 * a.delay

instance (a : Exchange) (theta : ℤ) : Decidable (a.Fits theta) :=
  inferInstanceAs (Decidable (_ ∧ _))

def request (worker : Instance) (a : Exchange) : AsyncCapsule where
  src := a.src
  dst := ⟨Address.BROADCAST, 0⟩
  origin := .ethernet
  payload := Emission.syncReq.wire SECRET_KEY worker a.ctl a.sent

/-- One exchange, and what the kernel makes of the correction. -/
def step (stray : ℤ → ℤ) (kernel : ℤ → ℤ → Bool) (master : Instance) (s : State) (a : Exchange) :
    Option State :=
  if a.Fits s.theta then
    (round stray master s.worker (request s.worker a) a.now1 a.now2 a.now4 a.now5).bind
      fun (worker, us) =>
      if kernel us a.moved then some ⟨worker, s.theta + a.moved, us⟩ else none
  else none

/-- The samples that are kept when this difference has been measured, too. -/
def samples (s : State) : List ℤ := keepLast (s.worker.clockSyncer.offsetSamples ++ [s.theta])

/-- Their sum fits an `int`. -/
def inRange (s : State) (_ : Exchange) : Bool := decide ((samples s).sum < 2 ^ 31)

/-- A worker of a group with these samples. -/
structure Measured (b : UInt8) (worker : Instance) (history : List (ℤ × ℤ)) : Prop where
  group : worker.currentGroupId = b.toNat
  isWorker : worker.isMaster = false
  syncer : worker.clockSyncer = record history

section Loop

variable {b : UInt8} {stray : ℤ → ℤ} {kernel : ℤ → ℤ → Bool} {master : Instance} {s t : State}
  {a : Exchange} {history : List (ℤ × ℤ)}

theorem samples_eq (hw : Measured b s.worker history) :
    samples s = keepLast (history.map Prod.fst ++ [s.theta]) := by
  rw [samples, hw.syncer, (record_spec history).2, keepLast_keepLast_snoc]

/-- What one exchange does: one more sample, and a correction by the average. -/
theorem step_spec (hmaster : master.currentGroupId = b.toNat) (hm : master.isMaster = true)
    (hw : Measured b s.worker history) (hlo : -2 ^ 31 < s.theta) (hhi : s.theta < 2 ^ 31)
    (h : step stray kernel master s a = some t) :
    (∃ rtt, Measured b t.worker (history ++ [(s.theta, rtt)])) ∧ t.asked = average (samples s) ∧
      t.theta = s.theta + a.moved ∧ kernel t.asked a.moved = true := by
  rw [step] at h
  split at h
  case isFalse => cases h
  case isTrue hfits =>
  have hreq : (request s.worker a).payload =
      Emission.syncReq.wire SECRET_KEY s.worker a.ctl a.sent := rfl
  obtain ⟨rtt, hround⟩ := round_eq stray a.now5 hmaster hw.group hm hw.isWorker hreq hlo hhi
    hfits.1 hfits.2
  rw [hround, Option.bind_some] at h
  dsimp only at h
  have hasked : (s.worker.clockSyncer.addPtpSample s.theta rtt).applySync =
      average (samples s) := by
    rw [samples_eq hw, hw.syncer, applySync_record]
  split at h
  case isFalse => cases h
  case isTrue hkernel =>
  obtain rfl := Option.some.inj h
  refine ⟨⟨rtt, hw.group, hw.isWorker, ?_⟩, hasked, rfl, hkernel⟩
  change s.worker.clockSyncer.addPtpSample s.theta rtt = _
  rw [hw.syncer, record_snoc]

/-! ## A worker that is ahead -/

theorem samples_ge {theta : ℤ} (hw : Measured b s.worker history)
    (hold : ∀ x ∈ history, theta ≤ x.1) (hnow : theta ≤ s.theta) : ∀ x ∈ samples s, theta ≤ x := by
  intro x hx
  rw [samples_eq hw] at hx
  rcases List.mem_append.mp (List.mem_of_mem_drop hx) with hmem | hmem
  · obtain ⟨y, hy, rfl⟩ := List.mem_map.mp hmem
    exact hold y hy
  · exact (List.mem_singleton.mp hmem) ▸ hnow

theorem theta_mem_samples (hw : Measured b s.worker history) : s.theta ∈ samples s := by
  rw [samples_eq hw, keepLast_snoc_eq]
  exact List.mem_append_right _ (List.mem_singleton_self _)

/-- An average of samples that fit is no less than the least of them. -/
theorem le_average {v : List ℤ} {theta : ℤ} (hne : v ≠ []) (hpos : 0 ≤ theta)
    (hge : ∀ x ∈ v, theta ≤ x) (hfit : v.sum < 2 ^ 31) : theta ≤ average v := by
  have hnonneg : ∀ x ∈ v, 0 ≤ x := fun x hx => hpos.trans (hge x hx)
  have hsum : 0 ≤ v.sum := List.sum_nonneg hnonneg
  rw [average_of_averageable hne ⟨⟨by omega, hfit⟩, Or.inl hsum⟩]
  exact (tdiv_bounds hne (Or.inl hsum) hge fun x hx => List.single_le_sum hnonneg x hx).1

/-- The worker is ahead, has always measured that it is, and asks for more. -/
structure Ahead (b : UInt8) (theta : ℤ) (s : State) : Prop where
  measured : ∃ history, Measured b s.worker history ∧ ∀ x ∈ history, theta ≤ x.1
  ahead : theta ≤ s.theta

/-- The step lemma: the correction is at least the least difference measured so far. -/
theorem ahead_step {theta least : ℤ} (hpos : 0 ≤ theta) (hleast : 0 ≤ least)
    (hkernel : ∀ us moved, kernel us moved = true → theta ≤ us → least ≤ moved)
    (hmaster : master.currentGroupId = b.toNat) (hm : master.isMaster = true) (hs : Ahead b theta s)
    (hrange : inRange s a = true) (h : step stray kernel master s a = some t) :
    Ahead b theta t ∧ theta ≤ t.asked ∧ s.theta + least ≤ t.theta := by
  obtain ⟨⟨history, hw, hold⟩, hahead⟩ := hs
  have hfit : (samples s).sum < 2 ^ 31 := of_decide_eq_true hrange
  have hge := samples_ge hw hold hahead
  have hmem := theta_mem_samples hw
  have hhi : s.theta ≤ (samples s).sum :=
    List.single_le_sum (fun x hx => hpos.trans (hge x hx)) _ hmem
  obtain ⟨⟨rtt, hw'⟩, hasked, hmoved, hk⟩ := step_spec hmaster hm hw (by omega) (by omega) h
  have hle : theta ≤ t.asked := hasked ▸ le_average (List.ne_nil_of_mem hmem) hpos hge hfit
  have hmove := hkernel _ _ hk hle
  refine ⟨⟨⟨_, hw', ?_⟩, by omega⟩, hle, by omega⟩
  intro x hx
  rcases List.mem_append.mp hx with hx | hx
  · exact hold x hx
  · exact (List.mem_singleton.mp hx) ▸ hahead

/-- The run lemma, from any state of a worker that is ahead. -/
theorem ahead_run {theta least : ℤ} (hpos : 0 ≤ theta) (hleast : 0 ≤ least)
    (hkernel : ∀ us moved, kernel us moved = true → theta ≤ us → least ≤ moved)
    (hmaster : master.currentGroupId = b.toNat) (hm : master.isMaster = true) (as : List Exchange)
    (hs : Ahead b theta s) (h : runIf inRange (step stray kernel master) s as = some t) :
    s.theta + as.length * least ≤ t.theta ∧ (as ≠ [] → theta ≤ t.asked) := by
  induction as generalizing s with
  | nil =>
    obtain rfl := Option.some.inj h
    simp
  | cons a as ih =>
    rw [runIf, run, Option.bind_eq_some_iff] at h
    obtain ⟨u, hu, hrest⟩ := h
    split at hu
    case isFalse => cases hu
    case isTrue hrange =>
    obtain ⟨hahead, hasked, hfarther⟩ := ahead_step hpos hleast hkernel hmaster hm hs hrange hu
    obtain ⟨hfar, hlast⟩ := ih hahead hrest
    have hsum : ((a :: as).length : ℤ) * least = as.length * least + least := by
      rw [List.length_cons]
      push_cast
      ring
    refine ⟨by omega, fun _ => ?_⟩
    cases as with
    | nil => exact Option.some.inj hrest ▸ hasked
    | cons a' as => exact hlast (List.cons_ne_nil _ _)

/-- A worker whose clock is ahead is never brought back. Each correction it asks for is at
least the difference it started with, in the wrong direction; so where the kernel moves a
clock by at least `least` for such a correction, the difference grows by that much with
each exchange; where it only does not move a clock the other way, the difference never
shrinks. -/
theorem ahead_never_returns {worker : Instance} {theta least : ℤ} (hpos : 0 < theta)
    (hleast : 0 ≤ least) (hkernel : ∀ us moved, kernel us moved = true → theta ≤ us → least ≤ moved)
    (hmaster : master.currentGroupId = b.toNat) (hm : master.isMaster = true)
    (hgroup : worker.currentGroupId = b.toNat) (hworker : worker.isMaster = false)
    (hempty : worker.clockSyncer = {}) (as : List Exchange)
    (h : runIf inRange (step stray kernel master) { worker, theta } as = some t) :
    theta + as.length * least ≤ t.theta ∧ (as ≠ [] → theta ≤ t.asked) := by
  have hstart : Ahead b theta { worker, theta } :=
    ⟨⟨[], ⟨hgroup, hworker, hempty⟩, fun x hx => absurd hx List.not_mem_nil⟩, le_rfl⟩
  exact ahead_run hpos.le hleast hkernel hmaster hm as hstart h

end Loop

/-- An exchange of the examples, with a delay of ten microseconds each way. -/
def exchangeAt (master worker : UInt64) (moved : ℤ) : Exchange where
  src := ⟨aWorker.address, 0⟩
  ctl := {}
  sent := 0
  now1 := fun _ => master
  now2 := fun _ => worker
  now4 := fun _ => master + 20
  now5 := fun _ => worker + 20
  delay := 10
  moved := moved

/-- A kernel that carries out each correction as it is asked for. -/
def obedient (us moved : ℤ) : Bool := moved = us

/-- A millisecond ahead, and after two exchanges three and a half. -/
theorem millisecond_ahead_grows :
    ∃ t, runIf inRange (step (fun _ => 0) obedient aMaster) ⟨aWorker, 1000, 0⟩
    [exchangeAt 5000 6010 1000, exchangeAt 9000 11010 1500] = some t ∧
      1000 + 2 * 1000 ≤ t.theta ∧ 1000 ≤ t.asked := by
  have hrun : (runIf inRange (step (fun _ => 0) obedient aMaster) ⟨aWorker, 1000, 0⟩
      [exchangeAt 5000 6010 1000, exchangeAt 9000 11010 1500]).isSome := by decide +kernel
  obtain ⟨t, ht⟩ := Option.isSome_iff_exists.mp hrun
  have hkernel : ∀ us moved, obedient us moved = true → 1000 ≤ us → 1000 ≤ moved := by
    intro us moved h hle
    exact (of_decide_eq_true h) ▸ hle
  obtain ⟨hfar, hasked⟩ := ahead_never_returns (b :=
    0) (by norm_num) (by norm_num) hkernel rfl rfl rfl rfl
    rfl _ ht
  exact ⟨t, ht, hfar, hasked (List.cons_ne_nil _ _)⟩

/-! ## A worker that is behind -/

section Behind

variable {b : UInt8} {stray : ℤ → ℤ} {kernel : ℤ → ℤ → Bool} {master : Instance} {s t : State}

/-- As long as few samples are kept, all of them are. -/
theorem samples_of_few {history : List (ℤ × ℤ)} (hw : Measured b s.worker history)
    (hfew : history.length < MAX_SAMPLES_IN_CLOCK_SYNCER) :
    samples s = history.map Prod.fst ++ [s.theta] := by
  have hlen : (history.map Prod.fst ++ [s.theta]).length - MAX_SAMPLES_IN_CLOCK_SYNCER = 0 := by
    rw [List.length_append, List.length_map, List.length_singleton]
    omega
  rw [samples_eq hw, keepLast, hlen, List.drop_zero]

/-- A correction of up to two hundred years is scaled as it should be. -/
theorem adjustTimeGradually_of_small {us : ℤ} (hlo : -2 ^ 53 ≤ us) (hhi : us < 2 ^ 53) :
    adjustTimeGradually us = 1000 * us := by
  rw [adjustTimeGradually, toLongLong, Int.bmod_eq_of_le (by omega) (by omega)]
  omega

/-- The average of several samples with a sum below zero is beyond any clock, because the
sum is divided as an unsigned number. -/
theorem average_of_neg {v : List ℤ} (hlen : v.length ≠ 1) (hneg : v.sum < 0)
    (hlo : -2 ^ 31 ≤ v.sum) : average v = (v.sum + 2 ^ 64) / v.length := by
  have hne : v ≠ [] := by
    rintro rfl
    exact absurd hneg (lt_irrefl _)
  rw [average_eq hne, toInt_eq_self hlo (by omega), if_neg (by omega), if_neg hlen]

/-- For two samples the product by 1000 brings the average back. -/
theorem adjust_of_pair {x y : ℤ} (hneg : x + y < 0) (hlo : -2 ^ 31 ≤ x + y) :
    adjustTimeGradually (average [x, y]) = 1000 * ((x + y) / 2) := by
  have hsum : [x, y].sum = x + y := List.sum_pair
  rw [average_of_neg (by simp) (hsum ▸ hneg) (hsum ▸ hlo), hsum, adjustTimeGradually, toLongLong]
  have hproduct : (x + y + 2 ^ 64) / (([x, y] : List ℤ).length : ℤ) * 1000 =
      1000 * ((x + y) / 2) + 500 * ((2 ^ 64 : ℕ) : ℤ) := by
    have hlen : (([x, y] : List ℤ).length : ℤ) = 2 := rfl
    rw [hlen]
    push_cast
    omega
  rw [hproduct, Int.add_mul_bmod_self_right, Int.bmod_eq_of_le (by omega) (by omega)]

/-- For three samples it does not: the correction is forward, by more than a hundred years. -/
theorem adjust_of_triple {x y z : ℤ} (hneg : x + y + z < 0) (hlo : -2 ^ 31 ≤ x + y + z) :
    2 ^ 62 ≤ adjustTimeGradually (average [x, y, z]) := by
  have hsum : [x, y, z].sum = x + y + z := by
    simp only [List.sum_cons, List.sum_nil]
    ring
  rw [average_of_neg (by simp) (hsum ▸ hneg) (hsum ▸ hlo), hsum, adjustTimeGradually, toLongLong]
  -- a third of `2 ^ 64` and what the product by 1000 leaves of it
  have hproduct : (x + y + z + 2 ^ 64) / (([x, y, z] : List ℤ).length : ℤ) * 1000 =
      1000 * ((x + y + z + 1) / 3) + 6148914691236516872 + 333 * ((2 ^ 64 : ℕ) : ℤ) := by
    have hlen : (([x, y, z] : List ℤ).length : ℤ) = 3 := rfl
    rw [hlen]
    push_cast
    omega
  rw [hproduct, Int.add_mul_bmod_self_right, Int.bmod_eq_of_le (by omega) (by omega)]
  omega

end Behind

/-- A kernel that sets a clock back by exactly what `adjtimex` is given. -/
def exactBack (us moved : ℤ) : Bool :=
  decide (adjustTimeGradually us ≤ 0 → 1000 * moved = adjustTimeGradually us)

end CarNetwork.ClockFeedback
