import CarNetwork.ByteText
import CarNetwork.KeyedList
import Mathlib.Data.Finmap

/-!
# The publish–subscribe store of a component

`PublishSubscriber` keeps the data types that a component can produce and, for each type,
the list of its subscriptions with their deadlines. The hash containers of the source are
finite sets and maps here; where the source walks through one of them, the order is a
parameter of the operation. Times are microseconds in unsigned words, with the wrap-around
of the source.
-/
namespace CarNetwork.PubSub

open CarNetwork.ByteText CarNetwork.KeyedList

/-! ## Data types -/

/-- A value of the underlying type of `VehicleDataType` that no enumerator names. -/
structure UnnamedType where
  code : UInt16
  unnamed : code = 0 ∨ 8 < code
  deriving DecidableEq

inductive VehicleDataType
  | ENGINE_RPM
  | VEHICLE_SPEED
  | ENGINE_TEMPERATURE
  | FUEL_LEVEL
  | BATTERY_VOLTAGE
  | OIL_PRESSURE
  | GPS_LOCATION
  | AMBIENT_TEMPERATURE
  | unnamed (c : UnnamedType)
  deriving DecidableEq

namespace VehicleDataType

def code : VehicleDataType → UInt16
  | ENGINE_RPM => 1
  | VEHICLE_SPEED => 2
  | ENGINE_TEMPERATURE => 3
  | FUEL_LEVEL => 4
  | BATTERY_VOLTAGE => 5
  | OIL_PRESSURE => 6
  | GPS_LOCATION => 7
  | AMBIENT_TEMPERATURE => 8
  | unnamed c => c.code

/-- `static_cast<VehicleDataType>` of a word. -/
def ofCode (c : UInt16) : VehicleDataType :=
  if h : c = 0 ∨ 8 < c then unnamed ⟨c, h⟩
  else match c.toNat with
    | 1 => ENGINE_RPM
    | 2 => VEHICLE_SPEED
    | 3 => ENGINE_TEMPERATURE
    | 4 => FUEL_LEVEL
    | 5 => BATTERY_VOLTAGE
    | 6 => OIL_PRESSURE
    | 7 => GPS_LOCATION
    | _ => AMBIENT_TEMPERATURE

@[simp] theorem ofCode_code (t : VehicleDataType) : ofCode t.code = t := by
  cases t with
  | unnamed c => exact dif_pos c.unnamed
  | _ => decide

/-- The cast keeps the code, named or not. -/
@[simp] theorem code_ofCode (c : UInt16) : (ofCode c).code = c := by
  unfold ofCode
  split
  · rfl
  · rename_i h
    have hnamed : ∀ n : Fin 9, n ≠ 0 → (match (n : ℕ) with
        | 1 => ENGINE_RPM
        | 2 => VEHICLE_SPEED
        | 3 => ENGINE_TEMPERATURE
        | 4 => FUEL_LEVEL
        | 5 => BATTERY_VOLTAGE
        | 6 => OIL_PRESSURE
        | 7 => GPS_LOCATION
        | _ => AMBIENT_TEMPERATURE).code = UInt16.ofNat n := by decide
    rw [not_or, UInt16.lt_iff_toNat_lt, ← UInt16.toNat_inj] at h
    have hcode := hnamed ⟨c.toNat,
      by simpa [Nat.lt_succ_iff] using h.2⟩ (by simpa [Fin.ext_iff] using h.1)
    simpa using hcode

end VehicleDataType

/-! ## The store -/

/-- A subscriber's origin as text. -/
abbrev SubscriberId := Bytes

structure Subscription where
  who : SubscriberId
  periodUs : UInt64
  nextDueUs : UInt64
  deriving DecidableEq

@[ext] structure PublishSubscriber where
  capabilities : Finset VehicleDataType := ∅
  subs : Finmap (fun _ : VehicleDataType => List Subscription) := ∅
  deriving DecidableEq

/-- The order in which a loop visits the elements of a hash set. -/
structure IterationOrder where
  toList : Finset VehicleDataType → List VehicleDataType
  nodup : ∀ s, (toList s).Nodup
  mem : ∀ s t, t ∈ toList s ↔ t ∈ s

/-- A subscription reported as due; the source keeps only the subscriber. -/
abbrev Report := VehicleDataType × SubscriberId

namespace Subscription

/-- Renewal of a subscription. -/
def renew (periodUs nextDueUs : UInt64) (s : Subscription) : Subscription :=
  { s with periodUs, nextDueUs }

/-- The deadline of a reported subscription moves by one period. -/
def advance (nowUs : UInt64) (s : Subscription) : Subscription :=
  if s.nextDueUs ≤ nowUs then { s with nextDueUs := s.nextDueUs + s.periodUs } else s

@[simp] theorem advance_who (nowUs : UInt64) (s : Subscription) :
    (s.advance nowUs).who = s.who := by
  unfold advance
  split <;> rfl

@[simp] theorem advance_periodUs (nowUs : UInt64) (s : Subscription) :
    (s.advance nowUs).periodUs = s.periodUs := by
  unfold advance
  split <;> rfl

/-- The loop of `subscribe` over the list of a type: the entry of the subscriber is renewed,
or a new one appended. -/
def enlist (who : SubscriberId) (periodUs nextDueUs : UInt64) (list : List Subscription) :
    List Subscription :=
  upsert Subscription.who who (renew periodUs nextDueUs) ⟨who, periodUs, nextDueUs⟩ list

theorem entry_enlist_self (who : SubscriberId) (periodUs nextDueUs : UInt64)
    (list : List Subscription) :
    entry Subscription.who who (enlist who periodUs nextDueUs list) =
      some ⟨who, periodUs, nextDueUs⟩ := by
  have hentry : entry Subscription.who who (enlist who periodUs nextDueUs list) =
      some (((entry Subscription.who who list).map (renew periodUs nextDueUs)).getD ⟨who, periodUs,
        nextDueUs⟩) := by
    unfold enlist
    exact entry_upsert_self (fun _ => rfl) rfl
  rw [hentry]
  cases hold : entry Subscription.who who list with
  | none => rfl
  | some s => simp [renew, (mem_of_entry hold).2]

theorem entry_enlist_of_ne {who who' : SubscriberId} (h : who' ≠ who) (periodUs nextDueUs : UInt64)
    (list : List Subscription) :
    entry Subscription.who who' (enlist who periodUs nextDueUs list) =
      entry Subscription.who who' list := by
  unfold enlist
  apply entry_upsert_of_ne
  · exact fun _ => rfl
  · rfl
  · exact h

end Subscription

namespace PublishSubscriber

def addCapability (ps : PublishSubscriber) (type : VehicleDataType) : PublishSubscriber :=
  { ps with capabilities := insert type ps.capabilities }

def removeCapability (ps : PublishSubscriber) (type : VehicleDataType) : PublishSubscriber :=
  { ps with capabilities := ps.capabilities.erase type }

def supports (ps : PublishSubscriber) (type : VehicleDataType) : Bool := type ∈ ps.capabilities

/-- The subscriptions of a type, none where the map has no entry. -/
def entries (ps : PublishSubscriber) (type : VehicleDataType) : List Subscription :=
  (ps.subs.lookup type).getD []

/-- `subscribe`, with what it returns; `nowUs` is the clock reading it makes. -/
def subscribe (ps : PublishSubscriber) (type : VehicleDataType) (who : SubscriberId)
    (periodUs nowUs : UInt64) :
    PublishSubscriber × Bool :=
  if ps.supports type = false ∨ periodUs = 0 then (ps, false)
  else
    let list := Subscription.enlist who periodUs (nowUs + periodUs) (ps.entries type)
    ({ ps with subs := ps.subs.insert type list }, true)

/-- The inner loop of `get_due_subscribers`: the subscribers that are due, and the list with
their deadlines moved. -/
def collectDue (nowUs : UInt64) : List Subscription → List SubscriberId × List Subscription
  | [] => ([], [])
  | s :: list =>
    let (due, list) := collectDue nowUs list
    if s.nextDueUs ≤ nowUs then (s.who :: due,
      { s with nextDueUs := s.nextDueUs + s.periodUs } :: list)
    else (due, s :: list)

/-- The body of the outer loop. -/
def checkType (ps : PublishSubscriber) (nowUs : UInt64) (t : VehicleDataType) :
    List Report × PublishSubscriber :=
  if ps.supports t = false then ([], ps)
  else match ps.subs.lookup t with
    | none => ([], ps)
    | some list =>
      let (due, list) := collectDue nowUs list
      (due.map (t, ·), { ps with subs := ps.subs.insert t list })

def checkTypes (nowUs : UInt64) : List VehicleDataType → PublishSubscriber →
    List Report × PublishSubscriber
  | [], ps => ([], ps)
  | t :: ts, ps =>
    let (due, ps) := ps.checkType nowUs t
    let (rest, ps) := checkTypes nowUs ts ps
    (due ++ rest, ps)

/-- The types that a query visits. -/
def typesToCheck (ps : PublishSubscriber) (order : IterationOrder) (type : VehicleDataType)
    (allTypes : Bool) :
    List VehicleDataType := if allTypes then order.toList ps.capabilities else [type]

/-- `get_due_subscribers` with the type of every report. -/
def dueReports (ps : PublishSubscriber) (order : IterationOrder) (type : VehicleDataType)
    (allTypes : Bool) (nowUs : UInt64) : List Report × PublishSubscriber :=
  checkTypes nowUs (ps.typesToCheck order type allTypes) ps

def getDueSubscribers (ps : PublishSubscriber) (order : IterationOrder) (type : VehicleDataType)
    (allTypes : Bool) (nowUs : UInt64) : List SubscriberId × PublishSubscriber :=
  let (reports, ps) := ps.dueReports order type allTypes nowUs
  (reports.map Prod.snd, ps)

/-! ## What the loops compute -/

theorem collectDue_eq (nowUs : UInt64) (list : List Subscription) :
    collectDue nowUs list =
      ((list.filter fun s => s.nextDueUs ≤ nowUs).map Subscription.who,
        list.map (Subscription.advance nowUs)) := by
  induction list with
  | nil => rfl
  | cons s list ih =>
    rw [collectDue, ih]
    by_cases h : s.nextDueUs ≤ nowUs
    · simp [h, Subscription.advance]
    · simp [h, Subscription.advance]

/-- The subscribers of a type that a check at the given time reports. -/
def dueAt (ps : PublishSubscriber) (nowUs : UInt64) (t : VehicleDataType) : List SubscriberId :=
  if ps.supports t then
    ((ps.entries t).filter fun s => s.nextDueUs ≤ nowUs).map Subscription.who
  else []

/-- The list of a type after a check of the given types. -/
def checkedList (ps : PublishSubscriber) (nowUs : UInt64) (ts : List VehicleDataType)
    (t : VehicleDataType) :
    Option (List Subscription) :=
  if t ∈ ts ∧ ps.supports t = true then
    (ps.subs.lookup t).map (List.map (Subscription.advance nowUs))
  else ps.subs.lookup t

section Check

variable (ps : PublishSubscriber) (nowUs : UInt64) (t : VehicleDataType)

theorem checkType_reports : (ps.checkType nowUs t).1 = (ps.dueAt nowUs t).map (t, ·) := by
  unfold checkType dueAt entries
  by_cases hsup : ps.supports t = true
  · cases hlist : ps.subs.lookup t with
    | none => simp [hsup]
    | some list => simp [hsup, collectDue_eq]
  · simp [hsup]

@[simp] theorem checkType_capabilities :
    (ps.checkType nowUs t).2.capabilities = ps.capabilities := by
  unfold checkType
  split
  · rfl
  · split <;> rfl

@[simp] theorem checkType_supports (t' : VehicleDataType) :
    (ps.checkType nowUs t).2.supports t' = ps.supports t' := by
  simp [supports]

theorem lookup_checkType (t' : VehicleDataType) :
    (ps.checkType nowUs t).2.subs.lookup t' = ps.checkedList nowUs [t] t' := by
  unfold checkType checkedList
  by_cases hsup : ps.supports t = true
  · rw [if_neg (by simp [hsup])]
    cases hlist : ps.subs.lookup t with
    | none =>
      by_cases ht : t' = t
      · subst ht
        simp [hlist]
      · simp [ht]
    | some list =>
      by_cases ht : t' = t
      · subst ht
        simp [hsup, hlist, collectDue_eq]
      · simp [ht, Finmap.lookup_insert_of_ne]
  · by_cases ht : t' = t
    · simp [ht, hsup]
    · simp [hsup, ht]

/-- A check of one type does not touch another. -/
theorem dueAt_checkType {t' : VehicleDataType} (h : t' ≠ t) :
    (ps.checkType nowUs t).2.dueAt nowUs t' = ps.dueAt nowUs t' := by
  simp [dueAt, entries, lookup_checkType, checkedList, h]

end Check

@[simp] theorem checkTypes_capabilities (nowUs : UInt64) (ts : List VehicleDataType)
    (ps : PublishSubscriber) :
    (checkTypes nowUs ts ps).2.capabilities = ps.capabilities := by
  induction ts generalizing ps with
  | nil => rfl
  | cons t ts ih => simp [checkTypes, ih]

/-- A check of several types reports each of them as it was before the check. -/
theorem checkTypes_reports (nowUs : UInt64) {ts : List VehicleDataType} (hts : ts.Nodup)
    (ps : PublishSubscriber) :
    (checkTypes nowUs ts ps).1 = ts.flatMap fun t => (ps.dueAt nowUs t).map (t, ·) := by
  induction ts generalizing ps with
  | nil => rfl
  | cons t ts ih =>
    obtain ⟨hnot, hnodup⟩ := List.nodup_cons.mp hts
    simp only [checkTypes, checkType_reports, ih hnodup, List.flatMap_cons]
    congr 1
    exact List.flatMap_congr fun t' ht' => by
      rw [dueAt_checkType _ _ _ (fun h : t' = t => hnot (h ▸ ht'))]

theorem nodup_typesToCheck (ps : PublishSubscriber) (order : IterationOrder)
    (type : VehicleDataType) (allTypes : Bool) : (ps.typesToCheck order type allTypes).Nodup := by
  unfold typesToCheck
  split
  · exact order.nodup _
  · exact List.nodup_singleton _

theorem lookup_checkTypes (nowUs : UInt64) {ts : List VehicleDataType} (hts : ts.Nodup)
    (ps : PublishSubscriber) (t' : VehicleDataType) :
    (checkTypes nowUs ts ps).2.subs.lookup t' = ps.checkedList nowUs ts t' := by
  induction ts generalizing ps with
  | nil => simp [checkTypes, checkedList]
  | cons t ts ih =>
    obtain ⟨hnot, hnodup⟩ := List.nodup_cons.mp hts
    rw [checkTypes, ih hnodup]
    by_cases ht : t' = t
    · subst ht
      simp [checkedList, hnot, lookup_checkType]
    · simp [checkedList, ht, lookup_checkType]

/-! ## All types at once -/

theorem ext_lookup {ps ps' : PublishSubscriber} (hcap : ps.capabilities = ps'.capabilities)
    (hsubs : ∀ t, ps.subs.lookup t = ps'.subs.lookup t) : ps = ps' :=
  PublishSubscriber.ext hcap (Finmap.ext_lookup hsubs)

/-- The order of the types matters to the order of the reports only. -/
theorem checkTypes_perm (nowUs : UInt64) {ts ts' : List VehicleDataType} (hts : ts.Nodup)
    (hperm : ts.Perm ts') (ps : PublishSubscriber) :
    (checkTypes nowUs ts ps).1.Perm (checkTypes nowUs ts' ps).1 ∧
      (checkTypes nowUs ts ps).2 = (checkTypes nowUs ts' ps).2 := by
  have hts' : ts'.Nodup := hperm.nodup_iff.mp hts
  constructor
  · rw [checkTypes_reports nowUs hts, checkTypes_reports nowUs hts']
    exact hperm.flatMap_right _
  · apply ext_lookup
    · simp
    · intro t
      simp only [lookup_checkTypes nowUs hts, lookup_checkTypes nowUs hts', checkedList,
        hperm.mem_iff]

/-- One call of `get_due_subscribers` for each of the given types, all at the same time. -/
def getDueOfEach (order : IterationOrder) (nowUs : UInt64) :
    List VehicleDataType → PublishSubscriber → List SubscriberId × PublishSubscriber
  | [], ps => ([], ps)
  | t :: ts, ps =>
    let (due, ps) := ps.getDueSubscribers order t false nowUs
    let (rest, ps) := getDueOfEach order nowUs ts ps
    (due ++ rest, ps)

theorem getDueOfEach_eq (order : IterationOrder) (nowUs : UInt64) (ts : List VehicleDataType)
    (ps : PublishSubscriber) :
    getDueOfEach order nowUs ts ps = ((checkTypes nowUs ts ps).1.map Prod.snd,
      (checkTypes nowUs ts ps).2) := by
  induction ts generalizing ps with
  | nil => rfl
  | cons t ts ih => simp [getDueOfEach, checkTypes, getDueSubscribers, dueReports, typesToCheck, ih]

/-- The query for all types reports what the queries for the single types report, in
whatever order these are made, and leaves the same store. -/
theorem all_types_eq_each_type (ps : PublishSubscriber) (order order' : IterationOrder)
    (type : VehicleDataType) (nowUs : UInt64) (ts : List VehicleDataType) (hnodup : ts.Nodup)
    (hts : ∀ t, t ∈ ts ↔ ps.supports t = true) :
    ((ps.getDueSubscribers order type true nowUs).1 : Multiset SubscriberId) =
        (getDueOfEach order' nowUs ts ps).1 ∧
      (ps.getDueSubscribers order type true nowUs).2 = (getDueOfEach order' nowUs ts ps).2 := by
  have hperm : (order.toList ps.capabilities).Perm ts := by
    rw [List.perm_ext_iff_of_nodup (order.nodup _) hnodup]
    intro t
    rw [order.mem, hts, supports, decide_eq_true_iff]
  obtain ⟨hreports, hstore⟩ := checkTypes_perm nowUs (order.nodup _) hperm ps
  rw [getDueOfEach_eq]
  exact ⟨Multiset.coe_eq_coe.mpr (hreports.map Prod.snd), hstore⟩

/-- Some order of iteration. -/
noncomputable def anyOrder : IterationOrder :=
  ⟨Finset.toList, Finset.nodup_toList, fun _ _ => Finset.mem_toList⟩

/-- Two types with one subscription each, due at 5 and at 9. -/
def sampleStore : PublishSubscriber :=
  let ps := (({} : PublishSubscriber).addCapability .ENGINE_RPM).addCapability .VEHICLE_SPEED
  ((ps.subscribe .ENGINE_RPM (ascii "7") 5 0).1.subscribe .VEHICLE_SPEED (ascii "8") 9 0).1

/-- At time 10 both are reported, in whichever order the types are visited. -/
theorem sample_all_types_due :
    ((sampleStore.getDueSubscribers anyOrder .ENGINE_RPM true 10).1 : Multiset SubscriberId) =
      {ascii "7", ascii "8"} := by
  rw [(all_types_eq_each_type sampleStore anyOrder anyOrder .ENGINE_RPM 10
    [.ENGINE_RPM, .VEHICLE_SPEED] (by decide)
    (by intro t; simp [sampleStore, supports, addCapability, subscribe, or_comm])).1]
  decide

end PublishSubscriber

end CarNetwork.PubSub
