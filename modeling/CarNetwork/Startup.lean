import CarNetwork.Fleet

/-!
# From the kernel command line to the processes of a machine

The host script appends `vm_id=` and `total_sync_vms=` to the kernel command line, the
script `init` picks them out and calls the program with them, `main` reads them again, and
`Car::start` builds the gateway and the components. The deployments of the fleet say what
should come of this: who coordinates, and who is in which group. Words with wildcards,
which the shell would expand to file names, are left as they are.
-/
namespace CarNetwork.Startup

open CarNetwork.ByteText CarNetwork.DecimalText CarNetwork.Conversions CarNetwork.Ethernet
open CarNetwork.Protocol CarNetwork.Car CarNetwork.Fleet

/-! ## The script -/

/-- The blanks at which the shell splits. -/
def isBlank (b : UInt8) : Bool := b == 32 || b == 9 || b == 10

/-- The word that a text begins with, perhaps an empty one, and the words after it. -/
def splitWords : Bytes → Bytes × List Bytes
  | [] => ([], [])
  | b :: s =>
    let (w, ws) := splitWords s
    if isBlank b then ([], if w.isEmpty then ws else w :: ws) else (b :: w, ws)

def words (s : Bytes) : List Bytes :=
  let (w, ws) := splitWords s
  if w.isEmpty then ws else w :: ws

def vmIdKey : Bytes := ascii "vm_id="

def totalKey : Bytes := ascii "total_sync_vms="

/-- The `case` of the loop, on `VM_ID` and `TOTAL`. -/
def initCase (vars : Bytes × Bytes) (arg : Bytes) : Bytes × Bytes :=
  if vmIdKey.isPrefixOf arg then (arg.drop 6, vars.2)
  else if totalKey.isPrefixOf arg then (vars.1, arg.drop 15)
  else vars

/-- The arguments for the program, unless one is missing. -/
def init (cmdline : Bytes) : Option (List Bytes) :=
  let (vmId, total) := (words cmdline).foldl initCase ([], [])
  if vmId.isEmpty || total.isEmpty then none else some [vmIdKey ++ vmId, totalKey ++ total]

/-! ## The program -/

/-- What runs on a machine: the gateway, the size of the shared memory bus, and the port and
the group of each component process. -/
structure Machine where
  gateway : Config
  nodes : ℕ
  components : List (UInt16 × UInt8)

inductive Outcome
  | exited (code : ℕ)
  | aborted (e : CxxException)
  | started (m : Machine)

/-- `Car::start`. The gateway gets the group as an `int`, the components as a byte. -/
def carStart (mac : Address) (vmId groupId totalSyncVms : ℤ) : Machine :=
  let isSyncMaster := decide (vmId.tmod 10 = 0)
  { gateway := { mac, vmId, groupId, isSyncMaster, totalSyncVms }
    nodes := if isSyncMaster then 0 else componentPorts.length
    components := if isSyncMaster then [] else componentPorts.map fun port =>
      (port, UInt8.ofInt (vmId.tdiv 10)) }

/-- The body of the loop over the arguments, on `vm_id` and `total_sync_vms`. -/
def readArg (vars : ℤ × ℤ) (arg : Bytes) : Except CxxException (ℤ × ℤ) := do
  if find arg vmIdKey 0 = some 0 then
    let vmId ← stoi (arg.drop 6)
    return (vmId, vars.2)
  else if find arg totalKey 0 = some 0 then
    let total ← stoi (arg.drop 15)
    return (vars.1, total)
  else return vars

def main (mac : Address) (args : List Bytes) : Outcome :=
  match args.foldlM readArg (-1, 0) with
  | .error e => .aborted e
  | .ok (vmId, total) =>
    if vmId < 0 ∨ total = 0 then .exited 1 else .started (carStart mac vmId (vmId.tdiv 10) total)

/-- A machine with this address is booted with this command line. -/
def boot (mac : Address) (cmdline : Bytes) : Outcome :=
  match init cmdline with
  | none => .exited 1
  | some args => main mac args

/-! ## What is read -/

theorem not_totalKey_of_vmIdKey {arg : Bytes} (h : vmIdKey.isPrefixOf arg = true) :
    totalKey.isPrefixOf arg = false := by
  obtain ⟨rest, rfl⟩ := List.isPrefixOf_iff_prefix.mp h
  rfl

/-- The last word of each kind counts. -/
theorem foldl_initCase (ws : List Bytes) (vars : Bytes × Bytes) :
    ws.foldl initCase vars =
      (((ws.filter vmIdKey.isPrefixOf).getLast?.map (·.drop 6)).getD vars.1,
        ((ws.filter totalKey.isPrefixOf).getLast?.map (·.drop 15)).getD vars.2) := by
  induction ws using List.reverseRecOn with
  | nil => rfl
  | append_singleton ws w ih =>
    rw [List.foldl_append, ih, List.foldl_cons, List.foldl_nil, initCase, List.filter_append,
      List.filter_append, List.filter_singleton, List.filter_singleton]
    cases hid : vmIdKey.isPrefixOf w with
    | true => simp [not_totalKey_of_vmIdKey hid]
    | false => cases totalKey.isPrefixOf w <;> simp

theorem find_key (key value : Bytes) : find (key ++ value) key 0 = some 0 := by
  simp [find, search_prefix]

theorem find_vmIdKey_total (value : Bytes) : find (totalKey ++ value) vmIdKey 0 ≠ some 0 := by
  have hcons : totalKey ++ value = 116 :: (totalKey.tail ++ value) := rfl
  have hfirst : ¬ vmIdKey.isPrefixOf (116 :: (totalKey.tail ++ value)) = true := nofun
  rw [find, List.drop_zero, hcons, search, if_neg hfirst]
  simp

theorem isEmpty_intText (z : ℤ) : (intText z).isEmpty = false := by
  rw [intText]
  split <;> simp [decimal_ne_nil]

/-- What `init` hands over is read back. -/
theorem main_eq (mac : Address) {vmId total : ℤ} (hid : InInt vmId) (htotal : InInt total) :
    main mac [vmIdKey ++ intText vmId, totalKey ++ intText total] =
      if vmId < 0 ∨ total = 0 then .exited 1 else .started
        (carStart mac vmId (vmId.tdiv 10) total) := by
  have hfirst : readArg (-1, 0) (vmIdKey ++ intText vmId) = .ok (vmId, 0) := by
    rw [readArg, if_pos (find_key _ _)]
    have hdrop : (vmIdKey ++ intText vmId).drop 6 = intText vmId := List.drop_left' rfl
    rw [hdrop, stoi_intText vmId hid]
    rfl
  have hsecond : readArg (vmId, 0) (totalKey ++ intText total) = .ok (vmId, total) := by
    rw [readArg, if_neg (find_vmIdKey_total _), if_pos (find_key _ _)]
    have hdrop : (totalKey ++ intText total).drop 15 = intText total := List.drop_left' rfl
    rw [hdrop, stoi_intText total htotal]
    rfl
  rw [main, List.foldlM_cons, hfirst]
  simp only [bind, Except.bind, List.foldlM_cons, hsecond, List.foldlM_nil]
  rfl

/-! ## What comes of it -/

/-- The machine that a deployment has in mind. -/
def machine {V : Type} [DecidableEq V] (d : Deployment V) (v : V) : Machine where
  gateway := d.config v
  nodes := if d.isCoordinator v then 0 else componentPorts.length
  components := if d.isCoordinator v then [] else componentPorts.map fun port => (port, d.group v)

theorem tdiv_ten (b : UInt8) : (b.toNat : ℤ).tdiv 10 = (b / 10).toNat := by
  rw [Int.tdiv_eq_ediv_of_nonneg (Int.natCast_nonneg _), UInt8.toNat_div]
  rfl

theorem tmod_ten (b : UInt8) : decide ((b.toNat : ℤ).tmod 10 = 0) = (b % 10 == 0) := by
  have hmod : (b.toNat : ℤ).tmod 10 = ((b % 10).toNat : ℤ) := by
    rw [Int.tmod_eq_emod_of_nonneg (Int.natCast_nonneg _), UInt8.toNat_mod]
    rfl
  rw [hmod, Bool.eq_iff_iff, decide_eq_true_iff, beq_iff_eq, ← UInt8.toNat_inj]
  exact Int.natCast_eq_zero

section Deployed

variable {n : ℕ} (ids : Fin n → UInt8) (hids : ∀ v w, ids v = ids w → v = w)

theorem carStart_eq (total : ℤ) (v : Fin n) :
    carStart (Deployment.vmMac (ids v)) (ids v).toNat (((ids v).toNat : ℤ).tdiv 10) total =
      machine (.ofVmIds ids hids total) v := by
  simp only [carStart, tmod_ten, tdiv_ten, uint8_ofInt_toNat]
  rfl

/-- Whatever else is on the command line and in whatever order, a machine that is given its
id and the number of cars starts the gateway and the components that the deployment has in
mind: it is a coordinator or not, and all its processes are in the group of the deployment. -/
theorem boot_deployment {total : ℤ} (hfits : InInt total) (hzero : total ≠ 0) (v : Fin n)
    (cmdline : Bytes) (hid : (words cmdline).filter vmIdKey.isPrefixOf =
      [vmIdKey ++ intText (ids v).toNat])
    (htotal : (words cmdline).filter totalKey.isPrefixOf = [totalKey ++ intText total]) :
    boot ((Deployment.ofVmIds ids hids total).mac v) cmdline =
      .started (machine (.ofVmIds ids hids total) v) := by
  have hvm : InInt ((ids v).toNat : ℤ) := by
    have := UInt8.toNat_lt (ids v)
    constructor <;> omega
  have hinit : init cmdline = some [vmIdKey ++ intText (ids v).toNat,
      totalKey ++ intText total] := by
    have hvmText : (vmIdKey ++ intText (ids v).toNat).drop 6 = intText (ids v).toNat :=
      List.drop_left' rfl
    have htotalText : (totalKey ++ intText total).drop 15 = intText total := List.drop_left' rfl
    rw [init, foldl_initCase, hid, htotal]
    simp only [List.getLast?_singleton, Option.map_some, Option.getD_some, hvmText, htotalText,
      isEmpty_intText]
    rfl
  rw [boot, hinit]
  dsimp only
  rw [main_eq _ hvm hfits, if_neg (by omega)]
  exact congrArg Outcome.started (carStart_eq ids hids total v)

end Deployed

/-- The command line that the host script gives to machine 12. -/
theorem machine_twelve_boots : boot (Deployment.vmMac 12)
    (ascii "console=ttyS0 rdinit=/init vm_id=12 total_sync_vms=2\n") =
      .started (machine (.ofVmIds ![10, 11, 12] (by decide) 2) 2) := by
  refine boot_deployment ![10, 11, 12] (by decide) (by decide) (by decide) 2 _ ?_ ?_
  · decide +kernel
  · decide +kernel

end CarNetwork.Startup
