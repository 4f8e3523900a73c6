import CarNetwork.GreedyPattern
import CarNetwork.TraceIdentity

/-!
# The log files and the latency tool

A communicator appends a line for every message it sends or receives, and an empty line
after it. The latency tool reads all files line by line with two regular expressions,
joins the lines of received messages with those of sent ones, and reports the time since
the last sending that is not later.
-/
namespace CarNetwork.LatencyLog

open CarNetwork.ByteText CarNetwork.DecimalText CarNetwork.GreedyPattern CarNetwork.TraceIdentity
open CarNetwork.Protocol (length_decimal_le length_intText_le)

/-! ## What a communicator writes -/

inductive LogKind
  | send
  | recv
  deriving DecidableEq

def LogKind.name : LogKind → Bytes
  | .send => ascii "SEND"
  | .recv => ascii "RECV"

structure LogRecord where
  kind : LogKind
  key : TraceKey
  time : UInt64

/-- A field with the blank before it. -/
def textField (name digits : Bytes) : Bytes := 32 :: (name ++ digits)

/-- The text that the format strings of `send`, `send_message` and `on_packet` make. -/
def formatted (r : LogRecord) : Bytes :=
  91 :: (r.kind.name ++ (textField (ascii "GROUP=") (decimal r.key.group.toNat) ++
    (textField (ascii "VM=") (decimal r.key.vm.toNat) ++
      (textField (ascii "PORT=") (decimal r.key.port.toNat) ++
    (textField (ascii "TIME=") (decimal r.time.toNat) ++
      (textField (ascii "TYPE=") (intText r.key.type.toInt) ++
    (textField (ascii "ID=") (decimal r.key.id.toNat) ++ [93])))))))

/-- `logf`: a buffer of 256 bytes, and one more line feed. -/
def logText (r : LogRecord) : Bytes := (formatted r ++ [10]).take 255 ++ [10]

def logFile (rs : List LogRecord) : Bytes := rs.flatMap logText

/-! ## What the tool reads -/

/-- `\s` among the ASCII characters. -/
def pySpace (b : UInt8) : Bool := isSpace b || (28 ≤ b && b ≤ 31)

def fieldPattern (name : Bytes) : List (Atom UInt8) :=
  .many pySpace :: (name.map .lit ++ [.capture isDigit])

/-- `pattern_send` and `pattern_recv`. -/
def pattern (kind : LogKind) : List (Atom UInt8) :=
  .lit 91 :: (kind.name.map .lit ++ (fieldPattern (ascii "GROUP=") ++ (fieldPattern (ascii "VM=") ++
    (fieldPattern (ascii "PORT=") ++
      (fieldPattern (ascii "TIME=") ++ (fieldPattern (ascii "TYPE=") ++
    (fieldPattern (ascii "ID=") ++ [.lit 93])))))))

/-- The tuples of `send_list` and `recv_list`. -/
structure Entry where
  group : ℕ
  vm : ℕ
  port : ℕ
  type : ℕ
  id : ℕ
  time : ℕ
  deriving DecidableEq

/-- The groups of a match, through `int`. -/
def entryOf : List Bytes → Option Entry
  | [group, vm, port, time, type, id] => some ⟨digitsValue group, digitsValue vm, digitsValue port,
      digitsValue type, digitsValue id, digitsValue time⟩
  | _ => none

def readKind (kind : LogKind) (line : Bytes) : Option Entry :=
  (search (pattern kind) line).bind entryOf

/-- The body of the loop over the lines of a file. -/
def readLine (line : Bytes) : Option (LogKind × Entry) :=
  match readKind .send line with
  | some e => some (.send, e)
  | none => (readKind .recv line).map (.recv, ·)

/-- A file opened as text: every end of a line is read as a line feed. -/
def universalNewlines : Bytes → Bytes
  | [] => []
  | 13 :: 10 :: s => 10 :: universalNewlines s
  | b :: s => (if b = 13 then 10 else b) :: universalNewlines s

/-- The lines of a text, each with its line feed. -/
def lines : Bytes → List Bytes
  | [] => []
  | b :: s =>
    if b = 10 then [10] :: lines s
    else match lines s with
      | [] => [[b]]
      | line :: rest => (b :: line) :: rest

/-- All that the tool finds in the files, in order. -/
def scan (files : List Bytes) : List (LogKind × Entry) :=
  files.flatMap fun file => (lines (universalNewlines file)).filterMap readLine

/-! ## What the tool reports -/

/-- The keys of `send_dict`. -/
def Entry.key (e : Entry) : ℕ × ℕ × ℕ × ℕ × ℕ := (e.group, e.vm, e.port, e.type, e.id)

/-- A row of `detailed_data`. -/
structure Row where
  recv : Entry
  sendTime : ℕ
  latency : ℤ
  deriving DecidableEq

/-- `send_dict[key]`, sorted. -/
def sendTimes (sends : List Entry) (key : ℕ × ℕ × ℕ × ℕ × ℕ) : List ℕ :=
  ((sends.filter fun e => e.key = key).map (·.time)).mergeSort

/-- The body of the loop over `recv_list`. -/
def rowOf (sends : List Entry) (q : Entry) : Option Row :=
  (((sendTimes sends q.key).filter (· ≤ q.time)).max?).map fun t => ⟨q, t, q.time - t⟩

def sendList (found : List (LogKind × Entry)) : List Entry :=
  found.filterMap fun x => if x.1 = .send then some x.2 else none

def recvList (found : List (LogKind × Entry)) : List Entry :=
  found.filterMap fun x => if x.1 = .recv then some x.2 else none

def rows (files : List Bytes) : List Row :=
  (recvList (scan files)).filterMap (rowOf (sendList (scan files)))

/-- The order of the rows: by group, type and id. -/
def Row.le (a b : Row) : Bool :=
  a.recv.group < b.recv.group || (a.recv.group == b.recv.group && (a.recv.type < b.recv.type ||
    (a.recv.type == b.recv.type && a.recv.id ≤ b.recv.id)))

/-- The file `vm_<vm>_latency.csv`, without its header and the latency in milliseconds. -/
def detailed (files : List Bytes) (vm : ℕ) : List Row :=
  ((rows files).filter (·.recv.vm = vm)).mergeSort Row.le

/-! ## One field -/

/-- Neither a bracket nor the end of a line. -/
def plain (b : UInt8) : Bool := b ≠ 91 && b ≠ 10 && b ≠ 13

theorem plain_of_isDigit {b : UInt8} (h : isDigit b = true) : plain b = true := by
  rw [isDigit_iff] at h
  have h91 : b ≠ 91 := by rintro rfl; simp at h
  have h10 : b ≠ 10 := by rintro rfl; simp at h
  have h13 : b ≠ 13 := by rintro rfl; simp at h
  simp [plain, h91, h10, h13]

theorem plain_decimal (n : ℕ) : (decimal n).all plain = true :=
  List.all_eq_true.mpr fun b hb => plain_of_isDigit (isDigit_of_mem_decimal n b hb)

theorem plain_intText (z : ℤ) : (intText z).all plain = true := by
  unfold intText
  split
  · simpa using ⟨by decide, List.all_eq_true.mp (plain_decimal _)⟩
  · exact plain_decimal _

theorem plain_textField {name digits : Bytes} (hname : name.all plain = true)
    (hdigits : digits.all plain = true) :
    (textField name digits).all plain = true := by
  simp only [textField, List.all_cons, List.all_append, hname, hdigits]
  decide

/-- No digit is white space for the tool. -/
theorem pySpace_of_isDigit {b : UInt8} (h : isDigit b = true) : pySpace b = false := by
  have hspace := isSpace_of_isDigit b h
  rw [isDigit_iff] at h
  have h31 : ¬ b ≤ 31 := by
    rw [UInt8.le_iff_toNat_le, show (31 : UInt8).toNat = 31 from rfl]
    omega
  simp [pySpace, hspace, h31]

/-- The pattern of a field skips the blank and the name. -/
theorem captures_name {name tail : Bytes} {as : List (Atom UInt8)}
    (hname : name.head?.map pySpace = some false) :
    captures (fieldPattern name ++ as) (32 :: (name ++ tail)) = captures
      (.capture isDigit :: as) tail := by
  obtain ⟨c, cs, rfl⟩ : ∃ c cs, name = c :: cs :=
    List.exists_cons_of_ne_nil (by rintro rfl; simp at hname)
  have hc : pySpace c = false := by simpa using hname
  have hfirst : ∀ b, pySpace b = true → (Atom.lit c).first b = false := by
    intro b hb
    have : b ≠ c := by
      rintro rfl
      rw [hc] at hb
      cases hb
    simpa [Atom.first] using this
  have hspace : ∀ b ∈ [(32 : UInt8)], pySpace b = true := by
    intro b hb
    obtain rfl := List.mem_singleton.mp hb
    decide
  have hrest : ∀ b, ((c :: cs) ++ tail).head? = some b → pySpace b = false := by
    intro b hb
    cases hb
    exact hc
  have hblank : captures (.many pySpace :: .lit c :: (cs.map .lit ++ (.capture isDigit :: as)))
      ([32] ++ ((c :: cs) ++ tail)) =
      captures (.lit c :: (cs.map .lit ++ (.capture isDigit :: as))) ((c :: cs) ++ tail) :=
    captures_many hfirst hspace (by simp) hrest
  calc captures (fieldPattern (c :: cs) ++ as) (32 :: ((c :: cs) ++ tail))
      = captures ((c :: cs).map .lit ++ (.capture isDigit :: as)) ((c :: cs) ++ tail) := by
        simpa [fieldPattern] using hblank
    _ = captures (.capture isDigit :: as) tail := captures_lits _ _ _

/-- The pattern of a field reads such a field: it captures the digits and goes on behind. -/
theorem captures_field {name digits tail : Bytes} {x : Atom UInt8} {as : List (Atom UInt8)}
    (hname : name.head?.map pySpace = some false) (hx : ∀ b, isDigit b = true → x.first b = false)
    (hne : digits ≠ []) (hdigits : ∀ b ∈ digits, isDigit b = true) (htail : NoDigit tail) :
    captures (fieldPattern name ++ x :: as) (textField name digits ++ tail) =
      (captures (x :: as) tail).map (digits :: ·) := by
  have htext : textField name digits ++ tail = 32 :: (name ++ (digits ++ tail)) := by
    simp [textField]
  rw [htext, captures_name hname, captures_capture hx hdigits hne htail]

theorem captures_decimal {name tail : Bytes} {x : Atom UInt8} {as : List (Atom UInt8)} (n : ℕ)
    (hname : name.head?.map pySpace = some false) (hx : ∀ b, isDigit b = true → x.first b = false)
    (htail : NoDigit tail) :
    captures (fieldPattern name ++ x :: as) (textField name (decimal n) ++ tail) =
      (captures (x :: as) tail).map (decimal n :: ·) :=
  captures_field hname hx (decimal_ne_nil n) (isDigit_of_mem_decimal n) htail

/-- A minus sign is no digit. -/
theorem captures_negative {name tail : Bytes} {as : List (Atom UInt8)} {z : ℤ} (hz : z < 0)
    (hname : name.head?.map pySpace = some false) :
    captures (fieldPattern name ++ as) (textField name (intText z) ++ tail) = [] := by
  have htext : textField name (intText z) ++ tail =
      32 :: (name ++ (45 :: (decimal z.natAbs ++ tail))) := by
    simp [textField, intText, hz]
  rw [htext, captures_name hname]
  exact captures_eq_nil_of_first (by decide) as _

/-- A field that is followed by another one. -/
theorem captures_decimal_field {name name' tail : Bytes} {as : List (Atom UInt8)} (n : ℕ)
    (hname : name.head?.map pySpace = some false) (htail : NoDigit tail) :
    captures (fieldPattern name ++ (fieldPattern name' ++ as))
      (textField name (decimal n) ++ tail) =
      (captures (fieldPattern name' ++ as) tail).map (decimal n :: ·) :=
  captures_decimal n hname (fun _ => pySpace_of_isDigit) htail

/-! ## One line -/

/-- What the tool makes of a line. -/
def entry (r : LogRecord) : Entry :=
  ⟨r.key.group.toNat, r.key.vm.toNat, r.key.port.toNat, r.key.type.toInt.toNat, r.key.id.toNat,
    r.time.toNat⟩

theorem noDigit_textField (name digits tail : Bytes) : NoDigit (textField name digits ++ tail) :=
  noDigit_space _

theorem noDigit_bracket (tail : Bytes) : NoDigit (93 :: tail) := by
  intro b hb
  cases hb
  decide

theorem intText_of_nonneg {z : ℤ} (hz : 0 ≤ z) : intText z = decimal z.toNat := by
  have habs : z.natAbs = z.toNat := by omega
  rw [intText, if_neg (not_lt.mpr hz), habs]

/-- The pattern of its kind reads a line whose type is not negative. -/
theorem captures_formatted (r : LogRecord) (tail : Bytes) (htype : 0 ≤ r.key.type.toInt) :
    captures (pattern r.kind)
      (formatted r ++ tail) = [[decimal r.key.group.toNat, decimal r.key.vm.toNat,
      decimal r.key.port.toNat, decimal r.time.toNat, decimal r.key.type.toInt.toNat,
      decimal r.key.id.toNat]] := by
  have hlast : ∀ b, isDigit b = true → (Atom.lit 93).first b = false := by
    intro b hb
    have : b ≠ 93 := by rintro rfl; cases hb
    simpa [Atom.first] using this
  rw [pattern, formatted, intText_of_nonneg htype, List.cons_append, captures_lit]
  simp only [List.append_assoc, List.singleton_append]
  rw [captures_lits, captures_decimal_field _ (by decide) (noDigit_textField _ _ _),
    captures_decimal_field _ (by decide) (noDigit_textField _ _ _),
    captures_decimal_field _ (by decide) (noDigit_textField _ _ _),
    captures_decimal_field _ (by decide) (noDigit_textField _ _ _),
    captures_decimal_field _ (by decide) (noDigit_textField _ _ _),
    captures_decimal _ (by decide) hlast (noDigit_bracket _)]
  rfl

/-- It does not read one whose type is negative. -/
theorem captures_formatted_negative (r : LogRecord) (tail : Bytes) (htype : r.key.type.toInt < 0) :
    captures (pattern r.kind) (formatted r ++ tail) = [] := by
  rw [pattern, formatted, List.cons_append, captures_lit]
  simp only [List.append_assoc]
  rw [captures_lits, captures_decimal_field _ (by decide) (noDigit_textField _ _ _),
    captures_decimal_field _ (by decide) (noDigit_textField _ _ _),
    captures_decimal_field _ (by decide) (noDigit_textField _ _ _),
    captures_decimal_field _ (by decide) (noDigit_textField _ _ _),
      captures_negative htype (by decide)]
  rfl

/-- The pattern of the other kind does not read it. -/
theorem captures_other_kind {kind : LogKind} (r : LogRecord) (tail : Bytes)
    (hkind : kind ≠ r.kind) :
    captures (pattern kind) (formatted r ++ tail) = [] := by
  rw [pattern, formatted, List.cons_append, captures_lit]
  simp only [List.append_assoc]
  refine captures_lits_ne ?_ ?_ _ _
  · cases kind <;> cases r.kind <;> decide
  · cases kind <;> cases hr : r.kind <;> first | exact absurd hr.symm hkind | decide

/-- Behind the bracket at its front a line is plain. -/
theorem formatted_eq (r : LogRecord) : ∃ s, formatted r = 91 :: s ∧ s.all plain = true := by
  refine ⟨_, rfl, ?_⟩
  have hkind : r.kind.name.all plain = true := by cases r.kind <;> decide
  simp only [List.all_append, hkind, plain_textField, plain_decimal, plain_intText, Bool.true_and,
    (by decide : (ascii "GROUP=").all plain = true), (by decide : (ascii "VM=").all plain = true),
    (by decide : (ascii "PORT=").all plain = true), (by decide : (ascii "TIME=").all plain = true),
    (by decide : (ascii "TYPE=").all plain = true), (by decide : (ascii "ID=").all plain = true)]
  decide

theorem search_formatted (kind : LogKind) (r : LogRecord) :
    search (pattern kind) (formatted r ++ [10]) =
      (captures (pattern kind) (formatted r ++ [10])).head? := by
  obtain ⟨s, hs, hplain⟩ := formatted_eq r
  rw [hs, List.cons_append]
  refine search_eq_head fun hmem => ?_
  rcases List.mem_append.mp hmem with hmem | hmem
  · simpa [plain] using List.all_eq_true.mp hplain 91 hmem
  · simp at hmem

/-- The tool reads a line of a communicator as it was written, unless its type is negative:
such lines are skipped. -/
theorem readLine_formatted (r : LogRecord) :
    readLine (formatted r ++ [10]) =
      if 0 ≤ r.key.type.toInt then some (r.kind, entry r) else none := by
  have hother : ∀ kind, kind ≠ r.kind → readKind kind (formatted r ++ [10]) = none := by
    intro kind hkind
    rw [readKind, search_formatted, captures_other_kind r _ hkind]
    rfl
  have hown : readKind r.kind (formatted r ++ [10]) =
      if 0 ≤ r.key.type.toInt then some (entry r) else none := by
    rw [readKind, search_formatted]
    split
    · rename_i htype
      rw [captures_formatted r _ htype]
      simp [entryOf, entry]
    · rename_i htype
      rw [captures_formatted_negative r _ (not_le.mp htype)]
      rfl
  unfold readLine
  cases hr : r.kind with
  | send =>
    rw [hr] at hown
    rw [hown, hother .recv (by simp [hr])]
    by_cases htype : 0 ≤ r.key.type.toInt
    · simp only [if_pos htype]
    · simp only [if_neg htype, Option.map_none]
  | recv =>
    rw [hr] at hown
    rw [hother .send (by simp [hr]), hown]
    by_cases htype : 0 ≤ r.key.type.toInt
    · simp only [if_pos htype, Option.map_some]
    · simp only [if_neg htype, Option.map_none]

/-! ## Whole files -/

/-- The buffer of `logf` is never too short. -/
theorem length_formatted_lt (r : LogRecord) : (formatted r).length < 255 := by
  have h1 := length_decimal_le (k :=
    3) (by norm_num) (lt_trans (UInt8.toNat_lt r.key.group) (by norm_num))
  have h2 := length_decimal_le (k :=
    3) (by norm_num) (lt_trans (UInt8.toNat_lt r.key.vm) (by norm_num))
  have h3 := length_decimal_le (k :=
    5) (by norm_num) (lt_trans (UInt16.toNat_lt r.key.port) (by norm_num))
  have h4 := length_decimal_le (k :=
    20) (by norm_num) (lt_trans (UInt64.toNat_lt r.time) (by norm_num))
  have h5 : (intText r.key.type.toInt).length ≤ 10 + 1 := length_intText_le (by norm_num) (by
    have hlo := Int32.le_toInt r.key.type
    have hhi := Int32.toInt_lt r.key.type
    omega)
  have h6 := length_decimal_le (k :=
    20) (by norm_num) (lt_trans (UInt64.toNat_lt r.key.id) (by norm_num))
  have hkind : r.kind.name.length = 4 := by cases r.kind <;> rfl
  simp only [formatted, textField, List.length_cons, List.length_append, List.length_nil, hkind,
    (by decide : (ascii "GROUP=").length = 6), (by decide : (ascii "VM=").length = 3),
    (by decide : (ascii "PORT=").length = 5),
    (by decide : (ascii "TIME=").length = 5), (by decide : (ascii "TYPE=").length = 5),
    (by decide : (ascii "ID=").length = 3)]
  omega

theorem logText_eq (r : LogRecord) : logText r = formatted r ++ 10 :: [10] := by
  have hlen := length_formatted_lt r
  rw [logText, List.take_of_length_le (by rw [List.length_append, List.length_singleton]; omega),
    List.append_assoc]
  rfl

theorem universalNewlines_eq_self {s : Bytes} (h : 13 ∉ s) : universalNewlines s = s := by
  fun_induction universalNewlines s with
  | case1 => rfl
  | case2 s ih => exact absurd List.mem_cons_self h
  | case3 b s _ ih =>
    have hb : b ≠ 13 := by rintro rfl; exact h List.mem_cons_self
    rw [if_neg hb, ih (fun hs => h (List.mem_cons_of_mem _ hs))]

/-- A line ends at its first line feed. -/
theorem lines_append {l : Bytes} (h : 10 ∉ l) (s : Bytes) :
    lines (l ++ 10 :: s) = (l ++ [10]) :: lines s := by
  induction l with
  | nil => simp [lines]
  | cons b l ih =>
    have hb : b ≠ 10 := by rintro rfl; exact h List.mem_cons_self
    rw [List.cons_append, lines, if_neg hb, ih (fun hl => h (List.mem_cons_of_mem _ hl))]
    rfl

theorem not_mem_formatted {b : UInt8} (hb : plain b = false) (h91 : b ≠ 91) (r : LogRecord) :
    b ∉ formatted r := by
  obtain ⟨s, hs, hplain⟩ := formatted_eq r
  rw [hs]
  intro hmem
  rcases List.mem_cons.mp hmem with rfl | hmem
  · exact h91 rfl
  · have := List.all_eq_true.mp hplain b hmem
    rw [hb] at this
    cases this

theorem not_mem_logFile (rs : List LogRecord) : 13 ∉ logFile rs := by
  intro hmem
  obtain ⟨r, -, hr⟩ := List.mem_flatMap.mp hmem
  rw [logText_eq] at hr
  rcases List.mem_append.mp hr with hr | hr
  · exact not_mem_formatted (by decide) (by decide) r hr
  · simp at hr

/-- The lines of a file, each with an empty one after it. -/
theorem lines_logFile (rs : List LogRecord) : lines (logFile rs) = rs.flatMap fun r =>
    [formatted r ++ [10], [10]] := by
  induction rs with
  | nil => rfl
  | cons r rs ih =>
    have hline : logFile (r :: rs) = formatted r ++ 10 :: ([] ++ 10 :: logFile rs) := by
      rw [logFile, List.flatMap_cons, logText_eq, List.append_assoc]
      rfl
    rw [hline, lines_append (not_mem_formatted (by decide) (by decide) r), lines_append (by simp),
      ih]
    rfl

/-- What the tool keeps of a line. -/
def found (r : LogRecord) : Option (LogKind × Entry) :=
  if 0 ≤ r.key.type.toInt then some (r.kind, entry r) else none

/-- The tool reads a file back line by line. -/
theorem readLine_logFile (rs : List LogRecord) :
    (lines (universalNewlines (logFile rs))).filterMap readLine = rs.filterMap found := by
  have hempty : readLine [10] = none := by decide
  have hline : ∀ r, List.filterMap readLine [formatted r ++ [10], [10]] = (found r).toList := by
    intro r
    rw [List.filterMap_cons, List.filterMap_cons, hempty, readLine_formatted, found]
    split <;> simp_all
  rw [universalNewlines_eq_self (not_mem_logFile rs), lines_logFile, List.filterMap_flatMap]
  simp only [hline]
  exact (List.filterMap_eq_flatMap_toList _ _).symm

theorem scan_eq (files : List (List LogRecord)) :
    scan (files.map logFile) = (files.map fun rs => rs.filterMap found).flatten := by
  rw [scan, List.flatMap_map]
  simp only [readLine_logFile, List.flatMap_def]

/-- The tool reads all files back: one entry for each line whose type is not negative, with all
its numbers, in the order of the files. -/
theorem scan_logFiles (files : List (List LogRecord)) :
    scan (files.map logFile) = files.flatten.filterMap found := by
  rw [scan_eq, List.filterMap_flatten]

/-! ## The report of a run -/

theorem max?_congr {l l' : List ℕ} (h : l.Perm l') : l.max? = l'.max? := by
  refine Option.ext fun t => ?_
  rw [List.max?_eq_some_iff, List.max?_eq_some_iff, h.mem_iff]
  simp only [h.mem_iff]

theorem sendTimes_congr {sends sends' : List Entry} (h : sends.Perm sends')
    (key : ℕ × ℕ × ℕ × ℕ × ℕ) :
    (sendTimes sends key).Perm (sendTimes sends' key) :=
  ((List.mergeSort_perm _ _).trans ((h.filter _).map _)).trans (List.mergeSort_perm _ _).symm

/-- The order of the files and of their lines does not matter for a row. -/
theorem rowOf_congr {sends sends' : List Entry} (h : sends.Perm sends') (q : Entry) :
    rowOf sends q = rowOf sends' q := by
  rw [rowOf, rowOf, max?_congr ((sendTimes_congr h q.key).filter _)]

section Report

open CarNetwork.Runs
open CarNetwork.Fleet (Deployment Node)

variable {V : Type} [DecidableEq V] {d : Deployment V} {group : UInt8} {s : State V}

/-- The line in a file. -/
def record (kind : LogKind) (r : Line V) : LogRecord := ⟨kind, r.key, r.time⟩

/-- The row that is due for a line of a received message. -/
def reportRow (q : Line V) (t : ℕ) : Row := ⟨entry (record .recv q), t, q.time.toNat - t⟩

/-- The types of a run are the ports of components, so none of its lines is skipped. -/
theorem type_nonneg {n : Node V} {o : Origin V} {key : TraceKey} (h : key = keyOf d group n o) :
    0 ≤ key.type.toInt := by
  rw [h]
  have hlt := o.port.toNat_lt
  rw [keyOf, Int32.toInt_ofInt_of_le (by omega) (by omega)]
  omega

omit [DecidableEq V] in
theorem key_entry_inj {kind kind' : LogKind} {r r' : Line V} (hr : 0 ≤ r.key.type.toInt)
    (hr' : 0 ≤ r'.key.type.toInt) :
    (entry (record kind r)).key = (entry (record kind' r')).key ↔ r.key = r'.key := by
  constructor
  · intro h
    simp only [Entry.key, entry, record, Prod.mk.injEq] at h
    obtain ⟨hgroup, hvm, hport, htype, hid⟩ := h
    have htype' : r.key.type.toInt = r'.key.type.toInt := by omega
    cases hk : r.key
    cases hk' : r'.key
    simp only [hk, hk'] at hgroup hvm hport htype' hid
    rw [UInt8.toNat_inj.mp hgroup, UInt8.toNat_inj.mp hvm, UInt16.toNat_inj.mp hport,
      Int32.toInt_inj.mp htype', UInt64.toNat_inj.mp hid]
  · intro h
    simp only [Entry.key, entry, record, h]

omit [DecidableEq V] in
/-- The tool finds the sending that `sendTime` finds. -/
theorem rowOf_record {sends : List (Line V)} {q : Line V}
    (hsends : ∀ r ∈ sends, 0 ≤ r.key.type.toInt) (hq : 0 ≤ q.key.type.toInt) :
    rowOf (sends.map fun r => entry (record .send r))
      (entry (record .recv q)) = (sendTime sends q).map (reportRow q) := by
  have htimes : (sendTimes (sends.map fun r => entry (record .send r))
      (entry (record .recv q)).key).Perm
      ((lookup sends q.key).map (·.time.toNat)) := by
    refine (List.mergeSort_perm _ _).trans (List.Perm.of_eq ?_)
    rw [List.filter_map, List.map_map, lookup]
    refine congrArg _ (List.filter_congr fun r hr => ?_)
    exact decide_eq_decide.mpr (key_entry_inj (hsends r hr) hq)
  rw [rowOf, max?_congr (htimes.filter _)]
  rfl

theorem filterMap_found {kind : LogKind} {rs : List LogRecord}
    (h : ∀ r ∈ rs, 0 ≤ r.key.type.toInt) :
    (rs.filterMap found).filterMap (fun x => if x.1 = kind then some x.2 else none) =
      (rs.filter fun r => r.kind = kind).map entry := by
  induction rs with
  | nil => rfl
  | cons r rs ih =>
    have hr := h r List.mem_cons_self
    rw [List.filterMap_cons, found, if_pos hr]
    dsimp only
    rw [List.filterMap_cons, List.filter_cons, ih (fun r' hr' => h r' (List.mem_cons_of_mem _ hr'))]
    dsimp only
    by_cases hkind : r.kind = kind
    · rw [if_pos hkind, if_pos (decide_eq_true hkind)]
      rfl
    · rw [if_neg hkind, if_neg (by simpa using hkind)]

omit [DecidableEq V] in
theorem filter_records (kind : LogKind) (sends recvs : List (Line V)) :
    (sends.map (record .send) ++ recvs.map (record .recv)).filter (fun r => r.kind = kind) =
      match kind with
      | .send => sends.map (record .send)
      | .recv => recvs.map (record .recv) := by
  cases kind <;> simp [List.filter_map, Function.comp_def, record]

theorem rows_of_run {s₀ : State V} (h₀ : Started d group s₀) (h : Reachable (step d group) s₀ s)
    {files : List (List LogRecord)}
    (hfiles : files.flatten.Perm (s.sends.map (record .send) ++ s.recvs.map (record .recv))) :
    (rows (files.map logFile)).Perm
      (s.recvs.filterMap fun q => (sendTime s.sends q).map (reportRow q)) := by
  have hinv := invariant_of_reachable h₀ h
  have hsends : ∀ r ∈ s.sends, 0 ≤ r.key.type.toInt := fun r hr => type_nonneg (hinv.sends r hr).key
  have hrecvs : ∀ q ∈ s.recvs, 0 ≤ q.key.type.toInt := by
    intro q hq
    obtain ⟨r, hr, hkey, -⟩ := hinv.recvs q hq
    exact hkey ▸ hsends r hr
  have hall : ∀ r ∈ files.flatten, 0 ≤ r.key.type.toInt := by
    intro r hr
    rcases List.mem_append.mp (hfiles.mem_iff.mp hr) with hr | hr
    · obtain ⟨l, hl, rfl⟩ := List.mem_map.mp hr
      exact hsends l hl
    · obtain ⟨l, hl, rfl⟩ := List.mem_map.mp hr
      exact hrecvs l hl
  have hkinds : ∀ kind, ((files.flatten.filterMap found).filterMap
      fun x => if x.1 = kind then some x.2 else none).Perm
        (((s.sends.map (record .send) ++ s.recvs.map (record .recv)).filter fun r => r.kind =
          kind).map entry) := by
    intro kind
    rw [filterMap_found hall]
    exact (hfiles.filter _).map _
  have hsent := hkinds .send
  have hreceived := hkinds .recv
  rw [filter_records, List.map_map] at hsent hreceived
  rw [rows, scan_eq, ← List.filterMap_flatten]
  refine (hreceived.filterMap _).trans (List.Perm.of_eq ?_)
  rw [List.filterMap_map]
  refine List.filterMap_congr fun q hq => ?_
  exact (rowOf_congr hsent _).trans (rowOf_record hsends (hrecvs q hq))

theorem Row.le_trans (a b c : Row) (hab : a.le b = true) (hbc : b.le c = true) : a.le c = true := by
  simp only [Row.le, Bool.or_eq_true, Bool.and_eq_true, decide_eq_true_eq, beq_iff_eq] at *
  omega

theorem Row.le_total (a b : Row) : (a.le b || b.le a) = true := by
  simp only [Row.le, Bool.or_eq_true, Bool.and_eq_true, decide_eq_true_eq, beq_iff_eq]
  omega

/-- However the lines of a run are spread over the log files, the report of a vehicle has a row
for each message received from it whose sending is known and not later, sorted by group, type
and id. If the run has kept the messages apart, then every row compares two lines about one
message, and its latency is the time between them. -/
theorem report_of_run (hdistinct : ∀ v w, (d.mac v).lastOctet = (d.mac w).lastOctet → v = w)
    {s₀ : State V} (h₀ : Started d group s₀) (h : Reachable (step d group) s₀ s)
    {files : List (List LogRecord)}
    (hfiles : files.flatten.Perm (s.sends.map (record .send) ++ s.recvs.map (record .recv)))
    (vm : ℕ) :
    (detailed (files.map logFile) vm).Perm
        ((s.recvs.filterMap fun q => (sendTime s.sends q).map (reportRow q)).filter
          (·.recv.vm = vm)) ∧
      (detailed (files.map logFile) vm).Pairwise (fun a b => a.le b = true) ∧
      (Reaches (step d group) (fun s a => keepsApart d s a = true) s₀ s →
        ∀ row ∈ detailed (files.map logFile) vm, 0 ≤ row.latency ∧
          ∃ q ∈ s.recvs, ∃ r ∈ s.sends, SameMessage r q ∧ row.recv = entry (record .recv q) ∧
            row.latency = (q.time.toNat : ℤ) - r.time.toNat) := by
  have hperm := (List.mergeSort_perm _ Row.le).trans
    ((rows_of_run h₀ h hfiles).filter (·.recv.vm = vm))
  refine ⟨hperm, List.pairwise_mergeSort Row.le_trans Row.le_total _, fun hapart row hrow => ?_⟩
  have htraced := traced_of_distinct hdistinct h₀ h ((distinct_iff_reaches h₀ h).mpr hapart)
  obtain ⟨q, hq, hrow⟩ := List.mem_filterMap.mp (List.mem_filter.mp (hperm.mem_iff.mp hrow)).1
  obtain ⟨t, ht, rfl⟩ := Option.map_eq_some_iff.mp hrow
  have hle : t ≤ q.time.toNat := of_decide_eq_true (List.mem_filter.mp (List.max?_mem ht)).2
  obtain ⟨r, hr, -, rfl, hsame⟩ := htraced.timed q hq t ht
  exact ⟨sub_nonneg.mpr (Nat.cast_le.mpr hle), q, hq, r, hr, hsame, rfl, rfl⟩

/-- A powertrain's message is heard by the two gateways and by the powertrain of the other car.
The report of the first car has two rows: the message as the component sent it and as the
gateway sent it on, each one microsecond on its way. -/
theorem single_message_reported :
    ∃ s, Reaches (step RelayOnce.twoCars 0) (fun s a => keepsApart RelayOnce.twoCars s a = true)
        quiet s ∧
      (detailed [logFile (s.sends.map (record .send) ++ s.recvs.map (record .recv))] 1).map
        (·.latency) = [1, 1] ∧
      ∀ row ∈ detailed [logFile (s.sends.map (record .send) ++ s.recvs.map (record .recv))] 1,
        ∃ q ∈ s.recvs, ∃ r ∈ s.sends, SameMessage r q := by
  have hrun : (runIf (keepsApart RelayOnce.twoCars) (step RelayOnce.twoCars 0) quiet
      [.send 0 Car.POWERTRAIN_PORT (ascii "speed") 1, receiveAt (.gateway 0) 0 2,
        receiveAt (.gateway 1) 1 3, receiveAt (.component 1 Car.POWERTRAIN_PORT) 2 4]).map (fun s =>
          ((s.recvs.filterMap fun q => (sendTime s.sends q).map (reportRow q)).filter
            (·.recv.vm = 1)).map (·.latency)) = some [1, 1] := by
    decide +kernel
  obtain ⟨s, hs, hlatencies⟩ := exists_reaches_of_runIf
    (fun s a => keepsApart RelayOnce.twoCars s a = true) _ (fun _ _ _ htest => htest) hrun
  have hfiles : [s.sends.map (record .send) ++ s.recvs.map (record .recv)].flatten.Perm
      (s.sends.map (record .send) ++ s.recvs.map (record .recv)) := by rw [List.flatten_singleton]
  obtain ⟨hperm, -, hrows⟩ :=
    report_of_run (by decide) started_quiet hs.reachable hfiles 1
  refine ⟨s, hs, ?_, fun row hrow => ?_⟩
  · have hperm := hperm.map (·.latency)
    rw [hlatencies] at hperm
    exact (List.perm_replicate (n := 2) (a := (1 : ℤ))).mp hperm
  · obtain ⟨-, q, hq, r, hr, hsame, -⟩ := hrows hs row hrow
    exact ⟨q, hq, r, hr, hsame⟩

end Report

end CarNetwork.LatencyLog
