import CarNetwork.Ethernet

/-!
# Protocol messages and their text form

A message travels as a line of `KEY=value` fields followed by a free body. The
parser looks for each key from a moving cursor and keeps a field's default when
the key is missing or its value empty, so it accepts any byte string as some
message; only the number conversions can throw.
-/
namespace CarNetwork.Protocol

open CarNetwork.ByteText CarNetwork.DecimalText CarNetwork.Conversions

/-- A value of the underlying type of `ControlType` that no enumerator names. -/
structure UnnamedControl where
  code : ℤ
  inInt : InInt code
  unnamed : code < 0 ∨ 10 < code
  deriving DecidableEq, Repr

/-- `ControlType`: the enumerators in their order, and the other values a cast
from `int` can produce. -/
inductive ControlType
  | NONE
  | READY
  | GO
  | SYNC_REQ
  | SYNC_RESP
  | DELAY_REQ
  | DELAY_RESP
  | GROUP_REGISTER
  | GROUP_MOVE_REQUEST
  | GROUP_MOVE_NOTIFY
  | GROUP_ASSIGN
  | unnamed (c : UnnamedControl)
  deriving DecidableEq, Repr

namespace ControlType

/-- `static_cast<int>`. -/
def toInt : ControlType → ℤ
  | NONE => 0
  | READY => 1
  | GO => 2
  | SYNC_REQ => 3
  | SYNC_RESP => 4
  | DELAY_REQ => 5
  | DELAY_RESP => 6
  | GROUP_REGISTER => 7
  | GROUP_MOVE_REQUEST => 8
  | GROUP_MOVE_NOTIFY => 9
  | GROUP_ASSIGN => 10
  | unnamed c => c.code

/-- `static_cast<ControlType>` of an `int`. -/
def ofInt (z : ℤ) : ControlType :=
  if h : InInt z ∧ (z < 0 ∨ 10 < z) then unnamed ⟨z, h.1, h.2⟩
  else match z.toNat with
    | 1 => READY
    | 2 => GO
    | 3 => SYNC_REQ
    | 4 => SYNC_RESP
    | 5 => DELAY_REQ
    | 6 => DELAY_RESP
    | 7 => GROUP_REGISTER
    | 8 => GROUP_MOVE_REQUEST
    | 9 => GROUP_MOVE_NOTIFY
    | 10 => GROUP_ASSIGN
    | _ => NONE

theorem inInt_toInt (c : ControlType) : InInt c.toInt := by
  cases c with
  | unnamed c => exact c.inInt
  | _ => decide

@[simp] theorem ofInt_toInt (c : ControlType) : ofInt c.toInt = c := by
  cases c with
  | unnamed c =>
    exact dif_pos ⟨c.inInt, c.unnamed⟩
  | _ => decide

end ControlType

structure Message where
  groupId : UInt8 := 0
  origVm : UInt8 := 0
  origPort : UInt16 := 0
  timestamp : UInt64 := 0
  type : Int32 := 0
  msgId : UInt64 := 0
  msgac : UInt8 := 0
  body : Bytes := []
  control : ControlType := .NONE
  deriving DecidableEq

/-- One `KEY=value ` group of the header. -/
def field (key value : Bytes) : Bytes := key ++ ([61] ++ (value ++ [space]))

def buildMessage (msg : Message) : Bytes :=
  field (ascii "GROUP") (decimal msg.groupId.toNat) ++
  (field (ascii "VM") (decimal msg.origVm.toNat) ++
  (field (ascii "PORT") (decimal msg.origPort.toNat) ++
  (field (ascii "TIME") (decimal msg.timestamp.toNat) ++
  (field (ascii "TYPE") (intText msg.type.toInt) ++
  (field (ascii "ID") (decimal msg.msgId.toNat) ++
  (field (ascii "CONTROL") (intText msg.control.toInt) ++
  (field (ascii "MSGAC") (decimal msg.msgac.toNat) ++
  msg.body)))))))

/-- The value of a field searched from the cursor, and the cursor after it. -/
def extractField (s key : Bytes) (pos : ℕ) : Bytes × ℕ :=
  match find s (key ++ [61]) pos with
  | none => ([], pos)
  | some p =>
    let p := p + (key.length + 1)
    let stop := (find s [space] p).getD s.length
    (substr s p (stop - p), stop + 1)

/-- Convert a non-empty value; keep the default otherwise. -/
def readField {α : Type} (v : Bytes) (dflt : α) (conv : Bytes → Except CxxException α) :
    Except CxxException α :=
  if v.isEmpty then .ok dflt else conv v

def parseMessage (s : Bytes) : Except CxxException Message := do
  let (v, pos) := extractField s (ascii "GROUP") 0
  let groupId ← readField v 0 fun v => (stoi v).map UInt8.ofInt
  let (v, pos) := extractField s (ascii "VM") pos
  let origVm ← readField v 0 fun v => (stoi v).map UInt8.ofInt
  let (v, pos) := extractField s (ascii "PORT") pos
  let origPort ← readField v 0 fun v => (stoi v).map UInt16.ofInt
  let (v, pos) := extractField s (ascii "TIME") pos
  let timestamp ← readField v 0 stoull
  let (v, pos) := extractField s (ascii "TYPE") pos
  let type ← readField v 0 fun v => (stoi v).map Int32.ofInt
  let (v, pos) := extractField s (ascii "ID") pos
  let msgId ← readField v 0 stoull
  let (v, pos) := extractField s (ascii "CONTROL") pos
  let control ← readField v .NONE fun v => (stoi v).map ControlType.ofInt
  let (v, pos) := extractField s (ascii "MSGAC") pos
  let msgac ← readField v 0 fun v => (stoull v).map UInt64.toUInt8
  let body := if pos < s.length then substr s pos (s.length - pos) else []
  return { groupId, origVm, origPort, timestamp, type, msgId, msgac, body, control }

end CarNetwork.Protocol
