import CarNetwork.Message

/-!
# The message codec is exact

Every search of the parser lands at its cursor, because the field that the cursor
stands on begins with the key searched for, and the value read ends at the space
that the writer put after it. A body therefore plays no part in the header.
-/
namespace CarNetwork.Protocol

open CarNetwork.ByteText CarNetwork.DecimalText CarNetwork.Conversions

/-- Printed numbers contain no space, so the writer's separator ends them. -/
theorem space_notMem_decimal (n : ℕ) : space ∉ decimal n := by
  intro h
  exact absurd (isDigit_of_mem_decimal n space h) (by decide)

theorem space_notMem_intText (z : ℤ) : space ∉ intText z := by
  unfold intText
  split
  · rw [List.mem_cons, not_or]
    exact ⟨by decide, space_notMem_decimal _⟩
  · exact space_notMem_decimal _

theorem intText_ne_nil (z : ℤ) : intText z ≠ [] := by
  unfold intText
  split
  · simp
  · exact decimal_ne_nil _

/-- A field at the cursor is read whole, and the cursor moves behind it. -/
theorem extractField_field {s key v rest : Bytes} {pos : ℕ}
    (h : s.drop pos = field key v ++ rest) (hv : space ∉ v) :
    extractField s key pos = (v, pos + (field key v).length) := by
  have hkey : s.drop pos = (key ++ [61]) ++ (v ++ space :: rest) := by
    simpa [field] using h
  have hval : s.drop (pos + (key.length + 1)) = v ++ space :: rest := by
    simpa using drop_piece hkey
  have hstop := find_byte_of_drop hval hv
  have hsub := substr_of_drop hval
  simp only [extractField, find_of_drop hkey, hstop, Option.getD_some, Nat.add_sub_cancel_left,
    hsub, field, List.length_append, List.length_singleton]
  congr 1
  omega

theorem readField_ok {α : Type} {v : Bytes} {dflt a : α} {conv : Bytes → Except CxxException α}
    (hv : v ≠ []) (hc : conv v = .ok a) : readField v dflt conv = .ok a := by
  simp [readField, hv, hc]

theorem inInt_of_lt (n : ℕ) (h : n < 65536) : InInt n := by
  constructor <;> omega

/-- A byte (or word) printed in decimal is read back by `stoi` and the cast. -/
theorem stoi_decimal (n : ℕ) (h : n < 65536) : stoi (decimal n) = .ok (n : ℤ) := by
  have hi := stoi_intText (n : ℤ) (inInt_of_lt n h)
  rwa [intText, if_neg (by omega), Int.natAbs_natCast] at hi

theorem readField_uint8 (b : UInt8) :
    readField (decimal b.toNat) 0 (fun v => (stoi v).map UInt8.ofInt) = .ok b := by
  refine readField_ok (decimal_ne_nil _) ?_
  rw [stoi_decimal _ (by have := UInt8.toNat_lt b; omega)]
  exact congrArg Except.ok (uint8_ofInt_toNat b)

theorem readField_uint16 (w : UInt16) :
    readField (decimal w.toNat) 0 (fun v => (stoi v).map UInt16.ofInt) = .ok w := by
  refine readField_ok (decimal_ne_nil _) ?_
  rw [stoi_decimal _ (UInt16.toNat_lt w)]
  exact congrArg Except.ok (uint16_ofInt_toNat w)

theorem readField_uint64 (w : UInt64) : readField (decimal w.toNat) 0 stoull = .ok w :=
  readField_ok (decimal_ne_nil _) (stoull_decimal w)

theorem readField_int32 (i : Int32) :
    readField (intText i.toInt) 0 (fun v => (stoi v).map Int32.ofInt) = .ok i := by
  refine readField_ok (intText_ne_nil _) ?_
  have hlo := Int32.le_toInt i
  have hhi := Int32.toInt_lt i
  rw [stoi_intText _ (by constructor <;> omega)]
  simp [Except.map]

theorem readField_control (c : ControlType) :
    readField (intText c.toInt) .NONE (fun v => (stoi v).map ControlType.ofInt) = .ok c := by
  refine readField_ok (intText_ne_nil _) ?_
  rw [stoi_intText _ c.inInt_toInt]
  simp [Except.map]

theorem readField_msgac (b : UInt8) :
    readField (decimal b.toNat) 0 (fun v => (stoull v).map UInt64.toUInt8) = .ok b := by
  refine readField_ok (decimal_ne_nil _) ?_
  have hb : b.toNat = b.toUInt64.toNat := by simp
  rw [hb, stoull_decimal]
  simp [Except.map]

/-- The body is whatever the cursor leaves, even when that is nothing. -/
theorem body_of_drop {s body : Bytes} {pos : ℕ} (h : s.drop pos = body) :
    (if pos < s.length then substr s pos (s.length - pos) else []) = body := by
  split
  · rw [substr, h, ← h, List.take_of_length_le (by simp)]
  · rw [← h, List.drop_eq_nil_of_le (by omega)]

/-- Reading back what was written gives the message, for every value of every
field and every body. -/
theorem parse_build (m : Message) : parseMessage (buildMessage m) = .ok m := by
  have h0 : (buildMessage m).drop 0 = buildMessage m := rfl
  have h1 := drop_piece h0
  have h2 := drop_piece h1
  have h3 := drop_piece h2
  have h4 := drop_piece h3
  have h5 := drop_piece h4
  have h6 := drop_piece h5
  have h7 := drop_piece h6
  have h8 := drop_piece h7
  simp only [parseMessage, extractField_field h0 (space_notMem_decimal _),
    extractField_field h1 (space_notMem_decimal _), extractField_field h2 (space_notMem_decimal _),
    extractField_field h3 (space_notMem_decimal _), extractField_field h4 (space_notMem_intText _),
    extractField_field h5 (space_notMem_decimal _), extractField_field h6 (space_notMem_intText _),
    extractField_field h7 (space_notMem_decimal _), readField_uint8, readField_uint16,
    readField_uint64, readField_int32, readField_control, readField_msgac, body_of_drop h8]
  rfl

theorem buildMessage_injective : Function.Injective buildMessage := by
  intro m n h
  have hm := parse_build m
  rw [h, parse_build n] at hm
  exact (Except.ok.inj hm).symm

/-- The codec loses nothing: every message is read back, and no two messages share a
text, so no body can pass for header fields. -/
theorem message_round_trip :
    (∀ m : Message, parseMessage (buildMessage m) = .ok m) ∧ Function.Injective buildMessage :=
  ⟨parse_build, buildMessage_injective⟩

end CarNetwork.Protocol
