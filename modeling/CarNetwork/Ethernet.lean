import CarNetwork.Conversions

/-!
# Addresses and endpoints

Hardware addresses, their text form, and the logical endpoints built on them. The
text form is a key of the ready sets, so its injectivity is what lets a set of
texts stand for a set of vehicles.
-/
namespace CarNetwork.Ethernet

open CarNetwork.ByteText CarNetwork.Conversions

/-- `Ethernet::Address`: six bytes, the last of which encodes the vehicle id. -/
@[ext] structure Address where
  addr : Vector UInt8 6
  deriving DecidableEq, Repr

namespace Address

def zero : Address := ⟨#v[0, 0, 0, 0, 0, 0]⟩
def BROADCAST : Address := ⟨#v[255, 255, 255, 255, 255, 255]⟩

instance : Inhabited Address := ⟨zero⟩

end Address

/-- A hexadecimal digit; `letter` is the code of the letter used for ten. -/
def hexDigit (letter d : ℕ) : UInt8 :=
  if d < 10 then UInt8.ofNat (48 + d) else UInt8.ofNat (letter + (d - 10))

/-- The conversion `%02X` (or `%02x`) of a byte. -/
def hexByte (letter : ℕ) (b : UInt8) : Bytes :=
  [hexDigit letter (b.toNat / 16), hexDigit letter (b.toNat % 16)]

def hexValue (b : UInt8) : Option ℕ :=
  if 48 ≤ b ∧ b ≤ 57 then some (b.toNat - 48)
  else if 65 ≤ b ∧ b ≤ 70 then some (b.toNat - 55)
  else if 97 ≤ b ∧ b ≤ 102 then some (b.toNat - 87)
  else none

/-- The conversion `%2x` into an `unsigned int`. A sign and the base prefix count among the two
characters; a minus negates in 32 bits, and the C library of the program takes a bare prefix
for zero. -/
def scanHex2 (s : Bytes) : Option (ℕ × Bytes) :=
  match s.dropWhile isSpace with
  | [] => none
  | [a] => (hexValue a).map fun x => (x, [])
  | a :: b :: t =>
    if a = 43 then (hexValue b).map fun y => (y, t)
    else if a = 45 then (hexValue b).map fun y => ((2 ^ 32 - y) % 2 ^ 32, t)
    else if a = 48 ∧ (b = 120 ∨ b = 88) then some (0, t)
    else
      match hexValue a, hexValue b with
      | some x, some y => some (16 * x + y, t)
      | some x, none => some (x, b :: t)
      | none, _ => none

def colon : Bytes := [58]

/-- A literal colon of the scan format. -/
def scanColon : Bytes → Option Bytes
  | 58 :: t => some t
  | _ => none

namespace Address

def str (a : Address) : Bytes :=
  hexByte 65 a.addr[0] ++ colon ++ hexByte 65 a.addr[1] ++ colon ++ hexByte 65 a.addr[2] ++
    colon ++ hexByte 65 a.addr[3] ++ colon ++ hexByte 65 a.addr[4] ++ colon ++ hexByte 65 a.addr[5]

/-- The zero address unless all six conversions succeed. -/
def fromString (s : Bytes) : Address :=
  (do let (b0, s) ← scanHex2 s
      let s ← scanColon s
      let (b1, s) ← scanHex2 s
      let s ← scanColon s
      let (b2, s) ← scanHex2 s
      let s ← scanColon s
      let (b3, s) ← scanHex2 s
      let s ← scanColon s
      let (b4, s) ← scanHex2 s
      let s ← scanColon s
      let (b5, _) ← scanHex2 s
      some (⟨#v[UInt8.ofNat b0, UInt8.ofNat b1, UInt8.ofNat b2, UInt8.ofNat b3,
        UInt8.ofNat b4, UInt8.ofNat b5]⟩ : Address)).getD zero

end Address

theorem hexDigit_inj : ∀ x y : Fin 16, hexDigit 65 x = hexDigit 65 y → x = y := by decide

theorem hexByte_injective : Function.Injective (hexByte 65) := by
  intro a b hab
  have ha := UInt8.toNat_lt a
  have hb := UInt8.toNat_lt b
  simp only [hexByte, List.cons.injEq, and_true] at hab
  have hhi := congrArg Fin.val
    (hexDigit_inj ⟨a.toNat / 16, by omega⟩ ⟨b.toNat / 16, by omega⟩ hab.1)
  have hlo := congrArg Fin.val
    (hexDigit_inj ⟨a.toNat % 16, by omega⟩ ⟨b.toNat % 16, by omega⟩ hab.2)
  apply UInt8.toNat_inj.mp
  dsimp only at hhi hlo
  omega

theorem Address.str_injective : Function.Injective Address.str := by
  intro a b h
  have hlen (x : UInt8) : (hexByte 65 x).length = 2 := rfl
  have hcolon : colon.length = 1 := rfl
  simp only [Address.str] at h
  obtain ⟨h, h5⟩ := List.append_inj h (by simp [hlen, hcolon])
  obtain ⟨h, -⟩ := List.append_inj h (by simp [hlen, hcolon])
  obtain ⟨h, h4⟩ := List.append_inj h (by simp [hlen, hcolon])
  obtain ⟨h, -⟩ := List.append_inj h (by simp [hlen, hcolon])
  obtain ⟨h, h3⟩ := List.append_inj h (by simp [hlen, hcolon])
  obtain ⟨h, -⟩ := List.append_inj h (by simp [hlen, hcolon])
  obtain ⟨h, h2⟩ := List.append_inj h (by simp [hlen, hcolon])
  obtain ⟨h, -⟩ := List.append_inj h (by simp [hlen, hcolon])
  obtain ⟨h, h1⟩ := List.append_inj h (by simp [hlen, hcolon])
  obtain ⟨h0, -⟩ := List.append_inj h (by simp [hlen])
  apply Address.ext
  apply Vector.ext
  intro i hi
  interval_cases i
  exacts [hexByte_injective h0, hexByte_injective h1, hexByte_injective h2,
    hexByte_injective h3, hexByte_injective h4, hexByte_injective h5]

/-- `Protocol::Endpoint`. -/
structure Endpoint where
  mac : Address := .zero
  port : UInt16 := 0
  deriving DecidableEq, Repr

/-- Where a received frame came from. -/
inductive ChannelOrigin
  | ethernet
  | sharedMemory
  deriving DecidableEq, Repr

def Address.firstOctet (mac : Address) : UInt8 := mac.addr[0]

def Address.lastOctet (mac : Address) : UInt8 := mac.addr[5]

/-- The vehicle id is the last octet of the address. -/
def vmIdFromMac (mac : Address) : ℤ := mac.lastOctet.toNat

/-- The endpoint of a vehicle, through the text of its presumed address. -/
def endpointFromVm (vmId : ℤ) (port : UInt16) : Except CxxException Endpoint :=
  if vmId < 0 ∨ 255 < vmId then .error .runtimeError
  else .ok ⟨Address.fromString (ascii "00:00:00:00:00:" ++ hexByte 97 (UInt8.ofNat vmId.toNat)),
    port⟩

/-- The address that `endpointFromVm` gives a vehicle. -/
def vmAddress (b : UInt8) : Address := ⟨#v[0, 0, 0, 0, 0, b]⟩

/-- The scan `"%2x:%2x:%2x:%2x:%2x:%2x"`, all six conversions. -/
def scanAddress (s : Bytes) : Option Address := do
  let (b0, s) ← scanHex2 s
  let s ← scanColon s
  let (b1, s) ← scanHex2 s
  let s ← scanColon s
  let (b2, s) ← scanHex2 s
  let s ← scanColon s
  let (b3, s) ← scanHex2 s
  let s ← scanColon s
  let (b4, s) ← scanHex2 s
  let s ← scanColon s
  let (b5, _) ← scanHex2 s
  return ⟨#v[UInt8.ofNat b0, UInt8.ofNat b1, UInt8.ofNat b2, UInt8.ofNat b3, UInt8.ofNat b4,
    UInt8.ofNat b5]⟩

theorem hexValue_hexDigit : ∀ letter ∈ [65, 97], ∀ d : Fin 16,
    hexValue (hexDigit letter d) = some (d : ℕ) ∧ isSpace (hexDigit letter d) = false := by decide

/-- A digit is neither a sign nor the letter of the base prefix. -/
theorem hexDigit_plain : ∀ letter ∈ [65, 97], ∀ d : Fin 16,
    (hexDigit letter d ≠ 43 ∧ hexDigit letter d ≠ 45) ∧
      ¬ (hexDigit letter d = 120 ∨ hexDigit letter d = 88) := by decide

section Scan

variable {letter : ℕ} (hletter : letter ∈ [65, 97])
include hletter

theorem scanHex2_hexByte (b : UInt8) (s : Bytes) :
    scanHex2 (hexByte letter b ++ s) = some (b.toNat, s) := by
  have hb := UInt8.toNat_lt b
  have hhi := hexValue_hexDigit letter hletter ⟨b.toNat / 16, by omega⟩
  have hlo := hexValue_hexDigit letter hletter ⟨b.toNat % 16, by omega⟩
  have hsign := (hexDigit_plain letter hletter ⟨b.toNat / 16, by omega⟩).1
  have hbase := (hexDigit_plain letter hletter ⟨b.toNat % 16, by omega⟩).2
  dsimp only at hhi hlo hsign hbase
  have hvalue : 16 * (b.toNat / 16) + b.toNat % 16 = b.toNat := by omega
  simp [scanHex2, hexByte, hhi.1, hhi.2, hlo.1, hsign.1, hsign.2, hbase, hvalue]

/-- One conversion of the scan. -/
theorem bind_scanHex2 {α : Type} (b : UInt8) (s : Bytes) (f : ℕ × Bytes → Option α) :
    (scanHex2 (hexByte letter b ++ s) >>= f) = f (b.toNat, s) := by
  rw [scanHex2_hexByte hletter]
  rfl

omit hletter in
theorem bind_scanColon {α : Type} (s : Bytes) (f : Bytes → Option α) :
    (scanColon (colon ++ s) >>= f) = f s := rfl

/-- The text of six octets is scanned back. -/
theorem scanAddress_hexBytes (b0 b1 b2 b3 b4 b5 : UInt8) :
    scanAddress (hexByte letter b0 ++
      (colon ++ (hexByte letter b1 ++ (colon ++ (hexByte letter b2 ++ (colon ++
      (hexByte letter b3 ++ (colon ++ (hexByte letter b4 ++ (colon ++ hexByte letter b5)))))))))) =
      some ⟨#v[b0, b1, b2, b3, b4, b5]⟩ := by
  rw [← List.append_nil (hexByte letter b5)]
  refine (bind_scanHex2 hletter b0 _ _).trans ((bind_scanColon _ _).trans ?_)
  refine (bind_scanHex2 hletter b1 _ _).trans ((bind_scanColon _ _).trans ?_)
  refine (bind_scanHex2 hletter b2 _ _).trans ((bind_scanColon _ _).trans ?_)
  refine (bind_scanHex2 hletter b3 _ _).trans ((bind_scanColon _ _).trans ?_)
  refine (bind_scanHex2 hletter b4 _ _).trans ((bind_scanColon _ _).trans ?_)
  refine (bind_scanHex2 hletter b5 _ _).trans ?_
  simp only [UInt8.ofNat_toNat]
  rfl

end Scan

theorem fromString_eq (s : Bytes) : Address.fromString s = (scanAddress s).getD Address.zero := rfl

theorem fromString_vm (b : UInt8) :
    Address.fromString (ascii "00:00:00:00:00:" ++ hexByte 97 b) = vmAddress b := by
  have hscan : scanAddress (ascii "00:00:00:00:00:" ++ hexByte 97 b) = some (vmAddress b) :=
    scanAddress_hexBytes (by decide) 0 0 0 0 0 b
  rw [fromString_eq, hscan]
  rfl

theorem endpointFromVm_ok (vmId : ℤ) (port : UInt16) (h0 : 0 ≤ vmId) (h1 : vmId ≤ 255) :
    endpointFromVm vmId port = .ok ⟨vmAddress (UInt8.ofNat vmId.toNat), port⟩ := by
  rw [endpointFromVm, if_neg (by omega), fromString_vm]

/-- The six bytes of an address. -/
def addressBytes (a : Address) : Bytes :=
  [a.addr[0], a.addr[1], a.addr[2], a.addr[3], a.addr[4], a.addr[5]]

def readAddress : Bytes → Option (Address × Bytes)
  | b0 :: b1 :: b2 :: b3 :: b4 :: b5 :: s => some (⟨#v[b0, b1, b2, b3, b4, b5]⟩, s)
  | _ => none

theorem address_eta (a : Address) :
    (⟨#v[a.addr[0], a.addr[1], a.addr[2], a.addr[3], a.addr[4], a.addr[5]]⟩ : Address) = a := by
  apply Address.ext
  apply Vector.ext
  intro i hi
  interval_cases i <;> rfl

@[simp] theorem readAddress_addressBytes (a : Address) (s : Bytes) :
    readAddress (addressBytes a ++ s) = some (a, s) := by
  simp [readAddress, addressBytes, address_eta]

/-- An address is read off exactly the texts that begin with its bytes. -/
theorem readAddress_eq_some_iff {s rest : Bytes} {a : Address} :
    readAddress s = some (a, rest) ↔ s = addressBytes a ++ rest := by
  constructor
  · intro h
    unfold readAddress at h
    split at h
    · cases h
      rfl
    · cases h
  · rintro rfl
    exact readAddress_addressBytes a rest

/-- Wildcard port of observers, which is also the port of every gateway. -/
def ANY_PORT : UInt16 := 0xFFFF
def GATEWAY_PORT : UInt16 := 0xFFFF

end CarNetwork.Ethernet
