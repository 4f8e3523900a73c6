import CarNetwork.ByteText
import Mathlib.Data.Fin.VecNotation
import Mathlib.Data.List.GetD
import Mathlib.Tactic

/-!
# Message authentication codes

The tag of a body is a running exclusive or of its bytes, each masked with a key
byte chosen by its position. Exclusive or forgets the order of its arguments, so
the tag is the sum of the bytes and a mask that depends on the length only, with
period eight. A tag therefore says nothing about the order of the bytes, and nothing
about the key where the mask vanishes.
-/
namespace CarNetwork.Protocol

open CarNetwork.ByteText

abbrev Key := Fin 4 → UInt8

def SECRET_KEY : Key := ![0x41, 0x23, 0x55, 0x88]

/-- The loop of `generate_mac` from position `i` on. -/
def macLoop (key : Key) : ℕ → UInt8 → Bytes → UInt8
  | _, msgac, [] => msgac
  | i, msgac, b :: bs => macLoop key (i + 1) (msgac ^^^ (b ^^^ key (Fin.ofNat 4 i))) bs

def generateMac (key : Key) (buf : Bytes) : UInt8 := macLoop key 0 0 (cString buf)

def verifyMsgac (key : Key) (myMsgac : UInt8) (buf : Bytes) : Bool :=
  generateMac key buf == myMsgac

/-- Exclusive or of all bytes of a text. -/
def xorAll (s : Bytes) : UInt8 := s.foldr (· ^^^ ·) 0

/-- Exclusive or of the key bytes used for `n` positions starting at `i`. -/
def keyMask (key : Key) : ℕ → ℕ → UInt8
  | _, 0 => 0
  | i, n + 1 => key (Fin.ofNat 4 i) ^^^ keyMask key (i + 1) n

theorem macLoop_eq (key : Key) (s : Bytes) (i : ℕ) (acc : UInt8) :
    macLoop key i acc s = acc ^^^ (xorAll s ^^^ keyMask key i s.length) := by
  induction s generalizing i acc with
  | nil => simp [macLoop, xorAll, keyMask]
  | cons b s ih =>
    rw [macLoop, ih]
    simp only [xorAll, List.foldr_cons, List.length_cons, keyMask]
    ac_rfl

/-- The tag is the exclusive or of the bytes and of a mask given by the length. -/
theorem generateMac_eq (key : Key) (buf : Bytes) (h : 0 ∉ buf) :
    generateMac key buf = xorAll buf ^^^ keyMask key 0 buf.length := by
  simp [generateMac, cString_of_no_nul buf h, macLoop_eq]

theorem xorAll_perm {s t : Bytes} (h : s.Perm t) : xorAll s = xorAll t :=
  h.foldr_eq 0

/-- Key bytes depend on the position modulo four only. -/
theorem keyMask_shift (key : Key) (i n : ℕ) : keyMask key (i + 4) n = keyMask key i n := by
  induction n generalizing i with
  | zero => rfl
  | succ n ih =>
    have hi : Fin.ofNat 4 (i + 4) = Fin.ofNat 4 i := by ext; simp
    rw [keyMask, keyMask, hi, show i + 4 + 1 = i + 1 + 4 by ring, ih]

/-- Eight positions use every key byte twice, and the two uses cancel. -/
theorem keyMask_add_eight (key : Key) (n : ℕ) : keyMask key 0 (n + 8) = keyMask key 0 n := by
  have hshift : keyMask key 8 n = keyMask key 0 n := by
    rw [keyMask_shift key 4, keyMask_shift key 0]
  have hcancel : ∀ a b c d x : UInt8,
      a ^^^ (b ^^^ (c ^^^ (d ^^^ (a ^^^ (b ^^^ (c ^^^ (d ^^^ x))))))) = x := by
    intro a b c d x
    calc a ^^^ (b ^^^ (c ^^^ (d ^^^ (a ^^^ (b ^^^ (c ^^^ (d ^^^ x)))))))
        = (a ^^^ a) ^^^ (b ^^^ b) ^^^ (c ^^^ c) ^^^ (d ^^^ d) ^^^ x := by ac_rfl
      _ = x := by simp
  rw [← hshift]
  exact hcancel (key 0) (key 1) (key 2) (key 3) _

theorem keyMask_mod_eight (key : Key) (n : ℕ) : keyMask key 0 n = keyMask key 0 (n % 8) := by
  induction n using Nat.strong_induction_on with
  | _ n ih =>
    by_cases h : n < 8
    · rw [Nat.mod_eq_of_lt h]
    · obtain ⟨m, rfl⟩ : ∃ m, n = m + 8 := ⟨n - 8, by omega⟩
      rw [keyMask_add_eight, ih m (by omega), Nat.add_mod_right]

/-! ## What the tag does not depend on -/

/-- A body of eight bytes, or of any multiple of them, has a tag without the key. -/
theorem generateMac_of_eight_dvd (key : Key) {body : Bytes} (h0 : 0 ∉ body)
    (h : body.length % 8 = 0) :
    generateMac key body = xorAll body := by
  rw [generateMac_eq key body h0, keyMask_mod_eight, h, keyMask, UInt8.xor_zero]

/-- Two keys that every other length tells apart: the first byte is used once more than
the others up to length three, the last one from length five on. -/
theorem keyMask_ne (n : ℕ) (h : n % 8 ≠ 0) :
    keyMask ![0, 0, 0, 0] 0 n ≠ keyMask ![1, 0, 0, 2] 0 n := by
  have hall : ∀ l : Fin 8, l.val ≠ 0 → keyMask ![0, 0, 0, 0] 0 l ≠ keyMask ![1, 0, 0, 2] 0 l := by
    decide
  rw [keyMask_mod_eight, keyMask_mod_eight _ n]
  exact hall ⟨n % 8, Nat.mod_lt _ (by norm_num)⟩ h

/-- The tag of a body depends on the key exactly when the length of the body is not a
multiple of eight. -/
theorem tag_depends_on_key_iff (body : Bytes) (h0 : 0 ∉ body) :
    (∃ key key' : Key, generateMac key body ≠ generateMac key' body) ↔ body.length % 8 ≠ 0 := by
  constructor
  · rintro ⟨key, key', hne⟩ h
    exact hne (by rw [generateMac_of_eight_dvd key h0 h, generateMac_of_eight_dvd key' h0 h])
  · intro h
    refine ⟨![0, 0, 0, 0], ![1, 0, 0, 2], fun heq => keyMask_ne _ h ?_⟩
    rw [generateMac_eq _ _ h0, generateMac_eq _ _ h0] at heq
    exact (UInt8.xor_right_inj _).mp heq

/-- The tag of one digit depends on the key. -/
theorem digit_tag_depends_on_key : ∃ key key' : Key, generateMac key [53] ≠ generateMac key' [53] :=
  (tag_depends_on_key_iff [53] (by decide)).mpr (by decide)

/-- Anybody can compute the tag of a number of eight digits. -/
theorem eight_digits_without_key :
    ascii "12345678" ≠ [] ∧ 0 ∉ ascii "12345678" ∧
      ∀ key key' : Key, generateMac key (ascii "12345678") =
        generateMac key' (ascii "12345678") := by
  have h0 : 0 ∉ ascii "12345678" := by decide
  refine ⟨by decide, h0, fun key key' => ?_⟩
  rw [generateMac_of_eight_dvd key h0 (by decide), generateMac_of_eight_dvd key' h0 (by decide)]

/-- The body with the bytes at two positions exchanged. -/
def swapBytes (b : Bytes) (i j : ℕ) : Bytes := (b.set i (b.getD j 0)).set j (b.getD i 0)

theorem swapBytes_perm {b : Bytes} {i j : ℕ} (hi : i < b.length) (hj : j < b.length) :
    (swapBytes b i j).Perm b := by
  rw [swapBytes, List.getD_eq_getElem b 0 hi, List.getD_eq_getElem b 0 hj]
  exact List.set_set_perm hi hj

/-- Exchanging two bytes never changes the tag, whatever the bytes and the key: no
exchange is rejected. -/
theorem swapped_body_accepted (key : Key) (b : Bytes) (i j : ℕ) (hij : i < j)
    (hj : j < b.length) (h0 : 0 ∉ b) :
    verifyMsgac key (generateMac key b) (swapBytes b i j) = true := by
  have hperm := swapBytes_perm (hij.trans hj) hj
  have h0' : 0 ∉ swapBytes b i j := fun h => h0 (hperm.mem_iff.mp h)
  rw [verifyMsgac, generateMac_eq key b h0, generateMac_eq key _ h0', xorAll_perm hperm,
    hperm.length_eq]
  exact beq_self_eq_true _

theorem swapped_digits_accepted :
    verifyMsgac SECRET_KEY (generateMac SECRET_KEY (ascii "170"))
      (swapBytes (ascii "170") 0 2) = true :=
  swapped_body_accepted SECRET_KEY (ascii "170") 0 2 (by decide) (by decide) (by decide)

/-- Ninety-one passes for nineteen. -/
theorem nineteen_rearranged :
    (ascii "19").getD 0 0 ≠ (ascii "19").getD 1 0 ∧ SECRET_KEY 0 ≠ SECRET_KEY 1 ∧
      swapBytes (ascii "19") 0 1 = ascii "91" ∧
      verifyMsgac SECRET_KEY (generateMac SECRET_KEY (ascii "19")) (ascii "91") = true := by
  decide

end CarNetwork.Protocol
