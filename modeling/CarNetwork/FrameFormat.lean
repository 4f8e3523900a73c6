import CarNetwork.Transport

/-!
# The frames that the shared-memory engine accepts

`deserialize_frame` compares the size field with the capacity of a frame but not with the
length of the message: the comparison is there, its body is a comment. What it accepts is
therefore any text that begins with a header whose size is small enough. It is the format
that `serialize_frame` writes exactly where size and length agree.
-/
namespace CarNetwork.Transport

open CarNetwork.ByteText CarNetwork.Ethernet CarNetwork.SharedBus CarNetwork.WordBytes

/-- Bytes of a frame in front of its data. -/
def HEADER_SIZE : ℕ := 18

/-- The header of a frame, with the size it announces. -/
def headerBytes (dst src : Address) (proto : UInt16) (size : ℕ) : Bytes :=
  addressBytes dst ++ (addressBytes src ++ (wordBytes 2 proto.toNat ++ wordBytes 4 size))

@[simp] theorem length_headerBytes (dst src : Address) (proto : UInt16) (size : ℕ) :
    (headerBytes dst src proto size).length = HEADER_SIZE := by
  simp [headerBytes, addressBytes, HEADER_SIZE]

theorem serializeFrame_eq (f : Frame) :
    serializeFrame f = headerBytes f.dst f.src f.proto f.data.length ++ f.data := by
  simp [serializeFrame, headerBytes]

/-- The size field of a message, if the message is long enough to have one. -/
def announcedSize (s : Bytes) : Option ℕ :=
  if HEADER_SIZE ≤ s.length then some (wordValue ((s.drop 14).take 4)) else none

theorem announcedSize_header (dst src : Address) (proto : UInt16) {size : ℕ}
    (hsize : size < 256 ^ 4) (tail : Bytes) :
    announcedSize (headerBytes dst src proto size ++ tail) = some size := by
  have hfield : ((headerBytes dst src proto size ++ tail).drop 14).take 4 = wordBytes 4 size := by
    simp [headerBytes, addressBytes, wordBytes]
  rw [announcedSize, if_pos (by simp), hfield, wordValue_wordBytes, Nat.mod_eq_of_lt hsize]

theorem exists_address {s : Bytes} (h : 6 ≤ s.length) : ∃ a, s = addressBytes a ++ s.drop 6 := by
  match s, h with
  | b0 :: b1 :: b2 :: b3 :: b4 :: b5 :: rest, _ => exact ⟨⟨#v[b0, b1, b2, b3, b4, b5]⟩, rfl⟩

theorem exists_word {k : ℕ} {s : Bytes} (h : k ≤ s.length) :
    ∃ n, s = wordBytes k n ++ s.drop k ∧ n < 256 ^ k :=
  ⟨_, readWord_eq_some_iff.mp (if_pos h)⟩

/-- Every message of at least a header's length begins with a header. -/
theorem exists_header {s : Bytes} (h : HEADER_SIZE ≤ s.length) :
    ∃ dst src proto size, s = headerBytes dst src proto size ++ s.drop HEADER_SIZE ∧
      size < 256 ^ 4 := by
  rw [HEADER_SIZE] at h
  obtain ⟨dst, hdst⟩ := exists_address (s := s) (by omega)
  obtain ⟨src, hsrc⟩ := exists_address (s := s.drop 6) (by simp; omega)
  obtain ⟨proto, hproto, hlt⟩ := exists_word (k := 2) (s := (s.drop 6).drop 6) (by simp; omega)
  obtain ⟨size, hsize, hsize4⟩ :=
    exists_word (k := 4) (s := ((s.drop 6).drop 6).drop 2) (by simp; omega)
  have hcast : (UInt16.ofNat proto).toNat = proto := by
    rw [UInt16.toNat_ofNat']
    omega
  refine ⟨dst, src, UInt16.ofNat proto, size, ?_, hsize4⟩
  calc s = addressBytes dst ++ (addressBytes src ++ (wordBytes 2 proto ++ (wordBytes 4 size ++
        (((s.drop 6).drop 6).drop 2).drop 4))) := by rw [← hsize, ← hproto, ← hsrc, ← hdst]
    _ = _ := by simp [headerBytes, hcast, HEADER_SIZE, List.drop_drop]

/-- What the decoder makes of a header and what follows it. -/
theorem deserializeFrame_header (beyond : ℕ → UInt8) (dst src : Address) (proto : UInt16) {size : ℕ}
    (hsize : size < 256 ^ 4) (tail : Bytes) :
    deserializeFrame beyond (headerBytes dst src proto size ++ tail) =
      if h : size ≤ MAX_DATA then
        some ⟨dst, src, proto, (tail ++ (List.range size).map beyond).take size,
          (List.length_take_le _ _).trans h⟩
      else none := by
  simp only [deserializeFrame, headerBytes, List.append_assoc, readAddress_addressBytes,
    readWord_wordBytes (toNat_lt_word proto), readWord_wordBytes hsize, Option.bind_eq_bind,
    Option.bind_some,
    UInt16.ofNat_toNat]

/-- A message without a whole header is refused. -/
theorem deserializeFrame_short (beyond : ℕ → UInt8) {s : Bytes} (h : s.length < HEADER_SIZE) :
    deserializeFrame beyond s = none := by
  rw [Option.eq_none_iff_forall_ne_some]
  intro f hf
  simp only [deserializeFrame, Option.bind_eq_bind, Option.bind_eq_some_iff, Prod.exists] at hf
  obtain ⟨dst, s1, h1, src, s2, h2, proto, s3, h3, size, s4, h4, -⟩ := hf
  rw [readAddress_eq_some_iff] at h1 h2
  rw [readWord_eq_some_iff] at h3 h4
  have hlen := congrArg List.length h1
  rw [h2, h3.1, h4.1] at hlen
  simp [addressBytes] at hlen
  rw [HEADER_SIZE] at h
  omega

/-- The decoder accepts the format of `serialize_frame` and nothing else, and takes no byte
from behind the message. -/
def DecodesFormat (s : Bytes) : Prop :=
  ∀ beyond f, deserializeFrame beyond s = some f ↔ s = serializeFrame f

/-- The size field agrees with the length, unless it is refused for being too large. -/
def SizeMatches (s : Bytes) : Prop :=
  ∀ size, announcedSize s = some size → size ≤ MAX_DATA → s.length = HEADER_SIZE + size

theorem sizeMatches_of_decodesFormat {s : Bytes} (hdecodes : DecodesFormat s) : SizeMatches s := by
  intro size hsize hmax
  by_cases hlen : HEADER_SIZE ≤ s.length
  · obtain ⟨dst, src, proto, size', hs, hlt⟩ := exists_header hlen
    rw [hs, announcedSize_header dst src proto hlt] at hsize
    obtain rfl := Option.some.inj hsize
    have hframe := deserializeFrame_header (fun _ => 0) dst src proto hlt (s.drop HEADER_SIZE)
    rw [← hs, dif_pos hmax] at hframe
    -- the frame has exactly the announced size, whatever the message has
    have hserial := congrArg List.length ((hdecodes _ _).mp hframe)
    rw [length_serializeFrame] at hserial
    simp only [List.length_take, List.length_append, List.length_map, List.length_range] at hserial
    rw [HEADER_SIZE]
    omega
  · rw [announcedSize, if_neg hlen] at hsize
    cases hsize

theorem serialize_of_deserialize {s : Bytes} (hmatches : SizeMatches s)
    {beyond : ℕ → UInt8} {f : Frame} (hframe : deserializeFrame beyond s = some f) :
    s = serializeFrame f := by
  by_cases hlen : HEADER_SIZE ≤ s.length
  · obtain ⟨dst, src, proto, size, hs, hlt⟩ := exists_header hlen
    rw [hs, deserializeFrame_header beyond dst src proto hlt] at hframe
    split at hframe
    · rename_i hmax
      have hsize := hmatches size (by rw [hs, announcedSize_header dst src proto hlt]) hmax
      have htail : (s.drop HEADER_SIZE).length = size := by simp [hsize]
      have hdata : f.data = s.drop HEADER_SIZE := by
        obtain rfl := Option.some.inj hframe
        exact List.take_left' htail
      obtain rfl := Option.some.inj hframe
      rw [serializeFrame_eq, hdata, htail]
      exact hs
    · cases hframe
  · rw [deserializeFrame_short beyond (by omega)] at hframe
    cases hframe

/-- The decoder is exact on a message if and only if the message has the length that its
size field announces. -/
theorem decodesFormat_iff (s : Bytes) : DecodesFormat s ↔ SizeMatches s := by
  constructor
  · exact sizeMatches_of_decodesFormat
  · intro hmatches beyond f
    constructor
    · exact serialize_of_deserialize hmatches
    · rintro rfl
      exact deserialize_serialize beyond f

/-- A header that announces one byte, and nothing behind it. -/
def truncatedMessage : Bytes := headerBytes .zero .zero 0 1

/-- A header that announces no data, and one byte behind it. -/
def overlongMessage : Bytes := headerBytes .zero .zero 0 0 ++ [7]

/-- Both are accepted, and the one byte of the first frame comes from outside the message. -/
theorem mismatched_messages_accepted :
    ((deserializeFrame (fun _ => 1) truncatedMessage).map (·.data) = some [1] ∧
      (deserializeFrame (fun _ => 2) truncatedMessage).map (·.data) = some [2] ∧
      ¬ DecodesFormat truncatedMessage) ∧
    (deserializeFrame (fun _ => 0) overlongMessage).map (·.data) = some [] ∧
      ¬ DecodesFormat overlongMessage := by
  refine ⟨⟨by decide, by decide, ?_⟩, by decide, ?_⟩
  · intro h
    exact absurd (sizeMatches_of_decodesFormat h 1 (by decide) (by decide)) (by decide)
  · intro h
    exact absurd (sizeMatches_of_decodesFormat h 0 (by decide) (by decide)) (by decide)

end CarNetwork.Transport
