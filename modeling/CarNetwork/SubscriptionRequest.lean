import CarNetwork.MessageCodec
import CarNetwork.PublishSubscriber

/-!
# Subscription requests

`digest_subs` looks for three keys in a body and takes the text from behind each key to the
next space. Two of the keys begin like the third; none of them occurs in a value, so each
search lands on its own field in whatever order the fields come.
-/
namespace CarNetwork.PubSub

open CarNetwork.ByteText CarNetwork.DecimalText CarNetwork.Conversions
open CarNetwork.Protocol (space_notMem_decimal stoi_decimal)

/-! ## The parser -/

/-- The text behind a key, up to the next space or the end. -/
def requestField (s key : Bytes) : Option Bytes :=
  (find s key 0).map fun p =>
    let e := (find s [space] p).getD s.length
    substr s (p + key.length) (e - (p + key.length))

structure Request where
  addr : SubscriberId
  type : VehicleDataType
  periodUs : UInt64
  deriving DecidableEq

/-- The request in a body, `none` when a key is missing. The type is cut to a word by the
cast to the enumeration. -/
def parseRequest (s : Bytes) : Except CxxException (Option Request) :=
  match requestField s (ascii "SUBS="), requestField s (ascii "SUBS_TYPE="),
      requestField s (ascii "SUBS_PERIOD=") with
  | some addr, some type, some period => do
    let dtype ← stoi type
    let periodUs ← stoull period
    return some ⟨addr, .ofCode (UInt16.ofInt dtype), periodUs⟩
  | _, _, _ => .ok none

/-- `digest_subs`: what it returns, and the store afterwards. -/
def digestSubs (ps : PublishSubscriber) (body : Bytes) (nowUs : UInt64) :
    Except CxxException (Bool × PublishSubscriber) := do
  match ← parseRequest body with
  | none => return (false, ps)
  | some r =>
    return (true,
      if ps.supports r.type then (ps.subscribe r.type r.addr r.periodUs nowUs).1 else ps)

/-! ## Fields in any order -/

/-- Fields, each a key and a value, with single spaces between them. -/
def fieldsText (fs : List (Bytes × Bytes)) : Bytes :=
  [space].intercalate (fs.map fun f => f.1 ++ f.2)

theorem fieldsText_append (before : List (Bytes × Bytes)) (f : Bytes × Bytes)
    (after : List (Bytes × Bytes)) :
    ∃ tail, fieldsText (before ++ f :: after) =
      (before.flatMap fun f => f.1 ++ f.2 ++ [space]) ++ (f.1 ++ (f.2 ++ tail)) ∧
      (tail = [] ∨ ∃ rest, tail = space :: rest) := by
  induction before with
  | nil =>
    cases after with
    | nil => exact ⟨[], by simp [fieldsText, List.intercalate], Or.inl rfl⟩
    | cons g after =>
      exact ⟨space :: fieldsText (g :: after),
        by simp [fieldsText, List.intercalate], Or.inr ⟨_, rfl⟩⟩
  | cons g before ih =>
    obtain ⟨tail, htext, htail⟩ := ih
    refine ⟨tail, ?_, htail⟩
    have hcons : fieldsText (g :: (before ++ f :: after)) =
        g.1 ++ g.2 ++ [space] ++ fieldsText (before ++ f :: after) := by
      cases before <;> simp [fieldsText, List.intercalate]
    rw [List.cons_append, hcons, htext]
    simp

/-- A key is found where it is the key of a field if it cannot begin inside an earlier field,
and the value read is the one of that field. -/
theorem requestField_append {before after : List (Bytes × Bytes)} {key v : Bytes}
    (hbefore : ∀ f ∈ before, Apart key (f.1 ++ f.2 ++ [space])) (hkey : space ∉ key)
    (hv : space ∉ v) :
    requestField (fieldsText (before ++ (key, v) :: after)) key = some v := by
  obtain ⟨tail, htext, htail⟩ := fieldsText_append before (key, v) after
  set skipped := before.flatMap fun f => f.1 ++ f.2 ++ [space] with hskipped
  have hapart : Apart key skipped := by
    rw [hskipped]
    clear htext hskipped
    induction before with
    | nil => simp [Apart]
    | cons f before ih =>
      rw [List.flatMap_cons]
      exact (hbefore f List.mem_cons_self).append (ih fun g hg =>
        hbefore g (List.mem_cons_of_mem _ hg))
  have hfind : find (fieldsText (before ++ (key, v) :: after)) key 0 = some skipped.length := by
    simp [find, htext, search_skip hapart, search_prefix]
  have hdrop : (fieldsText (before ++ (key, v) :: after)).drop skipped.length =
      (key ++ v) ++ tail := by
    simp [htext]
  have hend : (find (fieldsText (before ++ (key, v) :: after)) [space] skipped.length).getD
      (fieldsText (before ++ (key, v) :: after)).length = skipped.length + (key ++ v).length := by
    have hspace : space ∉ key ++ v := by simp [hkey, hv]
    rcases htail with rfl | ⟨rest, rfl⟩
    · rw [find, hdrop, List.append_nil, search_byte_none _ _ hspace]
      simp [htext]
    · rw [find_byte_of_drop hdrop hspace, Option.getD_some]
  have hvalue : (fieldsText (before ++ (key, v) :: after)).drop (skipped.length + key.length) =
      v ++ tail :=
    drop_piece (by rw [hdrop, List.append_assoc])
  have hlen : skipped.length + (key ++ v).length - (skipped.length + key.length) = v.length := by
    simp
    omega
  simp only [requestField, hfind, Option.map_some, hend, hlen, substr_of_drop hvalue]

theorem requestField_of_mem {fs : List (Bytes × Bytes)} {key v : Bytes} (hnodup : fs.Nodup)
    (hmem : (key, v) ∈ fs) (hapart : ∀ f ∈ fs, f ≠ (key, v) → Apart key (f.1 ++ f.2 ++ [space]))
    (hkey : space ∉ key)
    (hv : space ∉ v) : requestField (fieldsText fs) key = some v := by
  obtain ⟨before, after, rfl⟩ := List.append_of_mem hmem
  refine requestField_append (fun f hf => hapart f (List.mem_append_left _ hf) ?_) hkey hv
  rintro rfl
  exact (List.nodup_append.mp hnodup).2.2 _ hf _ List.mem_cons_self rfl

/-! ## Requests -/

/-- The fields of a request. -/
def requestFields (addr : SubscriberId) (code : UInt16) (periodUs : UInt64) :
    List (Bytes × Bytes) :=
  [(ascii "SUBS=", addr), (ascii "SUBS_TYPE=", decimal code.toNat),
    (ascii "SUBS_PERIOD=", decimal periodUs.toNat)]

/-- Every key begins with this byte. -/
def keyHead : UInt8 := 83

theorem keyHead_notMem_decimal (n : ℕ) : keyHead ∉ decimal n := by
  intro h
  exact absurd (isDigit_of_mem_decimal n keyHead h) (by decide)

/-- A key does not begin inside another field whose value is free of its first byte. -/
theorem apart_field {key key' v : Bytes} (hhead : key.head? = some keyHead) (hkeys : Apart key key')
    (hv : keyHead ∉ v) : Apart key (key' ++ v ++ [space]) :=
  (hkeys.append (apart_of_head hhead hv)).append (apart_of_head hhead (by decide))

section Fields

variable {addr : SubscriberId} {code : UInt16} {periodUs : UInt64} {fs : List (Bytes × Bytes)}

theorem nodup_keys : ((requestFields addr code periodUs).map Prod.fst).Nodup := by
  simp only [requestFields, List.map_cons, List.map_nil]
  decide

theorem space_notMem_value (haddr : space ∉ addr) :
    ∀ f ∈ requestFields addr code periodUs, space ∉ f.1 ∧ space ∉ f.2 := by
  simp only [requestFields, List.forall_mem_cons, List.not_mem_nil, false_imp_iff, implies_true,
    and_true]
  exact ⟨⟨by decide, haddr⟩, ⟨by decide, space_notMem_decimal _⟩, by decide, space_notMem_decimal _⟩

theorem keyHead_notMem_value (haddr : keyHead ∉ addr) :
    ∀ f ∈ requestFields addr code periodUs, keyHead ∉ f.2 := by
  simp only [requestFields, List.forall_mem_cons, List.not_mem_nil, false_imp_iff, implies_true,
    and_true]
  exact ⟨haddr, keyHead_notMem_decimal _, keyHead_notMem_decimal _⟩

/-- Different fields have keys that do not begin inside each other. -/
theorem apart_keys : ∀ f ∈ requestFields addr code periodUs, f.1.head? = some keyHead ∧
    ∀ g ∈ requestFields addr code periodUs, g ≠ f → Apart f.1 g.1 := by
  have hkeys : ∀ k ∈ [ascii "SUBS=", ascii "SUBS_TYPE=", ascii "SUBS_PERIOD="],
      k.head? = some keyHead ∧
      ∀ k' ∈ [ascii "SUBS=", ascii "SUBS_TYPE=", ascii "SUBS_PERIOD="], k' ≠ k → Apart k k' := by
    decide
  have hmem : ∀ f ∈ requestFields addr code periodUs,
      f.1 ∈ [ascii "SUBS=", ascii "SUBS_TYPE=", ascii "SUBS_PERIOD="] := by
    simp [requestFields]
  intro f hf
  refine ⟨(hkeys f.1 (hmem f hf)).1, fun g hg hne => (hkeys f.1 (hmem f hf)).2 g.1 (hmem g hg) ?_⟩
  intro hkey
  exact hne (List.inj_on_of_nodup_map nodup_keys hg hf hkey)

/-- Each value is read back from the joined fields, whatever their order. -/
theorem requestField_fieldsText (hperm : fs.Perm (requestFields addr code periodUs))
    (hspace : space ∉ addr) (hhead : keyHead ∉ addr) {f : Bytes × Bytes}
    (hf : f ∈ requestFields addr code periodUs) :
    requestField (fieldsText fs) f.1 = some f.2 := by
  obtain ⟨hkey, hv⟩ := space_notMem_value hspace f hf
  obtain ⟨hfirst, hkeys⟩ := apart_keys f hf
  refine requestField_of_mem (hperm.nodup_iff.mpr (nodup_keys.of_map _))
    (hperm.mem_iff.mpr hf) ?_ hkey hv
  intro g hg hne
  have hg := hperm.mem_iff.mp hg
  exact apart_field hfirst (hkeys g hg hne) (keyHead_notMem_value hhead g hg)

theorem parseRequest_fieldsText (hperm : fs.Perm (requestFields addr code periodUs))
    (hspace : space ∉ addr) (hhead : keyHead ∉ addr) :
    parseRequest (fieldsText fs) = .ok (some ⟨addr, .ofCode code, periodUs⟩) := by
  have hfield := fun f hf => requestField_fieldsText hperm hspace hhead (f := f) hf
  simp only [requestFields, List.forall_mem_cons] at hfield
  obtain ⟨haddr, htype, hperiod, -⟩ := hfield
  have hcode := stoi_decimal code.toNat (UInt16.toNat_lt code)
  simp only [parseRequest, haddr, htype, hperiod, hcode, stoull_decimal, bind, Except.bind,
    uint16_ofInt_toNat]
  rfl

/-- What the three values are used for. -/
theorem digestSubs_fieldsText (hperm : fs.Perm (requestFields addr code periodUs))
    (hspace : space ∉ addr) (hhead : keyHead ∉ addr) (ps : PublishSubscriber) (nowUs : UInt64) :
    digestSubs ps (fieldsText fs) nowUs =
      .ok (true, if ps.supports (.ofCode code) then
        (ps.subscribe (.ofCode code) addr periodUs nowUs).1 else ps) := by
  rw [digestSubs, parseRequest_fieldsText hperm hspace hhead]
  rfl

end Fields

/-- The bytes of an address text: hexadecimal digits and colons. -/
def addressAlphabet : Bytes := ascii "0123456789abcdefABCDEF:"

theorem notMem_of_addressAlphabet {addr : SubscriberId} (haddr : ∀ b ∈ addr, b ∈ addressAlphabet) :
    space ∉ addr ∧ keyHead ∉ addr :=
  ⟨fun h => absurd (haddr _ h) (by decide), fun h => absurd (haddr _ h) (by decide)⟩

/-- A request with its fields in any order is read as it was written, and the subscription is
made with just these values when the type is supported. -/
theorem digestSubs_any_order {addr : SubscriberId} (haddr : ∀ b ∈ addr, b ∈ addressAlphabet)
    (code : UInt16) (periodUs : UInt64) {fs : List (Bytes × Bytes)}
    (hperm : fs.Perm (requestFields addr code periodUs))
    (ps : PublishSubscriber) (nowUs : UInt64) :
    parseRequest (fieldsText fs) = .ok (some ⟨addr, .ofCode code, periodUs⟩) ∧
    digestSubs ps (fieldsText fs) nowUs =
      .ok (true, if ps.supports (.ofCode code) then
        (ps.subscribe (.ofCode code) addr periodUs nowUs).1 else ps) := by
  obtain ⟨hspace, hhead⟩ := notMem_of_addressAlphabet haddr
  exact ⟨parseRequest_fieldsText hperm hspace hhead,
    digestSubs_fieldsText hperm hspace hhead ps nowUs⟩

/-- The period first and the address last. -/
theorem request_period_first :
    digestSubs PublishSubscriber.sampleStore (ascii "SUBS_PERIOD=500 SUBS_TYPE=1 SUBS=0a:1B") 3 =
      .ok (true,
        (PublishSubscriber.sampleStore.subscribe .ENGINE_RPM (ascii "0a:1B") 500 3).1) := by
  have haddr : ∀ b ∈ ascii "0a:1B", b ∈ addressAlphabet := by decide +kernel
  have hperm : [(ascii "SUBS_PERIOD=", decimal 500), (ascii "SUBS_TYPE=", decimal 1),
      (ascii "SUBS=", ascii "0a:1B")].Perm (requestFields (ascii "0a:1B") 1 500) := by
    decide
  have hsupported : PublishSubscriber.sampleStore.supports (.ofCode 1) = true := by decide
  have hdigest := (digestSubs_any_order haddr 1 500 hperm PublishSubscriber.sampleStore 3).2
  rw [if_pos hsupported] at hdigest
  exact hdigest

end CarNetwork.PubSub
