import CarNetwork.LinkPadding

/-!
# Control messages without the key

The tag of a body of eight bytes, or of a multiple of eight, is the exclusive or of the
bytes and has nothing of the key. White space behind a body is trimmed after the tag has been
checked. So whoever fills a body up with blanks can compute a tag that every receiver
accepts, with whatever key, and the receiver does what the message says.
-/
namespace CarNetwork.Protocol

open CarNetwork.ByteText CarNetwork.Ethernet

/-- The body with blanks behind it up to a multiple of eight bytes. -/
def filled (body : Bytes) : Bytes := body ++ List.replicate (7 - (body.length + 7) % 8) space

/-- The message as somebody without the key sends it. -/
def forge (m : Message) : Message :=
  { m with body := filled m.body, msgac := xorAll (filled m.body) }

/-- The message as somebody with the key sends it. -/
def authentic (key : Key) (m : Message) : Message := { m with msgac := generateMac key m.body }

theorem length_filled_mod_eight (body : Bytes) : (filled body).length % 8 = 0 := by
  rw [filled, List.length_append, List.length_replicate]
  omega

theorem zero_notMem_filled {body : Bytes} (h0 : 0 ∉ body) : 0 ∉ filled body := by
  intro h
  rcases List.mem_append.mp h with h | h
  · exact h0 h
  · exact absurd (List.eq_of_mem_replicate h) (by decide)

theorem rdropWhile_append_blanks (s : Bytes) (k : ℕ) :
    (s ++ List.replicate k space).rdropWhile isSpace = s.rdropWhile isSpace := by
  induction k with
  | zero => rw [List.replicate_zero, List.append_nil]
  | succ k ih =>
    rw [List.replicate_succ', ← List.append_assoc, List.rdropWhile_concat_pos _ _ _ (by decide), ih]

/-- Blanks at the end are trimmed away. -/
theorem trim_append_blanks (s : Bytes) (k : ℕ) : trim (s ++ List.replicate k space) = trim s := by
  have hblanks : ∀ k, (List.replicate k space).dropWhile isSpace = [] := by
    intro k
    rw [List.dropWhile_eq_nil_iff]
    intro b hb
    rw [List.eq_of_mem_replicate hb]
    decide
  rw [trim, trim, List.dropWhile_append, hblanks]
  split
  · rename_i hempty
    rw [List.isEmpty_iff.mp hempty]
  · exact rdropWhile_append_blanks _ k

theorem cleanBody_filled {body : Bytes} (h0 : 0 ∉ body) :
    cleanBody (filled body) = cleanBody body := by
  rw [cleanBody, cleanBody, cString_of_no_nul _ (zero_notMem_filled h0), cString_of_no_nul _ h0,
    filled, trim_append_blanks]

theorem verifyMsgac_forge (key : Key) {m : Message} (h0 : 0 ∉ m.body) :
    verifyMsgac key (forge m).msgac (forge m).body = true := by
  have htag := generateMac_of_eight_dvd key (zero_notMem_filled h0) (length_filled_mod_eight m.body)
  rw [verifyMsgac, forge, htag]
  exact beq_self_eq_true _

/-! ## What a receiver does with it -/

/-- What the handlers read of a message: its body cleaned up, and no tag. -/
def cleaned (m : Message) : Message := { m with body := cleanBody m.body, msgac := 0 }

theorem cleaned_forge (key : Key) {m : Message} (h0 : 0 ∉ m.body) :
    cleaned (forge m) = cleaned (authentic key m) :=
  congrArg (fun body => { m with body, msgac := 0 }) (cleanBody_filled h0)

theorem handle_cleaned (env : Env) (p : Instance) (m : Message) (c : AsyncCapsule) :
    handle env p (cleaned m) c = handle env p { m with body := cleanBody m.body } c := by
  unfold handle cleaned
  cases m.control <;> rfl

/-- Once the tag has been checked it is forgotten. -/
theorem update_of_verified {key : Key} {m : Message} (hcontrol : m.control ≠ .NONE)
    (hverify : verifyMsgac key m.msgac m.body = true) (now : ℕ → UInt64)
    (stray : ℤ → ℤ) (p : Instance) {c : AsyncCapsule} (hc : c.payload = buildMessage m) :
    update { key, now, stray } p c = (handle { key, now, stray } p (cleaned m) c).map fun r =>
      (r.inst, r.effects ++ if r.forward then forwardToObservers r.inst (cleaned m) c else []) := by
  have haccepted : acceptedMessage { key, now, stray } c =
      some { m with body := cleanBody m.body } := by
    rw [acceptedMessage, hc, parse_build]
    exact if_pos ⟨hcontrol, hverify⟩
  rw [update_of_accepted haccepted, handle_cleaned]
  rfl

/-- Every control message can be forged: with whatever key the receiver works, the forged
message passes the check, and the receiver does exactly what the same message with the tag of
that key makes it do. -/
theorem forged_as_authentic (key : Key) (now : ℕ → UInt64) (stray : ℤ → ℤ)
    (p : Instance) (m : Message) (hcontrol : m.control ≠ .NONE) (h0 : 0 ∉ m.body)
    (src dst : Endpoint) (origin : ChannelOrigin) :
    verifyMsgac key (forge m).msgac (forge m).body = true ∧
      update { key, now, stray } p ⟨src, dst, origin, buildMessage (forge m)⟩ =
        update { key, now, stray } p ⟨src, dst, origin, buildMessage (authentic key m)⟩ := by
  have hforged := verifyMsgac_forge key h0
  have hauthentic : verifyMsgac key (authentic key m).msgac (authentic key m).body = true :=
    beq_self_eq_true _
  refine ⟨hforged, ?_⟩
  rw [update_of_verified (m := forge m) hcontrol hforged now stray p rfl,
    update_of_verified (m := authentic key m) hcontrol hauthentic now stray p rfl,
    cleaned_forge key h0]
  -- the two frames differ in their bytes, which no handler and no observer of a control message
  -- sees
  set forged : AsyncCapsule := ⟨src, dst, origin, buildMessage (forge m)⟩
  set sent : AsyncCapsule := ⟨src, dst, origin, buildMessage (authentic key m)⟩
  have hhandle : handle { key, now, stray } p (cleaned (authentic key m)) forged =
      handle { key, now, stray } p (cleaned (authentic key m)) sent := handle_congr _ p _ rfl
  have hforward (q : Instance) : forwardToObservers q (cleaned (authentic key m)) forged =
      forwardToObservers q (cleaned (authentic key m)) sent :=
        forwardToObservers_congr q hcontrol rfl rfl
  simp only [hhandle, hforward]

/-- The order to go to group three. -/
def strangersOrder : Message := { control := .GROUP_ASSIGN, origVm := 1, body := ascii "3" }

/-- A vehicle goes where a stranger sends it. -/
theorem stranger_moves_vehicle :
    verifyMsgac SECRET_KEY (forge strangersOrder).msgac (forge strangersOrder).body = true ∧
      (update { now := fun _ => 0, stray := id } { address := default }
        ⟨{}, {}, .ethernet, buildMessage (forge strangersOrder)⟩).toOption.map (fun r =>
          r.1.currentGroupId) =
          some 3 := by
  obtain ⟨hverify, hsame⟩ := forged_as_authentic SECRET_KEY (fun _ => 0) id { address := default }
    strangersOrder (by decide) (by decide) {} {} .ethernet
  refine ⟨hverify, ?_⟩
  rw [hsame]
  decide +kernel

end CarNetwork.Protocol
