-- SUMMARY: What the PassThru encoder says about the option that it refuses, and what it says when a run fails.
import CmdSend.PassThru.Capacity
import CmdSend.PassThru.Refusal

/-!
# Error texts

A refused option leaves a text of its own, but for `--protocol`, which leaves none. The text
names the argument of the option, or the number of bytes that do not fit any more. An accepted
option leaves the text alone, and so does the packer.
-/

namespace CmdSend.PassThru

open CLib

/-! ## Messages -/

/-- The message for a refused option, before it is cut to `LastErrorText`. -/
inductive Message (cmd : CommandData) (a : ArgV) : Text → Prop
  | argument {before message : Text} : before ≠ [] → before ++ a.text <+: message →
      Message cmd a message
  | exceeded (func : String) (line : Nat) {nbytes : BitVec 32} : (kind a.optionId).isPayload →
      ¬(cmd.refused a).HasRoom nbytes →
      Message cmd a ((cmd.refused a).exceededText func line nbytes)

/-- A refusal leaves a message. -/
def Says (cmd : CommandData) (a : ArgV) (o : Outcome) : Prop :=
  o.retcode = .invalid →
    ∃ message, Message cmd a message ∧ o.cmd.lastErrorText = snprintf errorTextSize message

section

variable {cmd : CommandData} {a : ArgV}

theorem Says.of_ne {o : Outcome} (h : o.retcode ≠ .invalid) : Says cmd a o :=
  fun hret => absurd hret h

theorem Says.reject {message : Text} (h : Message cmd a message) (cmd' : CommandData) :
    Says cmd a (cmd'.reject message) :=
  fun _ => ⟨message, h, rfl⟩

/-- The message starts with a text of its own and the argument. -/
theorem Says.argument (cmd' : CommandData) {before message : Text}
    (hstarts : before ++ a.text <+: message) (h : before ≠ []) :
    Says cmd a (cmd'.reject message) :=
  Says.reject (.argument h hstarts) cmd'

theorem Says.override {o : Outcome} (h : Says cmd a o) (f : Field) :
    Says cmd a (o.override f.setOverride) := by
  intro hret
  obtain ⟨message, hmessage, htext⟩ := h hret
  refine ⟨message, hmessage, Eq.trans ?_ htext⟩
  cases f <;> rfl

end

/-! ## The blocks of the parser -/

section

variable (host : Host) (cmd : CommandData)

theorem says_processField {a : ArgV} (f : Field) :
    Says cmd a (cmd.processField host f.word a.text f.mask (cmd.includes f.header)) := by
  have hnamed : ∀ before after : Text, before ++ a.text <+: before ++ a.text ++ after :=
    fun before after => List.prefix_append _ after
  unfold CommandData.processField
  split
  · exact .argument cmd (hnamed _ _) (by simp [str])
  dsimp only
  split
  · exact .argument cmd (List.prefix_append_of_prefix (List.prefix_append_of_prefix (hnamed _ _)))
      (by simp [str])
  split
  · exact .argument cmd (hnamed _ _) (by simp [str])
  split
  · exact .argument cmd (List.prefix_append_of_prefix (List.prefix_append_of_prefix
      (List.prefix_append_of_prefix (List.prefix_append_of_prefix (hnamed _ _)))))
      (by simp [str])
  · exact .of_ne OptParse.noConfusion

theorem says_copyData {a : ArgV} (hpay : (kind a.optionId).isPayload) (hsame : cmd.refused a = cmd)
    (src : List Byte) (nbytes : BitVec 32) : Says cmd a (cmd.copyData src nbytes) := by
  by_cases hroom : cmd.HasRoom nbytes
  · rw [copyData_of_hasRoom cmd hroom]
    exact .of_ne OptParse.noConfusion
  · unfold CommandData.copyData
    rw [if_pos (Nat.not_le.mp hroom)]
    have hmessage := @Message.exceeded cmd a "PassThru_CopyData" 252 nbytes hpay
      (hsame.symm ▸ hroom)
    rw [hsame] at hmessage
    exact .reject hmessage cmd

theorem says_intPayload {a : ArgV} {o : IntOption} (hk : kind a.optionId = .int o)
    (force : Bool) : Says cmd a (cmd.intPayload host o a.text force) := by
  have hpay : (kind a.optionId).isPayload := by rw [hk]; rfl
  have hne : kind a.optionId ≠ .string := by rw [hk]; exact Kind.noConfusion
  unfold CommandData.intPayload
  dsimp only
  split
  · exact .argument cmd (List.prefix_append_of_prefix (List.prefix_append_of_prefix
      (List.prefix_append _ _))) (by simp [str])
  · exact says_copyData cmd hpay (refused_of_payload cmd hpay hne) _ _

theorem says_floatPayload {a : ArgV} (hpay : (kind a.optionId).isPayload)
    (hne : kind a.optionId ≠ .string) {w : Nat} (line : Nat) (name : String)
    (conv : BitVec w × Text) (force : Bool) :
    Says cmd a (cmd.floatPayload host line name a.text conv force) := by
  unfold CommandData.floatPayload
  split
  · exact .argument cmd (List.prefix_append _ _) (by simp [str])
  · exact says_copyData cmd hpay (refused_of_payload cmd hpay hne) _ _

theorem says_copyAndPad {a : ArgV} (hk : kind a.optionId = .string) {s : Text} {n : Nat}
    (hparts : stringParts a.text = some (s, n)) : Says cmd a (cmd.copyAndPad s n) := by
  have hpay : (kind a.optionId).isPayload := by rw [hk]; rfl
  by_cases hroom : cmd.HasRoom (BitVec.ofNat 32 s.length)
  · by_cases hlen : s.length = n
    · rw [copyAndPad_of_length_eq hlen, copyData_of_hasRoom cmd hroom]
      exact .of_ne OptParse.noConfusion
    · have hleft := refused_string cmd hk hparts hroom
      rw [copyAndPad_of_hasRoom hlen hroom]
      dsimp only
      rw [← hleft]
      by_cases hpad : (cmd.refused a).HasRoom (BitVec.ofNat 32 (n - s.length))
      · rw [padData_of_hasRoom _ hpad]
        exact .of_ne OptParse.noConfusion
      · unfold CommandData.padData
        rw [if_pos (Nat.not_le.mp hpad)]
        exact fun _ => ⟨_, .exceeded "PassThru_PadData" 281 hpay hpad, rfl⟩
  · have hsame : cmd.refused a = cmd := by
      unfold CommandData.refused
      simp only [hk, hparts, if_neg hroom]
    rw [copyAndPad_of_not_hasRoom n hroom]
    exact says_copyData cmd hpay hsame _ _

theorem says_stringPayload {a : ArgV} (hk : kind a.optionId = .string) :
    Says cmd a (cmd.stringPayload a.text) := by
  cases hparts : stringParts a.text with
  | some parts =>
    rw [stringPayload_of_some cmd hparts]
    exact says_copyAndPad cmd hk hparts
  | none =>
    have hformat : Says cmd a (cmd.reject (CommandData.stringPayload.formatText a.text)) :=
      .argument cmd (List.prefix_append _ _) (by simp [str])
    unfold stringParts at hparts
    unfold CommandData.stringPayload
    cases htail : (strtoull a.text).tail with
    | nil =>
      simp only [htail]
      exact hformat
    | cons c tail =>
      simp only [htail] at hparts ⊢
      split
      · exact hformat
      split
      · exact .argument cmd (List.prefix_append _ _) (by simp [str])
      · rename_i hform hlen
        simp only [not_or, not_not] at hform
        rw [if_pos ⟨hform.1, hform.2, Nat.not_lt.mp hlen⟩] at hparts
        cases hparts

theorem says_parseEndian {a : ArgV} : Says cmd a (cmd.parseEndian a.text) := by
  unfold CommandData.parseEndian
  split
  · exact .of_ne OptParse.noConfusion
  split
  · exact .of_ne OptParse.noConfusion
  · exact .argument cmd (List.prefix_append _ _) (by simp [str])

/-- A refused option leaves a message, but for `--protocol`. -/
theorem says_parseOption {a : ArgV} (h : a.optionId ≠ .protocol) :
    Says cmd a (parseOption host cmd a) := by
  rw [parseOption_eq]
  cases hk : kind a.optionId with
  | positional | ignored => exact .of_ne OptParse.noConfusion
  | field f => exact (says_processField host cmd f).override f
  | endian => exact says_parseEndian cmd
  | protocol => exact absurd (optionId_of_kind .protocol (by decide) hk) h
  | int o => exact says_intPayload host cmd hk _
  | double | float =>
    have hpay : (kind a.optionId).isPayload := by rw [hk]; rfl
    have hne : kind a.optionId ≠ .string := by rw [hk]; exact Kind.noConfusion
    exact says_floatPayload host cmd hpay hne _ _ _ _
  | string => exact says_stringPayload cmd hk

end

/-! ## Runs -/

section

variable {host : Host} {opts : List ArgV} {cmd cmd' : CommandData} {a : ArgV}

/-- An accepted option leaves no text. -/
theorem lastErrorText_of_accept (h : accept host cmd a = some cmd') :
    cmd'.lastErrorText = cmd.lastErrorText := by
  cases accepted_of_accept h with
  | field f => cases f <;> rfl
  | _ => rfl

theorem getProtocolFromString_ne_raw (text : Text) : getProtocolFromString text ≠ .raw := by
  unfold getProtocolFromString
  repeat' split
  all_goals exact Protocol.noConfusion

theorem includeCCSDSPri_of_accept (hpri : cmd.includeCCSDSPri = true)
    (h : accept host cmd a = some cmd') : cmd'.includeCCSDSPri = true := by
  cases accepted_of_accept h with
  | field f => cases f <;> exact hpri
  | protocol p hk hp hne =>
    have hraw : p ≠ .raw := by
      unfold protocolOf at hp
      split at hp
      · exact Option.some.inj hp ▸ getProtocolFromString_ne_raw a.text
      · cases hp
    cases p with
    | undefined => exact absurd rfl hne
    | raw => exact absurd rfl hraw
    | _ => rfl
  | _ => exact hpri

theorem packedSize_ne_zero (hpri : cmd.includeCCSDSPri = true) : cmd.packedSize ≠ 0 := by
  unfold CommandData.packedSize
  dsimp only
  rw [if_pos hpri]
  repeat' split
  all_goals omega

/-- How a run of the encoder comes to nothing, with the text that it leaves. -/
inductive Failure (host : Host) (opts : List ArgV) : Text → Prop
  /-- The packet does not fit. -/
  | size : (acceptAll host instantiate opts).isSome = true →
      maxPacketSize < headerLength (protocolInForce opts) + announcedTotal opts →
      Failure host opts []
  /-- The first option that is refused is `--protocol`. -/
  | protocol {c : CommandData × ArgV} : ends (accept host) instantiate opts = .error c →
      c.2.optionId = .protocol → Failure host opts []
  /-- The first option that is refused is another one. -/
  | refused {c : CommandData × ArgV} {message : Text} :
      ends (accept host) instantiate opts = .error c → c.2.optionId ≠ .protocol →
      Message c.1 c.2 message → Failure host opts (snprintf errorTextSize message)

/-- The run has left no text so far, and a packet would have a primary header. -/
structure Quiet (cmd : CommandData) : Prop where
  lastErrorText : cmd.lastErrorText = []
  includeCCSDSPri : cmd.includeCCSDSPri = true

theorem Quiet.accept (hquiet : Quiet cmd) (h : accept host cmd a = some cmd') : Quiet cmd' :=
  ⟨(lastErrorText_of_accept h).trans hquiet.lastErrorText,
    includeCCSDSPri_of_accept hquiet.includeCCSDSPri h⟩

theorem quiet_instantiate : Quiet instantiate := ⟨rfl, rfl⟩

theorem quiet_of_acceptAll (h : acceptAll host instantiate opts = some cmd) : Quiet cmd :=
  foldlM_invariant (I := fun _ cmd => Quiet cmd) quiet_instantiate
    (fun _ _ _ _ hquiet => hquiet.accept) h

/-- The text after a refused option. -/
theorem failure_of_error {c : CommandData × ArgV}
    (h : ends (accept host) instantiate opts = .error c) :
    Failure host opts (parseOption host c.1 c.2).cmd.lastErrorText := by
  obtain ⟨hmem, hrefused⟩ := ends_eq_error h
  have hquiet : Quiet c.1 :=
    taken_invariant (I := Quiet) (fun _ _ _ hquiet => hquiet.accept) opts instantiate
      quiet_instantiate c hmem
  by_cases hid : c.2.optionId = .protocol
  · have htext : (parseOption host c.1 c.2).cmd.lastErrorText = c.1.lastErrorText := by
      have hk : kind c.2.optionId = .protocol := congrArg kind hid
      rw [parseOption_eq, hk]
      unfold parseKind
      rw [CommandData.setProtocol_eq]
      rfl
    rw [htext, hquiet.lastErrorText]
    exact .protocol h hid
  · have hret : (parseOption host c.1 c.2).retcode = .invalid := by
      unfold accept at hrefused
      by_contra hret
      rw [if_neg hret] at hrefused
      cases hrefused
    obtain ⟨message, hmessage, htext⟩ := says_parseOption host c.1 hid hret
    rw [htext]
    exact .refused h hid hmessage

/-- The text after a run that is accepted and cannot be packed. -/
theorem failure_of_not_packed (h : acceptAll host instantiate opts = some cmd)
    (hpack : ¬((getPackedObject host cmd (fun _ => 0) maxPacketSize).ok = true ∧
      (getPackedObject host cmd (fun _ => 0) maxPacketSize).size ≠ 0)) :
    Failure host opts (getPackedObject host cmd (fun _ => 0) maxPacketSize).cmd.lastErrorText := by
  have hquiet := quiet_of_acceptAll h
  have hsize := packedSize_of_acceptAll h
  have hlarge : ¬cmd.packedSize ≤ maxPacketSize := by
    intro hfits
    have hok : (getPackedObject host cmd (fun _ => 0) maxPacketSize).ok = true :=
      ok_getPackedObject_iff.mpr hfits
    refine hpack ⟨hok, ?_⟩
    rw [(getPackedObject_of_ok hok).1]
    exact packedSize_ne_zero hquiet.includeCCSDSPri
  have hfail : getPackedObject host cmd (fun _ => 0) maxPacketSize =
      ⟨false, cmd, fun _ => 0, maxPacketSize⟩ := if_pos (Nat.not_le.mp hlarge)
  rw [hfail, hquiet.lastErrorText]
  exact .size (Option.isSome_of_eq_some h) (hsize ▸ Nat.not_le.mp hlarge)

end

end CmdSend.PassThru
