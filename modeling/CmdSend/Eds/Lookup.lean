-- SUMMARY: What the lookups of the EDS encoder leave alone, and when its payload state and its error flag change.
import CmdSend.Eds.Model
import CmdSend.Lib.Run

/-!
# The lookups

The lookups change neither `PayloadError` nor `PayloadState` nor `CmdName`. The payload state
leaves `unknown` once (`checkValidPayload_of_known`), and the error flag is raised
by the positional arguments that are rejected, and by nothing else
(`payloadError_parseOption`).
-/

namespace CmdSend.Eds

open CLib

/-! ## The object -/

/-- The database has the datatype of the command header. -/
def Host.HasHeader (host : Host) : Prop := host.getTypeInfo host.commandHeader = host.edsSuccess

theorem exists_instantiate {host : Host} (h : host.HasHeader) :
    ∃ obj, instantiate host = some obj :=
  ⟨_, if_neg (not_not.mpr h)⟩

/-- `EDS_Instantiate` comes back when the database has a command header. -/
theorem instantiate_eq_none_iff (host : Host) : instantiate host = none ↔ ¬host.HasHeader := by
  constructor
  · intro hnone hheader
    obtain ⟨obj, hobj⟩ := exists_instantiate hheader
    rw [hnone] at hobj
    cases hobj
  · exact fun hheader => if_pos hheader

/-! ## Frames -/

/-- The two states agree on the error flag and on the payload state. -/
structure SameFlags (cmd cmd' : CommandData) : Prop where
  payloadError : cmd'.payloadError = cmd.payloadError
  payloadState : cmd'.payloadState = cmd.payloadState

theorem SameFlags.refl (cmd : CommandData) : SameFlags cmd cmd := ⟨rfl, rfl⟩

theorem SameFlags.trans {cmd₁ cmd₂ cmd₃ : CommandData} (h₁ : SameFlags cmd₁ cmd₂)
    (h₂ : SameFlags cmd₂ cmd₃) : SameFlags cmd₁ cmd₃ :=
  ⟨h₂.payloadError.trans h₁.payloadError, h₂.payloadState.trans h₁.payloadState⟩

/-- What the lookups leave alone: the flags and the name of the command. -/
structure LookupFrame (cmd cmd' : CommandData) : Prop extends SameFlags cmd cmd' where
  cmdName : cmd'.cmdName = cmd.cmdName

theorem LookupFrame.refl (cmd : CommandData) : LookupFrame cmd cmd := ⟨SameFlags.refl cmd, rfl⟩

theorem LookupFrame.trans {cmd₁ cmd₂ cmd₃ : CommandData} (h₁ : LookupFrame cmd₁ cmd₂)
    (h₂ : LookupFrame cmd₂ cmd₃) : LookupFrame cmd₁ cmd₃ :=
  ⟨h₁.toSameFlags.trans h₂.toSameFlags, h₂.cmdName.trans h₁.cmdName⟩

section

variable (host : Host) (cmd : CommandData)

theorem frame_rejectIntf : LookupFrame cmd cmd.rejectIntf := by
  unfold CommandData.rejectIntf
  split <;> exact ⟨⟨rfl, rfl⟩, rfl⟩

theorem frame_findInterface : LookupFrame cmd (cmd.findInterface host).2 := by
  unfold CommandData.findInterface
  simp only
  split
  · split <;> exact ⟨⟨rfl, rfl⟩, rfl⟩
  · exact ⟨⟨rfl, rfl⟩, rfl⟩

theorem frame_findArgument : LookupFrame cmd (cmd.findArgument host).2 := by
  unfold CommandData.findArgument
  simp only
  split <;> exact ⟨⟨rfl, rfl⟩, rfl⟩

theorem frame_processNumericDest (midVal : BitVec 64) :
    LookupFrame cmd (cmd.processNumericDest host midVal).2 := by
  unfold CommandData.processNumericDest
  simp only
  split
  · refine LookupFrame.trans ?_ (frame_rejectIntf _)
    exact ⟨⟨rfl, rfl⟩, rfl⟩
  · refine LookupFrame.trans ?_ (frame_findArgument host _)
    exact ⟨⟨rfl, rfl⟩, rfl⟩

theorem frame_findTopic (rc : Int) : LookupFrame cmd (cmd.findTopic host rc).2 := by
  unfold CommandData.findTopic
  split <;> exact ⟨⟨rfl, rfl⟩, rfl⟩

theorem frame_processNamedDest : LookupFrame cmd (cmd.processNamedDest host).2 := by
  have htopic := (frame_findInterface host cmd).trans
    (frame_findTopic host (cmd.findInterface host).2 (cmd.findInterface host).1)
  unfold CommandData.processNamedDest
  simp only
  split
  · exact htopic.trans (frame_rejectIntf _)
  · split
    · exact htopic.trans ⟨⟨rfl, rfl⟩, rfl⟩
    · refine LookupFrame.trans ?_ (frame_findArgument host _)
      exact htopic.trans ⟨⟨rfl, rfl⟩, rfl⟩

theorem frame_processDestIntf : LookupFrame cmd (cmd.processDestIntf host).2 := by
  unfold CommandData.processDestIntf
  simp only
  split
  · exact frame_processNumericDest host cmd _
  · exact frame_processNamedDest host cmd

theorem frame_processCmdCode : LookupFrame cmd (cmd.processCmdCode host).2 := by
  unfold CommandData.processCmdCode
  simp only
  split
  · split
    · split <;> exact ⟨⟨rfl, rfl⟩, rfl⟩
    · exact ⟨⟨rfl, rfl⟩, rfl⟩
  · split <;> exact ⟨⟨rfl, rfl⟩, rfl⟩

theorem frame_lookupPayloadDetail : LookupFrame cmd (cmd.lookupPayloadDetail host).2 := by
  unfold CommandData.lookupPayloadDetail
  split
  · exact ⟨⟨rfl, rfl⟩, rfl⟩
  · split <;> exact ⟨⟨rfl, rfl⟩, rfl⟩

theorem frame_checkValidIntf : LookupFrame cmd (cmd.checkValidIntf host).cmd := by
  have hdest := frame_processDestIntf host cmd
  have hcode := frame_processCmdCode host (cmd.processDestIntf host).2
  unfold CommandData.checkValidIntf
  simp only
  split
  · split
    · exact hdest.trans ⟨⟨rfl, rfl⟩, rfl⟩
    · split
      · exact (hdest.trans hcode).trans ⟨⟨rfl, rfl⟩, rfl⟩
      · exact (hdest.trans hcode).trans ⟨⟨rfl, rfl⟩, rfl⟩
  · exact LookupFrame.refl cmd

/-! ## The payload state -/

theorem checkValidPayload_of_known (h : cmd.payloadState ≠ .unknown) :
    cmd.checkValidPayload host = ⟨cmd.payloadState = .success, cmd, []⟩ := by
  unfold CommandData.checkValidPayload
  simp only [if_neg h]

/-- A check of the payload ends in a known state, and raises no error flag. -/
theorem checkValidPayload_spec :
    (cmd.checkValidPayload host).cmd.payloadState ≠ .unknown ∧
      (cmd.checkValidPayload host).cmd.payloadError = cmd.payloadError := by
  have hintf := frame_checkValidIntf host cmd
  have hdetail := hintf.trans (frame_lookupPayloadDetail host (cmd.checkValidIntf host).cmd)
  unfold CommandData.checkValidPayload
  simp only
  split
  · split
    · exact ⟨LookupState.noConfusion, hintf.payloadError⟩
    · split
      · exact ⟨LookupState.noConfusion, hdetail.payloadError⟩
      · split
        · exact ⟨LookupState.noConfusion, hdetail.payloadError⟩
        · exact ⟨LookupState.noConfusion, hdetail.payloadError⟩
  · rename_i hknown
    exact ⟨hknown, rfl⟩

theorem ok_checkValidPayload :
    (cmd.checkValidPayload host).ok = true ↔
      (cmd.checkValidPayload host).cmd.payloadState = .success :=
  decide_eq_true_iff

/-! ## The error flag -/

/-- A parameter is rejected because it has no `=`, because its name is not known or
because its value cannot be parsed. -/
def parameterRejected (optarg : Text) : Bool :=
  match strchr optarg (ch '=') with
  | none => true
  | some i =>
    let located := host.locateSubEntity cmd.edsPayloadInfo.edsId (optarg.take i) ⟨0, 0⟩
    let scalar := host.scalarFromString located.2.edsId
      (cmd.edsPayloadInfo.offset + located.2.offset) cmd.buf (optarg.drop (i + 1))
    located.1 ≠ host.edsSuccess || scalar.1 ≠ 0

/-- The call rejects a positional argument. -/
def setsPayloadError (a : ArgV) : Bool :=
  a.optionId = .none && (cmd.checkValidPayload host).ok &&
    parameterRejected host (cmd.checkValidPayload host).cmd a.text

theorem processParameterArgument_spec (optarg : Text) :
    (cmd.processParameterArgument host optarg).1.payloadError =
        (parameterRejected host cmd optarg || cmd.payloadError) ∧
      (cmd.processParameterArgument host optarg).1.payloadState = cmd.payloadState := by
  unfold CommandData.processParameterArgument parameterRejected
  cases strchr optarg (ch '=') with
  | none => exact ⟨rfl, rfl⟩
  | some i =>
    dsimp only
    generalize host.locateSubEntity _ _ _ = located
    by_cases hname : located.1 = host.edsSuccess
    · rw [if_neg (not_not.mpr hname)]
      generalize host.scalarFromString _ _ _ _ = scalar
      by_cases hvalue : scalar.1 = 0
      · simp [hname, hvalue]
      · simp [hname, hvalue, CommandData.rejectParameter, CommandData.setError]
    · simp [hname, CommandData.rejectParameter, CommandData.setError]

theorem sameFlags_parseDest (sep1 : Text) (allowCmd : Bool) :
    SameFlags cmd (cmd.parseDest sep1 allowCmd).cmd := by
  unfold CommandData.parseDest
  simp only
  split
  · split <;> exact ⟨rfl, rfl⟩
  · exact ⟨rfl, rfl⟩

/-- A destination is rejected, or its names are stored, with no more than another
instance number before that. -/
theorem parseDestFullImpl_cases (argV : ArgV) (allowInst allowCmd : Bool) :
    ∃ params,
      cmd.parseDestFullImpl host argV allowInst allowCmd =
          { cmd with params := params }.answer .invalid ∨
        ∃ sep1, cmd.parseDestFullImpl host argV allowInst allowCmd =
          { cmd with params := params }.parseDest sep1 allowCmd := by
  unfold CommandData.parseDestFullImpl
  cases strchr cmd.destIntfText (ch ':') with
  | none => exact ⟨cmd.params, Or.inr ⟨argV.text, rfl⟩⟩
  | some i =>
    dsimp only
    generalize (if allowInst = true then 0 else host.getInstanceNumber _) = instanceNumber
    refine ⟨{ cmd.params with instanceNumber := instanceNumber }, ?_⟩
    split
    · exact Or.inl rfl
    · exact Or.inr ⟨cmd.destIntfText.drop (i + 1), rfl⟩

theorem sameFlags_parseDestFullImpl (argV : ArgV) (allowInst allowCmd : Bool) :
    SameFlags cmd (cmd.parseDestFullImpl host argV allowInst allowCmd).cmd := by
  obtain ⟨params, hcases⟩ := parseDestFullImpl_cases host cmd argV allowInst allowCmd
  have hparams : SameFlags cmd { cmd with params := params } := ⟨rfl, rfl⟩
  cases hcases with
  | inl hrej =>
    rw [hrej]
    exact hparams
  | inr hdest =>
    obtain ⟨sep1, hdest⟩ := hdest
    rw [hdest]
    exact hparams.trans (sameFlags_parseDest _ _ _)

theorem sameFlags_parseEndian (text : Text) : SameFlags cmd (cmd.parseEndian text).cmd := by
  unfold CommandData.parseEndian
  split <;> exact ⟨rfl, rfl⟩

/-- An option that is not a positional argument leaves the flags alone. -/
theorem sameFlags_parseOption {a : ArgV} (h : a.optionId ≠ .none) :
    SameFlags cmd (parseOption host cmd a).cmd := by
  obtain ⟨id, text⟩ := a
  cases id with
  | none => exact absurd rfl h
  | endian => exact sameFlags_parseEndian cmd text
  | pktedsver | pktid | pktapid => exact sameFlags_parseDestFullImpl host cmd _ _ _
  | _ => exact ⟨rfl, rfl⟩

/-- A positional argument is looked at when the payload is valid. -/
theorem cmd_parseParameter (text : Text) :
    (cmd.parseParameter host text).cmd =
      if (cmd.checkValidPayload host).ok then
        ((cmd.checkValidPayload host).cmd.processParameterArgument host text).1
      else (cmd.checkValidPayload host).cmd := by
  unfold CommandData.parseParameter
  cases hok : (cmd.checkValidPayload host).ok <;> simp [hok]

/-- A call raises the error flag when it rejects a positional argument, and never
lowers it. -/
theorem payloadError_parseOption (a : ArgV) :
    (parseOption host cmd a).cmd.payloadError =
      (setsPayloadError host cmd a || cmd.payloadError) := by
  by_cases hid : a.optionId = .none
  · obtain ⟨id, text⟩ := a
    obtain rfl : id = .none := hid
    have hcheck := (checkValidPayload_spec host cmd).2
    change (cmd.parseParameter host text).cmd.payloadError = _
    rw [cmd_parseParameter]
    unfold setsPayloadError
    cases hok : (cmd.checkValidPayload host).ok with
    | true =>
      have hparam := (processParameterArgument_spec host (cmd.checkValidPayload host).cmd text).1
      rw [hcheck] at hparam
      simpa [hok] using hparam
    | false => simpa [hok] using hcheck
  · rw [(sameFlags_parseOption host cmd hid).payloadError]
    simp [setsPayloadError, hid]

/-- Once the error flag is up, the payload is known to be valid. -/
def ErrorKnown : Prop := cmd.payloadError = true → cmd.payloadState = .success

theorem errorKnown_parseOption (a : ArgV) (h : ErrorKnown cmd) :
    ErrorKnown (parseOption host cmd a).cmd := by
  by_cases hid : a.optionId = .none
  · obtain ⟨id, text⟩ := a
    obtain rfl : id = .none := hid
    have hcheck := checkValidPayload_spec host cmd
    change ErrorKnown (cmd.parseParameter host text).cmd
    rw [cmd_parseParameter]
    cases hok : (cmd.checkValidPayload host).ok with
    | true =>
      have hstate := (ok_checkValidPayload host cmd).mp hok
      have hparam := (processParameterArgument_spec host (cmd.checkValidPayload host).cmd text).2
      intro _
      exact hparam.trans hstate
    | false =>
      intro herr
      have hknown := h (hcheck.2 ▸ herr)
      have hne : cmd.payloadState ≠ .unknown := by
        rw [hknown]
        exact LookupState.noConfusion
      have hsame := checkValidPayload_of_known host cmd hne
      simp [hsame, hknown] at hok
  · have hsame := sameFlags_parseOption host cmd hid
    unfold ErrorKnown
    rw [hsame.payloadError, hsame.payloadState]
    exact h

end

/-! ## A sample database -/

/-- A database with one command, which has no parameters: every interface is this
command's, and its packet is the first 8 bytes of the native buffer. Scalars are
texts of one character, which becomes the member. -/
def Host.sample : Host where
  edsSuccess := 0
  missionSuccess := 0
  commandHeader := 1
  headerType := fun _ => 2
  headerOffset := fun _ => 2
  setSeqFlag := fun buf flag => Function.update buf 2 (BitVec.ofNat 8 (flag * 64))
  unmapListenerComponent := fun params _ => params
  mapListenerComponent := fun pubSub _ => pubSub
  getTopicInfo := fun _ => (0, 3)
  findTopicIdFromIntfId := fun _ _ => (0, 6)
  getInstanceNumber := fun _ => 1
  setPubSubParameters := fun buf _ => buf
  findComponentInterfaceByFullName := fun _ _ => (0, 3)
  getComponentInterfaceInfo := fun _ => 0
  findAllArgumentTypes := fun _ _ => (0, 1)
  getTypeInfo := fun _ => 0
  getDerivedInfo := fun _ => -1
  getDerivedTypeById := fun _ _ => none
  getDerivedTypeById_ends := fun _ => ⟨0, rfl⟩
  constraints := fun _ _ => []
  getBaseName := fun _ => []
  getIndexByName := fun _ _ => none
  getMemberByIndex := fun _ _ info => info
  initializeNativeObject := fun _ buf => (0, buf)
  locateSubEntity := fun _ _ info => (-1, info)
  scalarFromString := fun _ offset buf text =>
    match text with
    | [c] => (0, Function.update buf offset c)
    | _ => (-1, buf)
  packCompleteObjectVarSize := fun arg out buf _ => (0, arg, out.copy 0 (buf.slice 0 8), 8)
  isValid := fun id => id ≠ 0
  destIntfDistance := fun _ => 0
  beyondText := fun _ _ => 0

end CmdSend.Eds
