-- SUMMARY: What the EDS encoder shows when help is asked for, as a function of the options before it, whatever its lookups come to.
import CmdSend.Eds.Draft

/-!
# Help

`EDS_HelpUsage` shows what the lookups have left in three places of the state, also when they
have failed. On paper these are what a request locates (`Request.located`): the one before the
first positional argument, where the lookups take place. The name of the command is that of
all options.
-/

namespace CmdSend.Eds

open CLib

/-! ## Places -/

/-- What the usage looks at: the interface, its argument, and the payload. -/
structure Located where
  intf : EdsId
  arg : EdsId
  info : EntityInfo

/-- What the lookups of a request come to, as far as they get. The interface stays when it has
no topic, the argument when it has no such command, and the payload when it has no object. -/
def Request.located (host : Host) (r : Request) : Located where
  intf :=
    if IsNumeral r.intf then (host.numbered (strtoul r.intf).value).elim 0 (·.1)
    else (host.lookupName r.intf).2
  arg := (r.interface host).elim 0 fun p => (host.findAllArgumentTypes p.1 0).2
  info := ((r.argument host).bind fun p => host.command p.1 r.cmd).elim ⟨0, 0⟩ fun arg =>
    if host.getTypeInfo arg = host.edsSuccess then host.payloadInfo arg else ⟨0, 0⟩

/-- What is shown, with the name of the command. -/
def Located.usage (host : Host) (l : Located) (name : Text) : Usage :=
  if !host.isValid l.intf then .interfaces
  else if host.isValid l.info.edsId then .payloadFields l.info.edsId
  else if name = [] then .commandCodes l.arg
  else .noPayload

/-- What is shown behind some options, unless one of them is refused. -/
def usage (host : Host) (opts : List ArgV) : Option Usage := do
  let r ← opts.foldlM (Request.step host) (.empty host)
  let first ← (early opts).foldlM (Request.step host) (.empty host)
  some ((first.located host).usage host r.cmd)

/-- The places in the state. -/
def CommandData.located (cmd : CommandData) : Located :=
  ⟨cmd.intfEdsId, cmd.intfArg, cmd.edsPayloadInfo⟩

/-! ## The lookups -/

section

variable {host : Host} {r : Request} {cmd : CommandData}

theorem located_rejectIntf (cmd : CommandData) : cmd.rejectIntf.located = cmd.located := by
  unfold CommandData.rejectIntf
  split <;> rfl

theorem located_findArgument (host : Host) (cmd : CommandData) :
    (cmd.findArgument host).2.located =
      { cmd.located with arg := (host.findAllArgumentTypes cmd.intfEdsId cmd.intfArg).2 } := by
  unfold CommandData.findArgument
  dsimp only
  split <;> rfl

theorem located_processNumericDest (h : Fresh cmd) (msgId : BitVec 64) :
    (cmd.processNumericDest host msgId).2.located =
      ⟨(host.numbered msgId).elim 0 (·.1),
        (host.numbered msgId).elim 0 fun p => (host.findAllArgumentTypes p.1 0).2, ⟨0, 0⟩⟩ := by
  unfold CommandData.processNumericDest Host.numbered
  dsimp only
  rw [h.params]
  generalize host.unmapListenerComponent ⟨0, 1⟩ ⟨msgId⟩ = params
  by_cases htopic : (host.getTopicInfo params.topicId).1 = host.missionSuccess
  · rw [if_neg (not_not.mpr htopic), if_pos htopic, located_findArgument]
    unfold CommandData.located
    dsimp only
    rw [h.intfArg, h.edsPayloadInfo]
    rfl
  · rw [if_pos htopic, if_neg htopic, located_rejectIntf]
    unfold CommandData.located
    dsimp only
    rw [h.intfEdsId, h.intfArg, h.edsPayloadInfo]
    rfl

theorem located_processNamedDest (h : Fresh cmd) :
    (cmd.processNamedDest host).2.located =
      ⟨(host.lookupName cmd.destIntfText).2,
        (host.named cmd.destIntfText).elim 0 fun p => (host.findAllArgumentTypes p.1 0).2,
        ⟨0, 0⟩⟩ := by
  obtain ⟨destIntf, -, hfound⟩ := @findInterface_eq host cmd h.intfEdsId
  unfold CommandData.processNamedDest Host.named
  rw [hfound]
  generalize host.lookupName cmd.destIntfText = intf
  dsimp only
  rw [@findTopic_eq host { cmd with destIntf := destIntf, intfEdsId := intf.2 } h.params]
  change CommandData.located
    (if (host.topicOf intf).1 ≠ _ then _ else _ : Bool × CommandData).2 = _
  generalize host.topicOf intf = topic
  by_cases hok : topic.1 = host.missionSuccess
  · rw [if_neg (not_not.mpr hok)]
    by_cases hinfo : host.getComponentInterfaceInfo intf.2 = host.edsSuccess
    · rw [if_neg (not_not.mpr hinfo), if_pos ⟨hok, hinfo⟩, located_findArgument]
      unfold CommandData.located
      dsimp only
      rw [h.intfArg, h.edsPayloadInfo]
      rfl
    · rw [if_pos hinfo, if_neg fun hboth => hinfo hboth.2]
      change Located.mk intf.2 cmd.intfArg cmd.edsPayloadInfo = _
      rw [h.intfArg, h.edsPayloadInfo]
      rfl
  · rw [if_pos hok, if_neg fun hboth => hok hboth.1, located_rejectIntf]
    change Located.mk intf.2 cmd.intfArg cmd.edsPayloadInfo = _
    rw [h.intfArg, h.edsPayloadInfo]
    rfl

/-- The lookup of the interface leaves it and its argument, found or not. -/
theorem Asks.located_processDestIntf (h : Asks r cmd) :
    (cmd.processDestIntf host).2.located = { r.located host with info := ⟨0, 0⟩ } := by
  unfold CommandData.processDestIntf Request.located Request.interface
  dsimp only
  rw [← h.intf]
  by_cases hnum : IsNumeral cmd.destIntfText
  · rw [if_pos hnum, if_pos hnum, if_pos ((isNumeral_iff _).mpr hnum)]
    exact located_processNumericDest h.toFresh _
  · rw [if_neg hnum, if_neg hnum, if_neg (mt (isNumeral_iff _).mp hnum)]
    exact located_processNamedDest h.toFresh

theorem located_processCmdCode (host : Host) (cmd : CommandData) :
    (cmd.processCmdCode host).2.located = cmd.located := by
  unfold CommandData.processCmdCode
  dsimp only
  split
  · split
    · split <;> rfl
    · rfl
  · split <;> rfl

theorem Asks.located_checkValidIntf (h : Asks r cmd) :
    (cmd.checkValidIntf host).cmd.located = { r.located host with info := ⟨0, 0⟩ } := by
  have hdest := @Asks.located_processDestIntf host _ _ h
  have hcode := located_processCmdCode host (cmd.processDestIntf host).2
  unfold CommandData.checkValidIntf
  dsimp only
  rw [if_pos h.intfState]
  split
  · exact hdest
  · split <;> exact hcode.trans hdest

theorem located_lookupPayloadDetail (h : cmd.edsPayloadInfo = ⟨0, 0⟩) :
    (cmd.lookupPayloadDetail host).2.located = { cmd.located with
      info :=
        if host.getTypeInfo cmd.actualArg = host.edsSuccess then host.payloadInfo cmd.actualArg
        else ⟨0, 0⟩ } := by
  unfold CommandData.lookupPayloadDetail Host.payloadInfo
  by_cases hinfo : host.getTypeInfo cmd.actualArg = host.edsSuccess
  · rw [if_neg (not_not.mpr hinfo), if_pos hinfo, ← h]
    cases host.getIndexByName cmd.actualArg (str "Payload") <;> rfl
  · rw [if_pos hinfo, if_neg hinfo, ← h]
    rfl

/-- The command that a check has found is the one that is asked for. -/
theorem Asks.arg_target (h : Asks r cmd) :
    (cmd.checkValidIntf host).target.map (·.arg) =
      (r.argument host).bind fun p => host.command p.1 r.cmd := by
  rw [h.target_checkValidIntf, Option.map_bind]
  congr 1
  funext p
  dsimp only [Function.comp_apply]
  rw [Option.map_map]
  exact Option.map_id'

/-- The lookups leave what the request locates. -/
theorem Asks.located (h : Asks r cmd) :
    (cmd.checkValidPayload host).cmd.located = r.located host := by
  have hintf := @Asks.located_checkValidIntf host _ _ h
  have harg := @Asks.arg_target host _ _ h
  have hinfo : (r.located host).info =
      ((cmd.checkValidIntf host).target.map (·.arg)).elim ⟨0, 0⟩ fun arg =>
        if host.getTypeInfo arg = host.edsSuccess then host.payloadInfo arg else ⟨0, 0⟩ := by
    rw [harg]
    rfl
  unfold Checked.target at hinfo
  unfold CommandData.checkValidPayload
  dsimp only
  rw [if_pos h.payloadState]
  generalize cmd.checkValidIntf host = intf at hintf hinfo ⊢
  obtain ⟨ok, cmd₁, steps⟩ := intf
  cases ok with
  | false =>
    change cmd₁.located = _
    rw [hintf]
    exact congrArg (Located.mk _ _) hinfo.symm
  | true =>
    have hdetail := @located_lookupPayloadDetail host cmd₁ (congrArg Located.info hintf)
    have hall : (cmd₁.lookupPayloadDetail host).2.located = r.located host := by
      rw [hdetail, hintf]
      exact congrArg (Located.mk _ _) hinfo.symm
    dsimp only
    split
    · rename_i hnot
      cases hnot
    split
    · exact hall
    · split <;> exact hall

end

/-! ## The options behind the lookups -/

section

variable (host : Host) {cmd : CommandData}

theorem located_parseDestFullImpl (cmd : CommandData) (argV : ArgV) (allowInst allowCmd : Bool) :
    (cmd.parseDestFullImpl host argV allowInst allowCmd).cmd.located = cmd.located := by
  obtain ⟨params, hcases⟩ := parseDestFullImpl_cases host cmd argV allowInst allowCmd
  cases hcases with
  | inl hrejected => rw [hrejected]; rfl
  | inr hdest =>
    obtain ⟨sep1, hdest⟩ := hdest
    rw [hdest]
    unfold CommandData.parseDest
    dsimp only
    split
    · split <;> rfl
    · rfl

theorem located_parseParameter (h : cmd.payloadState ≠ .unknown) (text : Text) :
    (cmd.parseParameter host text).cmd.located = cmd.located := by
  rw [cmd_parseParameter, checkValidPayload_of_known host cmd h]
  dsimp only
  split
  · unfold CommandData.processParameterArgument
    split
    · rfl
    dsimp only
    split
    · rfl
    split <;> rfl
  · rfl

/-- Behind the lookups, no option changes what they have left. -/
theorem settled_parseOption (h : cmd.payloadState ≠ .unknown) (a : ArgV) :
    SameLookups cmd (parseOption host cmd a).cmd ∧
      (parseOption host cmd a).cmd.located = cmd.located := by
  obtain ⟨id, text⟩ := a
  cases id with
  | none =>
    have hsame := sameLookups_parseParameter host cmd text
    rw [checkValidPayload_of_known host cmd h] at hsame
    exact ⟨hsame, located_parseParameter host h text⟩
  | endian =>
    refine ⟨(noLookup_parseEndian cmd text).1, ?_⟩
    simp only [parseOption, CommandData.parseEndian]
    split <;> rfl
  | pktedsver | pktid | pktapid =>
    exact ⟨(noLookup_parseDestFullImpl host cmd _ _ _).1, located_parseDestFullImpl host cmd _ _ _⟩
  | _ => exact ⟨⟨rfl, rfl, rfl, rfl⟩, rfl⟩

theorem settled_run (h : cmd.payloadState ≠ .unknown) (opts : List ArgV) :
    (run host cmd opts).payloadState = cmd.payloadState ∧
      (run host cmd opts).intfState = cmd.intfState ∧
      (run host cmd opts).located = cmd.located := by
  refine foldl_invariant (I := fun s : CommandData => s.payloadState = cmd.payloadState ∧
    s.intfState = cmd.intfState ∧ s.located = cmd.located) (fun s a hs => ?_) opts ⟨rfl, rfl, rfl⟩
  obtain ⟨hpayload, hintf, hlocated⟩ := hs
  obtain ⟨hsame, hkept⟩ := @settled_parseOption host s (hpayload ▸ h) a
  exact ⟨hsame.payloadState.trans hpayload, hsame.intfState.trans hintf, hkept.trans hlocated⟩

end

/-! ## What is shown -/

section

variable {host : Host} {r : Request} {cmd : CommandData} {opts : List ArgV}

/-- The check of the interface in front of that of the payload changes nothing. -/
theorem checkValidPayload_checkValidIntf (host : Host)
    (h : cmd.payloadState = .unknown ∨ cmd.intfState ≠ .unknown) :
    ((cmd.checkValidIntf host).cmd.checkValidPayload host).cmd =
      (cmd.checkValidPayload host).cmd := by
  by_cases hintf : cmd.intfState = .unknown
  · have hpayload := h.resolve_right (not_not.mpr hintf)
    have hframe := (frame_checkValidIntf host cmd).payloadState.trans hpayload
    have hagain := checkValidIntf_of_known host _ (checkValidIntf_known host cmd)
    have hok : (cmd.checkValidIntf host).ok =
        decide ((cmd.checkValidIntf host).cmd.intfState = .success) :=
      Bool.eq_iff_iff.mpr ((ok_checkValidIntf host cmd).trans decide_eq_true_iff.symm)
    unfold CommandData.checkValidPayload
    dsimp only
    rw [if_pos hframe, if_pos hpayload, hagain, hok]
    dsimp only
    split
    · rfl
    split
    · rfl
    split <;> rfl
  · rw [checkValidIntf_of_known host cmd hintf]

theorem helpUsage_eq (host : Host) (h : cmd.payloadState = .unknown ∨ cmd.intfState ≠ .unknown) :
    (helpUsage host cmd).1 =
      (cmd.checkValidPayload host).cmd.located.usage host cmd.cmdNameText := by
  have hname := cmdName_checkValidPayload host cmd
  have hempty : cmd.cmdNameText = [] ↔ cmd.cmdName 0 = 0 :=
    cmd.cmdName.cstr_eq_nil_iff (by decide)
  unfold helpUsage Located.usage CommandData.located
  dsimp only
  rw [checkValidPayload_checkValidIntf host h, hname]
  simp only [hempty]

/-- What is shown behind a run, in which the lookups took place where they had to. -/
theorem helpUsage_run {obj : CommandData} (h : Asks r (run host obj (early opts))) :
    (helpUsage host (run host obj opts)).1 =
      (r.located host).usage host (run host obj opts).cmdNameText := by
  have hlocated := @Asks.located host _ _ h
  have hknown := (checkValidPayload_spec host (run host obj (early opts))).1
  have hintf : (lookedUp host obj opts).intfState ≠ .unknown := by
    unfold lookedUp
    rw [(checkValidPayload_of_unknown host _ h.payloadState).1]
    exact checkValidIntf_known host _
  cases run_cases host obj opts with
  | inl hearly =>
    rw [hearly.2, ← hlocated]
    exact helpUsage_eq host (Or.inl h.payloadState)
  | inr hlate =>
    obtain ⟨hpayload', hintf', hlocated'⟩ := settled_run host hknown (late opts)
    rw [hlate, helpUsage_eq host (Or.inr (hintf' ▸ hintf)),
      checkValidPayload_of_known host _ (hpayload' ▸ hknown)]
    exact congrArg (Located.usage host · _) (hlocated'.trans hlocated)

/-! ## What is printed -/

/-- The types that are derived are those with the indices up to their number. -/
theorem getElem?_derivedTypes (host : Host) (arg : EdsId) {fuel i : Nat} {idx : BitVec 16}
    (hfuel : i < fuel) (hi : i ≤ (host.derivedTypes arg fuel idx).length) :
    host.getDerivedTypeById arg (idx + BitVec.ofNat 16 i) =
      (host.derivedTypes arg fuel idx)[i]? := by
  induction fuel generalizing i idx with
  | zero => exact absurd hfuel (Nat.not_lt_zero i)
  | succ fuel ih =>
    unfold Host.derivedTypes at hi ⊢
    cases hget : host.getDerivedTypeById arg idx with
    | none =>
      rw [hget] at hi
      obtain rfl := Nat.eq_zero_of_le_zero hi
      rw [BitVec.add_zero, hget]
      rfl
    | some id =>
      rw [hget] at hi
      cases i with
      | zero =>
        rw [BitVec.add_zero, hget]
        rfl
      | succ i =>
        have hnext : idx + BitVec.ofNat 16 (i + 1) = idx + 1 + BitVec.ofNat 16 i := by
          rw [Nat.add_comm, BitVec.ofNat_add, ← BitVec.add_assoc]
          rfl
        rw [hnext]
        exact ih (Nat.lt_of_succ_lt_succ hfuel) (Nat.le_of_succ_le_succ hi)

theorem getDerivedTypeById_eq (host : Host) (arg : EdsId) {idx : BitVec 16}
    (h : idx.toNat ≤ (host.derivedTypes arg (2 ^ 16) 0).length) :
    host.getDerivedTypeById arg idx = (host.derivedTypes arg (2 ^ 16) 0)[idx.toNat]? := by
  have hidx : 0 + BitVec.ofNat 16 idx.toNat = idx := by simp
  have hget := getElem?_derivedTypes host arg idx.isLt h
  rwa [hidx] at hget

/-- There are not so many that the index of 16 bits starts again. -/
theorem length_derivedTypes_lt (host : Host) (arg : EdsId) :
    (host.derivedTypes arg (2 ^ 16) 0).length < 65536 := by
  obtain ⟨idx, hnone⟩ := host.getDerivedTypeById_ends arg
  by_contra hge
  have hlt : idx.toNat < (host.derivedTypes arg (2 ^ 16) 0).length :=
    Nat.lt_of_lt_of_le idx.isLt (Nat.le_of_not_lt hge)
  have hget := getDerivedTypeById_eq host arg (Nat.le_of_lt hlt)
  rw [hnone, List.getElem?_eq_getElem hlt] at hget
  cases hget

/-- The lines of a usage. -/
def Usage.lines (host : UsageHost) : Usage → List Text
  | .interfaces =>
    str "EDS-defined Telecommand Interfaces:\n" ::
      (host.topics.filterMap (enumerateTopic host) ++ [str "\n"])
  | .payloadFields id =>
    str "\nDefined Payload Fields (sizes in bits):\n" ::
      (host.members id).filterMap (enumerateMember host)
  | .commandCodes arg =>
    str "\nAvailable Command Codes:\n" ::
      (host.derivedTypes arg (2 ^ 16) 0).map (typeLine host arg)
  | .noPayload => [str "\nSelected command has no payload fields\n"]

/-- The printing ends, and the buffer for the constraints does not show in it. -/
theorem printUsage_eq (host : UsageHost) (cmd : CommandData) (buffer : Mem) :
    printUsage host cmd buffer = some ((helpUsage host.toHost cmd).1.lines host) := by
  unfold printUsage
  cases (helpUsage host.toHost cmd).1 with
  | commandCodes arg =>
    obtain ⟨s, hrun, hprinted, -⟩ :=
      listCommands_spec (fun _ => getDerivedTypeById_eq host.toHost arg)
        (length_derivedTypes_lt host.toHost arg) buffer
    dsimp only
    rw [hrun, Option.map_some, hprinted]
    rfl
  | _ => rfl

/-- What is shown behind options that are not refused. -/
theorem helpUsage_eq_usage {obj : CommandData} {u : Usage} (hobj : instantiate host = some obj)
    (hzero : ∀ a ∈ opts, 0 ∉ a.text) (hu : usage host opts = some u) :
    ∃ cmd, opts.foldlM (accept host) obj = some cmd ∧ (helpUsage host cmd).1 = u := by
  obtain ⟨hearly, hall⟩ := @requests_run host _ _ _ (asks_instantiate hobj) hzero
  unfold usage at hu
  obtain ⟨r, hr, hu⟩ := Option.bind_eq_some_iff.mp hu
  obtain ⟨first, hfirst, hu⟩ := Option.bind_eq_some_iff.mp hu
  rw [hr] at hall
  rw [hfirst] at hearly
  generalize hrun₁ : (early opts).foldlM (accept host) obj = o₁ at hearly
  generalize hrun : opts.foldlM (accept host) obj = o at hall ⊢
  cases hearly with
  | some hasks =>
    cases hall with
    | some hagrees =>
      refine ⟨_, rfl, ?_⟩
      rw [← run_of_foldlM hrun₁] at hasks
      rw [← run_of_foldlM hrun] at hagrees ⊢
      rw [helpUsage_run hasks, hagrees.name]
      exact Option.some.inj hu

end

/-- An interface without a command of the name that is asked for shows no payload. -/
example : usage UsageHost.sample.toHost [⟨.pktid, str "ES"⟩, ⟨.cmdcode, str "x"⟩] =
    some .noPayload := by decide

end CmdSend.Eds
