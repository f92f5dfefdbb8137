-- SUMMARY: When a failed run of the EDS encoder has nothing to say: every lookup that fails leaves an error text, unless there is no destination.
import CmdSend.Dispatch.Errors
import CmdSend.Eds.Draft

/-!
# Error texts

A lookup that fails leaves a text, unless `DestIntf` is empty, and nothing takes a text away
later. A run that fails without a text was refused a protocol or a destination, had no
destination when its first parameter or the packer looked for one, or met a packer of EdsLib
that failed.
-/

namespace CmdSend.Eds

open CLib

/-! ## The lookups -/

/-- The encoder has something to say. -/
def CommandData.Told (cmd : CommandData) : Prop := cmd.lastErrorText ≠ []

theorem snprintf_ne_nil {text : Text} (h : text ≠ []) : snprintf errorTextSize text ≠ [] := by
  intro hnil
  exact h ((List.take_eq_nil_iff.mp hnil).resolve_left (by decide))

theorem told_setError (cmd : CommandData) {error : Text} (h : error ≠ []) :
    (cmd.setError error).Told :=
  snprintf_ne_nil h

section

variable (host : Host) (cmd : CommandData)

theorem told_rejectIntf (h : cmd.destIntf 0 ≠ 0) : cmd.rejectIntf.Told := by
  unfold CommandData.rejectIntf
  rw [if_pos h]
  exact told_setError cmd (by simp [str])

theorem told_findArgument (h : (cmd.findArgument host).1 = false) :
    (cmd.findArgument host).2.Told := by
  unfold CommandData.findArgument at h ⊢
  dsimp only at h ⊢
  split
  · exact told_setError _ (by simp [str])
  · rename_i hrc
    rw [if_neg hrc] at h
    cases h

theorem told_processNumericDest (hdest : cmd.destIntf 0 ≠ 0) {midVal : BitVec 64}
    (h : (cmd.processNumericDest host midVal).1 = false) :
    (cmd.processNumericDest host midVal).2.Told := by
  unfold CommandData.processNumericDest at h ⊢
  dsimp only at h ⊢
  split
  · exact told_rejectIntf _ hdest
  · rename_i htopic
    rw [if_neg htopic] at h
    exact told_findArgument host _ h

/-- The component is not inserted into an empty name, and leaves none. -/
theorem destIntf_findInterface_ne (hdest : cmd.destIntf 0 ≠ 0) :
    (cmd.findInterface host).2.destIntf 0 ≠ 0 := by
  by_cases hfound : (host.findComponentInterfaceByFullName cmd.destIntfText cmd.intfEdsId).1 =
      host.edsSuccess
  · unfold CommandData.findInterface
    dsimp only
    rw [if_neg (not_not.mpr hfound)]
    exact hdest
  · rw [destIntf_findInterface host cmd hfound]
    by_cases hroom : ch '/' ∈ cmd.destIntf.cstr optargSize ∧
        (cmd.destIntf.cstr optargSize).length + 12 < optargSize
    · obtain ⟨before, after, hsplit, hlast⟩ := exists_split_last hroom.1
      obtain ⟨-, htext, hlen⟩ := cstr_applyAll_insertion hsplit hlast hroom.2
      intro hzero
      rw [(Mem.cstr_eq_nil_iff _ (by decide)).mpr hzero] at htext
      rw [← htext, List.length_nil] at hlen
      omega
    · rw [insertion_of_not hroom]
      exact hdest

theorem told_processNamedDest (hdest : cmd.destIntf 0 ≠ 0)
    (h : (cmd.processNamedDest host).1 = false) : (cmd.processNamedDest host).2.Told := by
  unfold CommandData.processNamedDest at h ⊢
  dsimp only at h ⊢
  split
  · refine told_rejectIntf _ ?_
    rw [destIntf_findTopic]
    exact destIntf_findInterface_ne host cmd hdest
  · rename_i htopic
    rw [if_neg htopic] at h
    split
    · exact told_setError _ (by simp [str])
    · rename_i hinfo
      rw [if_neg hinfo] at h
      exact told_findArgument host _ h

theorem told_processDestIntf (hdest : cmd.destIntf 0 ≠ 0)
    (h : (cmd.processDestIntf host).1 = false) : (cmd.processDestIntf host).2.Told := by
  unfold CommandData.processDestIntf at h ⊢
  dsimp only at h ⊢
  split
  · rename_i hnumber
    rw [if_pos hnumber] at h
    exact told_processNumericDest host cmd hdest h
  · rename_i hname
    rw [if_neg hname] at h
    exact told_processNamedDest host cmd hdest h

theorem told_processCmdCode (h : (cmd.processCmdCode host).1 = false) :
    (cmd.processCmdCode host).2.Told := by
  unfold CommandData.processCmdCode at h ⊢
  dsimp only at h ⊢
  split
  · rename_i hderived
    rw [if_pos hderived] at h
    split
    · split <;> exact told_setError _ (by simp [str])
    · rename_i hfound
      rw [if_neg hfound] at h
      cases h
  · rename_i hderived
    rw [if_neg hderived] at h
    split
    · exact told_setError cmd (by simp [str])
    · rename_i hname
      rw [if_neg hname] at h
      cases h

theorem told_lookupPayloadDetail (h : (cmd.lookupPayloadDetail host).1 = false) :
    (cmd.lookupPayloadDetail host).2.Told := by
  unfold CommandData.lookupPayloadDetail at h ⊢
  split
  · exact told_setError cmd (by simp [str])
  · rename_i hinfo
    rw [if_neg hinfo] at h
    split at h <;> cases h

/-- The first check of the interface fails with a text. -/
theorem told_checkValidIntf (hunknown : cmd.intfState = .unknown) (hdest : cmd.destIntf 0 ≠ 0)
    (h : (cmd.checkValidIntf host).ok = false) : (cmd.checkValidIntf host).cmd.Told := by
  unfold CommandData.checkValidIntf at h ⊢
  simp only [if_pos hunknown] at h ⊢
  split
  · rename_i hfailed
    exact told_processDestIntf host cmd hdest (by simpa using hfailed)
  · rename_i hfound
    rw [if_neg hfound] at h
    split
    · rename_i hfailed
      exact told_processCmdCode host _ (by simpa using hfailed)
    · rename_i hcommand
      rw [if_neg hcommand] at h
      cases h

/-- The first check of the payload fails with a text. -/
theorem told_checkValidPayload (hintf : cmd.intfState = .unknown)
    (hunknown : cmd.payloadState = .unknown) (hdest : cmd.destIntf 0 ≠ 0)
    (h : (cmd.checkValidPayload host).ok = false) : (cmd.checkValidPayload host).cmd.Told := by
  unfold CommandData.checkValidPayload at h ⊢
  simp only [if_pos hunknown] at h ⊢
  split
  · rename_i hfailed
    exact told_checkValidIntf host cmd hintf hdest (by simpa using hfailed)
  · rename_i hvalid
    rw [if_neg hvalid] at h
    split
    · rename_i hfailed
      exact told_lookupPayloadDetail host _ (by simpa using hfailed)
    · rename_i hdetail
      rw [if_neg hdetail] at h
      split
      · exact snprintf_ne_nil (by simp [str])
      · rename_i hinit
        rw [if_neg hinit] at h
        cases h

/-! ## The options -/

theorem told_processParameterArgument (h : cmd.Told) (optarg : Text) :
    (cmd.processParameterArgument host optarg).1.Told := by
  unfold CommandData.processParameterArgument
  split
  · exact snprintf_ne_nil (by simp [str])
  dsimp only
  split
  · exact snprintf_ne_nil (by simp [str])
  split
  · exact snprintf_ne_nil (by simp [str])
  · exact h

theorem lastErrorText_parseDest (sep1 : Text) (allowCmd : Bool) :
    (cmd.parseDest sep1 allowCmd).cmd.lastErrorText = cmd.lastErrorText := by
  unfold CommandData.parseDest
  dsimp only
  split
  · split <;> rfl
  · rfl

theorem lastErrorText_parseDestFullImpl (argV : ArgV) (allowInst allowCmd : Bool) :
    (cmd.parseDestFullImpl host argV allowInst allowCmd).cmd.lastErrorText =
      cmd.lastErrorText := by
  obtain ⟨params, hcases⟩ := parseDestFullImpl_cases host cmd argV allowInst allowCmd
  cases hcases with
  | inl hrej =>
    rw [hrej]
    rfl
  | inr hdest =>
    obtain ⟨sep1, hdest⟩ := hdest
    rw [hdest]
    exact lastErrorText_parseDest _ sep1 allowCmd

theorem told_parseEndian (h : cmd.Told) (text : Text) : (cmd.parseEndian text).cmd.Told := by
  unfold CommandData.parseEndian
  split
  · exact h
  · exact told_setError cmd (by simp [str])

/-- Once the payload is known, no option takes the text away. -/
theorem told_parseOption (hknown : cmd.payloadState ≠ .unknown) (h : cmd.Told) (a : ArgV) :
    (parseOption host cmd a).cmd.Told := by
  obtain ⟨id, text⟩ := a
  cases id with
  | none =>
    change (cmd.parseParameter host text).cmd.Told
    rw [cmd_parseParameter, checkValidPayload_of_known host cmd hknown]
    split
    · exact told_processParameterArgument host cmd h text
    · exact h
  | endian => exact told_parseEndian cmd h text
  | pktedsver | pktid | pktapid =>
    exact (lastErrorText_parseDestFullImpl host cmd _ _ _).trans_ne h
  | _ => exact h

end

/-! ## Runs -/

section

variable {host : Host} {obj : CommandData} {opts : List ArgV}

theorem SameLookups.refl (cmd : CommandData) : SameLookups cmd cmd := ⟨rfl, rfl, rfl, rfl⟩

theorem SameLookups.trans {cmd₁ cmd₂ cmd₃ : CommandData} (h₁ : SameLookups cmd₁ cmd₂)
    (h₂ : SameLookups cmd₂ cmd₃) : SameLookups cmd₁ cmd₃ :=
  ⟨h₂.intfState.trans h₁.intfState, h₂.payloadState.trans h₁.payloadState,
    h₂.actualArg.trans h₁.actualArg, h₂.edsPayloadInfo.trans h₁.edsPayloadInfo⟩

/-- Options that are no positional arguments look nothing up. -/
theorem sameLookups_run (host : Host) (cmd : CommandData)
    (h : ∀ a ∈ opts, a.optionId ≠ .none) : SameLookups cmd (run host cmd opts) := by
  induction opts generalizing cmd with
  | nil => exact .refl cmd
  | cons a opts ih =>
    obtain ⟨ha, hopts⟩ := List.forall_mem_cons.mp h
    exact (noLookup_parseOption host cmd ha).1.trans (ih _ hopts)

/-- From a lookup that is done on, no run takes the text away. -/
theorem told_run {cmd : CommandData} (hknown : cmd.payloadState ≠ .unknown) (h : cmd.Told)
    (opts : List ArgV) :
    (run host cmd opts).payloadState ≠ .unknown ∧ (run host cmd opts).Told := by
  refine foldl_invariant (I := fun cmd : CommandData => cmd.payloadState ≠ .unknown ∧ cmd.Told)
    ?_ opts ⟨hknown, h⟩
  rintro cmd a ⟨hknown, h⟩
  have hat : AtObject cmd (write host cmd.edsPayloadInfo cmd.buf a) (parseOption host cmd a).cmd :=
    AtObject.parseOption hknown ⟨rfl, rfl, rfl, fun _ => rfl⟩ a
  exact ⟨hat.payloadState ▸ hknown,
    told_parseOption host cmd hknown h a⟩

/-- What is said about the lookup is still there when the packer has looked. -/
theorem told_of_lookedUp (htold : (lookedUp host obj opts).Told) :
    ((run host obj opts).checkValidPayload host).cmd.Told := by
  have hknown : (lookedUp host obj opts).payloadState ≠ .unknown := (lookedUp_spec host _).1
  cases run_cases host obj opts with
  | inl hearly =>
    rw [hearly.2]
    exact htold
  | inr hlate =>
    obtain ⟨hstill, htold⟩ := @told_run host _ hknown htold (late opts)
    rw [hlate, checkValidPayload_of_known host _ hstill]
    exact htold

/-- The options that are refused without a text. -/
def quietOptions : List OptionId := [.protocol, .pktedsver, .pktid, .pktapid]

theorem refused_cases {cmd : CommandData} {a : ArgV}
    (h : (parseOption host cmd a).retcode = .invalid) :
    a.optionId ∈ quietOptions ∨ (parseOption host cmd a).cmd.Told := by
  obtain ⟨id, text⟩ := a
  cases id with
  | protocol | pktedsver | pktid | pktapid => exact Or.inl (by simp [quietOptions])
  | endian =>
    change (cmd.parseEndian text).retcode = .invalid at h
    change _ ∨ (cmd.parseEndian text).cmd.Told
    unfold CommandData.parseEndian at h ⊢
    split at h
    · cases h
    · rename_i hother
      rw [if_neg hother]
      exact Or.inr (told_setError cmd (by simp [str]))
  | none =>
    change (cmd.parseParameter host text).retcode = .invalid at h
    unfold CommandData.parseParameter at h
    dsimp only at h
    split at h <;> cases h
  | pktpb | pktseqflg | pktseqcnt | pktendian | pktsubsys | pktver | pktsys =>
    change (cmd.parseHeader host _ _ text).retcode = .invalid at h
    unfold CommandData.parseHeader at h
    dsimp only [CommandData.answer] at h
    split at h <;> cases h
  | _ => cases h

/-- Why a run comes to nothing without a text. -/
inductive Silent (host : Host) (obj : CommandData) (opts : List ArgV) : Prop
  /-- The option that is refused is a protocol or a destination. -/
  | option {c : CommandData × ArgV} : ends (Dispatch.edsApi host).accept obj opts = .error c →
      c.2.optionId ∈ quietOptions → Silent host obj opts
  /-- There is no destination when the command is looked up. -/
  | destination : (run host obj (early opts)).destIntf 0 = 0 →
      (lookedUp host obj opts).payloadState = .failed → Silent host obj opts
  /-- The command is known, and EdsLib packs nothing. -/
  | packer : (lookedUp host obj opts).payloadState = .success →
      (let packed := packObject host (lookedUp host obj opts).actualArg
        ((late opts).foldl (write host (lookedUp host obj opts).edsPayloadInfo)
          (lookedUp host obj opts).buf) (fun _ => 0) Dispatch.netBufSize
      packed.1 = false ∨ packed.2.2 = 0) → Silent host obj opts

/-- A lookup that failed has said so, when there was a destination. -/
theorem told_lookedUp (hobj : instantiate host = some obj)
    (hfailed : (lookedUp host obj opts).payloadState = .failed)
    (hdest : (run host obj (early opts)).destIntf 0 ≠ 0) : (lookedUp host obj opts).Told := by
  have hsame : SameLookups obj (run host obj (early opts)) :=
    sameLookups_run host obj fun a ha => ne_none_of_mem_early ha
  have hstart : obj.intfState = .unknown ∧ obj.payloadState = .unknown := by
    unfold instantiate at hobj
    split at hobj
    · cases hobj
    · obtain rfl := Option.some.inj hobj
      exact ⟨rfl, rfl⟩
  refine told_checkValidPayload host _ (hsame.intfState.trans hstart.1)
    (hsame.payloadState.trans hstart.2) hdest ?_
  refine Bool.eq_false_iff.mpr fun hok => ?_
  have hsuccess := (ok_checkValidPayload host _).mp hok
  change (lookedUp host obj opts).payloadState = _ at hsuccess
  rw [hfailed] at hsuccess
  cases hsuccess

/-- A run of the encoder that comes to nothing and leaves no text is one of `Silent`. -/
theorem silent_of_nil (hobj : instantiate host = some obj)
    (hfail : (Dispatch.edsApi host).packAlone opts = none)
    (htext : ((Dispatch.edsApi host).final obj opts).lastErrorText = []) :
    Silent host obj opts := by
  unfold Dispatch.ParserApi.final at htext
  cases hends : ends (Dispatch.edsApi host).accept obj opts with
  | error c =>
    rw [hends] at htext
    have hret : (parseOption host c.1 c.2).retcode = .invalid :=
      Dispatch.ParserApi.invalid_of_error hends
    exact .option hends ((refused_cases hret).resolve_right fun htold => htold htext)
  | ok cmd =>
    rw [hends] at htext
    have hrun := ends_eq_ok_iff.mp hends
    have hcmd := run_of_foldlM hrun
    subst hcmd
    have hsilent : ¬(lookedUp host obj opts).Told := fun htold =>
      told_of_lookedUp htold ((Dispatch.lastErrorText_getPackedObject host _ _ _).symm.trans htext)
    cases hstate : (lookedUp host obj opts).payloadState with
    | unknown => exact absurd hstate (lookedUp_spec host _).1
    | failed =>
      refine .destination (by_contra fun hdest => ?_) hstate
      exact hsilent (told_lookedUp hobj hstate hdest)
    | success =>
      have hresult := result_run host obj opts (fun _ => 0) Dispatch.netBufSize
      dsimp only at hresult
      rw [if_pos hstate] at hresult
      refine .packer hstate ?_
      dsimp only
      rw [← hresult]
      by_contra hpacked
      obtain ⟨hok, hsize⟩ := not_or.mp hpacked
      exact Dispatch.ParserApi.not_packed_of_ok hobj hends hfail
        ⟨Bool.not_eq_false _ ▸ hok, hsize⟩

end

end CmdSend.Eds
