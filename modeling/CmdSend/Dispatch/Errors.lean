-- SUMMARY: The lines that a failed run of the dispatcher prints: what each encoder says when it is run on its own.
import CmdSend.Dispatch.Offers

/-!
# The error lines

When no encoder builds a packet, `main` prints the error text of each of them, behind the
lines that they have logged. By then the encoders have been fed side by side, and those that
refused nothing have been asked for a packet in the buffer that they share. The lines are
still those of the encoders alone.
-/

namespace CmdSend.Dispatch

open CLib

namespace ParserApi

variable (api : ParserApi)

/-- The object of an encoder that is run on its own, after the option that it refuses or
after the call for a packet. -/
def final (obj : api.Obj) (opts : List ArgV) : api.Obj :=
  match ends api.accept obj opts with
  | .ok obj => (api.getPackedObject obj (fun _ => 0) netBufSize).obj
  | .error c => (api.parseOption c.1 c.2).2

/-- The line of an object. -/
def line (obj : api.Obj) : Option Text :=
  api.getErrorText.map fun getErrorText => api.name ++ str ": " ++ getErrorText obj ++ str "\n"

/-- The line of an encoder that is run on its own. -/
def errorLine (opts : List ArgV) : Option Text :=
  api.instantiate.bind fun obj => api.line (api.final obj opts)

/-- What the encoder says after packing does not depend on what other encoders left in the
output buffer. -/
def SpeaksForItself : Prop :=
  ∀ getErrorText, api.getErrorText = some getErrorText → ∀ (obj : api.Obj) (out out' : Mem),
    getErrorText (api.getPackedObject obj out netBufSize).obj =
      getErrorText (api.getPackedObject obj out' netBufSize).obj

/-- What the encoder logs while it packs does not depend on it either. -/
def LogsForItself : Prop :=
  ∀ (obj : api.Obj) (out out' : Mem),
    api.getPackedObjectErrors obj out netBufSize = api.getPackedObjectErrors obj out' netBufSize

/-- What an encoder that is run on its own logs when it is asked for a packet. -/
def packErrors (opts : List ArgV) : List Text :=
  match api.after opts with
  | some obj => api.getPackedObjectErrors obj (fun _ => 0) netBufSize
  | none => []

end ParserApi

/-- What the encoders log and say when each is run on its own, option by option. -/
def linesAlone (apis : List ParserApi) (opts : List ArgV) : List Text :=
  (offersAlone apis [] opts).flatMap (fun o => o.api.parseOptionErrors o.obj o.argV) ++
    apis.flatMap (·.packErrors opts) ++
    str "Option parsing failed:\n" :: apis.filterMap (·.errorLine opts)

/-! ## One entry -/

section

variable {api : ParserApi}

/-- The option at which an encoder ends is the one that it refuses. -/
theorem ParserApi.invalid_of_error {opts : List ArgV} {obj : api.Obj} {c : api.Obj × ArgV}
    (h : ends api.accept obj opts = .error c) : (api.parseOption c.1 c.2).1 = .invalid := by
  have hrefused := (ends_eq_error h).2
  unfold accept at hrefused
  dsimp only at hrefused
  by_contra hret
  rw [if_neg hret] at hrefused
  cases hrefused

/-- An encoder that refuses nothing and comes to no packet has failed to pack, or packed
nothing. -/
theorem ParserApi.not_packed_of_ok {opts : List ArgV} {obj obj' : api.Obj}
    (hobj : api.instantiate = some obj) (hends : ends api.accept obj opts = .ok obj')
    (h : api.packAlone opts = none) :
    ¬((api.getPackedObject obj' (fun _ => 0) netBufSize).ok = true ∧
      (api.getPackedObject obj' (fun _ => 0) netBufSize).size ≠ 0) := by
  unfold packAlone at h
  rw [hobj, Option.bind_some, ends_eq_ok_iff.mp hends, Option.bind_some] at h
  unfold packed at h
  intro hpacked
  rw [if_pos hpacked] at h
  cases h

/-- The object of an entry stays as the refused option leaves it. -/
theorem OptParser.feedAll_of_error {opts : List ArgV} {obj : api.Obj} {c : api.Obj × ArgV}
    (h : ends api.accept obj opts = .error c) (calls : List Call) :
    ((good obj calls).feedAll opts).isOK = false ∧
      ((good obj calls).feedAll opts).obj = some (api.parseOption c.1 c.2).2 := by
  induction opts generalizing obj calls with
  | nil => cases h
  | cons a opts ih =>
    unfold feedAll at ih ⊢
    rw [List.foldl_cons]
    cases hstep : api.accept obj a with
    | some obj₁ =>
      have hfeed : (good obj calls).feed a = good obj₁ _ :=
        congrArg Prod.fst (doParseOption_of_some hstep calls 0)
      rw [ends_cons_some hstep] at h
      rw [hfeed]
      exact ih h _
    | none =>
      obtain ⟨hasObj, hnone⟩ := doParseOption_of_none hstep calls 0
      have hfeed : (good obj calls).feed a =
          ⟨some (api.parseOption obj a).2, false, _, hasObj⟩ := congrArg Prod.fst hnone
      rw [ends_cons_none hstep] at h
      obtain rfl := Except.error.inj h
      have hrest := feedAll_of_not_ok (congrArg OptParser.isOK hfeed) opts
      unfold feedAll at hrest
      rw [hrest, hfeed]
      exact ⟨rfl, rfl⟩

theorem doShowError_eq (p : OptParser api) : doShowError ⟨api, p⟩ = p.obj.bind api.line := by
  unfold doShowError ParserApi.line
  dsimp only
  cases p.obj with
  | none => rfl
  | some obj => cases api.getErrorText <;> rfl

theorem ParserApi.SpeaksForItself.line_eq (h : api.SpeaksForItself) (obj : api.Obj)
    (out out' : Mem) :
    api.line (api.getPackedObject obj out netBufSize).obj =
      api.line (api.getPackedObject obj out' netBufSize).obj := by
  unfold ParserApi.line
  cases htext : api.getErrorText with
  | none => rfl
  | some getErrorText => rw [Option.map_some, Option.map_some, h getErrorText htext obj out out']

end

/-! ## The table -/

/-- The entry of an encoder after it was asked for a packet and nothing was sent. -/
def Asked (opts : List ArgV) (api : ParserApi) (p : Parser) : Prop :=
  ∃ buf, p = ⟨api, (doEncode api ((OptParser.instantiate api).feedAll opts) (0, buf)).1⟩ ∧
    (doEncode api ((OptParser.instantiate api).feedAll opts) (0, buf)).2.1 = 0

/-- When nothing is sent in the end, the first entry sends nothing. -/
theorem doEncode_of_not_sent {api : ParserApi} {p : OptParser api} {ps : List Parser} {buf : Mem}
    (h : netPacket (foreachParser doEncode (⟨api, p⟩ :: ps) (0, buf)).2 = none) :
    (doEncode api p (0, buf)).2 = (0, (doEncode api p (0, buf)).2.2) := by
  unfold foreachParser at h
  dsimp only at h
  by_contra hsent
  have hsize : (doEncode api p (0, buf)).2.1 ≠ 0 := fun hsize => hsent (Prod.ext hsize rfl)
  -- a packet of the first entry is never taken back
  rw [foreachParser_doEncode_of_sent hsize] at h
  simp [netPacket, hsize] at h

/-- When nothing is sent in the end, every encoder was asked, in table order. -/
theorem asked_of_not_sent {apis : List ParserApi} {opts : List ArgV} {buf : Mem}
    (h : netPacket (foreachParser doEncode (parsedTable apis opts) (0, buf)).2 = none) :
    List.Forall₂ (Asked opts) apis
      (foreachParser doEncode (parsedTable apis opts) (0, buf)).1 := by
  induction apis generalizing buf with
  | nil => exact .nil
  | cons api apis ih =>
    rw [parsedTable_cons] at h ⊢
    have hnet := doEncode_of_not_sent h
    unfold foreachParser at h ⊢
    dsimp only at h ⊢
    rw [hnet] at h ⊢
    exact .cons ⟨buf, rfl, congrArg Prod.fst hnet⟩ (ih h)

/-- What an entry logs when it is asked for a packet is what its encoder logs on its own. -/
theorem errors_feedAll {api : ParserApi} (hlogs : api.LogsForItself) (opts : List ArgV)
    (ps : List Parser) (buf : Mem) :
    encodeErrors (⟨api, (OptParser.instantiate api).feedAll opts⟩ :: ps) (0, buf) =
      api.packErrors opts ++
        encodeErrors ps (doEncode api ((OptParser.instantiate api).feedAll opts) (0, buf)).2 := by
  unfold ParserApi.packErrors
  obtain ⟨obj, calls, hobj, hgood⟩ | ⟨hnone, hbad⟩ :=
    @OptParser.feedAll_instantiate api opts
  · rw [hgood, hobj]
    exact congrArg (· ++ _) (hlogs obj buf _)
  · rw [hnone]
    exact congrArg (· ++ _) (dif_neg (by simp [hbad]))

/-- When nothing is sent in the end, every encoder logs what it logs on its own. -/
theorem encodeErrors_of_not_sent {apis : List ParserApi} {opts : List ArgV} {buf : Mem}
    (hlogs : ∀ api ∈ apis, api.LogsForItself)
    (h : netPacket (foreachParser doEncode (parsedTable apis opts) (0, buf)).2 = none) :
    encodeErrors (parsedTable apis opts) (0, buf) = apis.flatMap (·.packErrors opts) := by
  induction apis generalizing buf with
  | nil => rfl
  | cons api apis ih =>
    obtain ⟨hapi, hrest⟩ := List.forall_mem_cons.mp hlogs
    rw [parsedTable_cons] at h ⊢
    have hnet := doEncode_of_not_sent h
    unfold foreachParser at h
    dsimp only at h
    rw [errors_feedAll hapi, hnet]
    rw [hnet] at h
    rw [ih hrest h, List.flatMap_cons]

section

variable {opts : List ArgV} {api : ParserApi} {p : Parser}

/-- The line of an encoder that was asked is that of the encoder alone. -/
theorem Asked.doShowError_eq (h : Asked opts api p) (hspeaks : api.SpeaksForItself) :
    doShowError p = api.errorLine opts := by
  obtain ⟨buf, rfl, -⟩ := h
  rw [Dispatch.doShowError_eq]
  unfold ParserApi.errorLine
  cases hobj : api.instantiate with
  | none =>
    have hbad := OptParser.isOK_instantiate_of_none hobj
    have hnone : (OptParser.instantiate api).obj = none := hobj
    rw [OptParser.feedAll_of_not_ok hbad, doEncode_of_not_asked (by simp [hbad]), hnone]
    rfl
  | some obj =>
    rw [OptParser.instantiate_of_some hobj, Option.bind_some]
    unfold ParserApi.final
    cases hends : ends api.accept obj opts with
    | ok obj' =>
      rw [OptParser.feedAll_of_some (ends_eq_ok_iff.mp hends), doEncode_good]
      exact hspeaks.line_eq obj' buf _
    | error c =>
      obtain ⟨hbad, hleft⟩ := OptParser.feedAll_of_error hends []
      rw [doEncode_of_not_asked (by simp [hbad]), hleft]
      rfl

/-- An encoder that was asked comes to no packet on its own. -/
theorem Asked.packAlone_eq_none (h : Asked opts api p) (hown : api.OwnObjectOnly) :
    api.packAlone opts = none := by
  obtain ⟨buf, -, hsize⟩ := h
  rw [← OptParser.packed_feedAll_instantiate opts]
  rcases ((OptParser.instantiate api).feedAll opts).eq_good_or with hbad | ⟨obj, calls, hgood⟩
  · exact OptParser.packed_of_not_ok hbad
  · rw [hgood, doEncode_good] at hsize
    rw [hgood, OptParser.packed_good, packed_of_ownObjectOnly hown obj buf]
    dsimp only at hsize ⊢
    refine if_neg fun hpacked => hpacked.2 ?_
    rwa [if_pos hpacked.1] at hsize

end

theorem exists_asked {opts : List ArgV} {apis : List ParserApi} {ps : List Parser}
    (h : List.Forall₂ (Asked opts) apis ps) {api : ParserApi} (hmem : api ∈ apis) :
    ∃ p ∈ ps, Asked opts api p := by
  induction h with
  | nil => cases hmem
  | @cons first p apis ps hfirst _ ih =>
    cases List.mem_cons.mp hmem with
    | inl heq => exact ⟨p, List.mem_cons_self, heq ▸ hfirst⟩
    | inr hmem =>
      obtain ⟨p', hp', hasked⟩ := ih hmem
      exact ⟨p', List.mem_cons_of_mem p hp', hasked⟩

section

variable {apis : List ParserApi} {entries : List ArgVEntry}

theorem asked_run (h : (run apis entries).packet = none) :
    List.Forall₂ (Asked (parsedArgs entries)) apis (run apis entries).parser := by
  obtain ⟨hparser, hpacket⟩ := run_eq apis entries
  rw [hparser]
  exact asked_of_not_sent (hpacket.symm.trans h)

/-- A run that sends nothing ends with the line of each encoder alone, in table order. -/
theorem errors_run (hspeaks : ∀ api ∈ apis, api.SpeaksForItself)
    (h : (run apis entries).packet = none) :
    (run apis entries).parser.filterMap doShowError =
      apis.filterMap (·.errorLine (parsedArgs entries)) := by
  have hasked := asked_run h
  clear h
  generalize (run apis entries).parser = ps at hasked ⊢
  induction hasked with
  | nil => rfl
  | @cons api p apis ps hfirst _ ih =>
    obtain ⟨hapi, hrest⟩ := List.forall_mem_cons.mp hspeaks
    rw [List.filterMap_cons, List.filterMap_cons, hfirst.doShowError_eq hapi, ih hrest]

/-- A run that sends nothing prints what its encoders log and say on their own. -/
theorem failureLines_eq (hspeaks : ∀ api ∈ apis, api.SpeaksForItself)
    (hlogs : ∀ api ∈ apis, api.LogsForItself) (h : (run apis entries).packet = none) :
    failureLines apis entries = linesAlone apis (parsedArgs entries) := by
  obtain ⟨hsize, hbuf⟩ := CommandData.output_parseOptions (instantiateParsers apis) entries
  have hsent := (run_eq apis entries).2.symm.trans h
  unfold failureLines linesAlone parseErrors
  dsimp only
  rw [offers_eq, parser_parseOptions_eq, hsize, hbuf]
  refine congrArg₂ (· ++ ·) (congrArg _ (encodeErrors_of_not_sent hlogs hsent)) ?_
  exact congrArg _ (errors_run hspeaks h)

/-- In a run that sends nothing, the line of an encoder is among those that are printed. -/
theorem errorLine_mem (h : (run apis entries).packet = none) {api : ParserApi}
    (hmem : api ∈ apis) (hspeaks : api.SpeaksForItself) {line : Text}
    (hline : api.errorLine (parsedArgs entries) = some line) :
    line ∈ failureLines apis entries := by
  obtain ⟨p, hp, hasked⟩ := exists_asked (asked_run h) hmem
  refine List.mem_append_right _ (List.mem_cons_of_mem _ ?_)
  exact List.mem_filterMap.mpr ⟨p, hp, (hasked.doShowError_eq hspeaks).trans hline⟩

theorem packAlone_eq_none (h : (run apis entries).packet = none) {api : ParserApi}
    (hmem : api ∈ apis) (hown : api.OwnObjectOnly) :
    api.packAlone (parsedArgs entries) = none := by
  obtain ⟨p, -, hasked⟩ := exists_asked (asked_run h) hmem
  exact hasked.packAlone_eq_none hown

end

/-! ## The encoders of the repository -/

theorem speaksForItself_passThruApi (host : PassThru.Host) :
    (passThruApi host).SpeaksForItself := by
  intro getErrorText _ (cmd : PassThru.CommandData) out out'
  dsimp only [passThruApi, PassThru.getPackedObject]
  split <;> rfl

/-- The packer of the EDS encoder has no error text of its own. -/
theorem lastErrorText_getPackedObject (host : Eds.Host) (cmd : Eds.CommandData) (out : Mem)
    (sz : Nat) : (Eds.getPackedObject host cmd out sz).cmd.lastErrorText =
      (cmd.checkValidPayload host).cmd.lastErrorText := by
  unfold Eds.getPackedObject
  dsimp only
  split
  · rfl
  · split <;> rfl

theorem speaksForItself_edsApi (host : Eds.Host) : (edsApi host).SpeaksForItself := by
  intro getErrorText htext (cmd : Eds.CommandData) out out'
  obtain rfl := Option.some.inj htext
  exact (lastErrorText_getPackedObject host cmd out _).trans
    (lastErrorText_getPackedObject host cmd out' _).symm

theorem speaksForItself_parserApis (edsHost : Eds.Host) (host : PassThru.Host) :
    ∀ api ∈ parserApis edsHost host, api.SpeaksForItself :=
  List.forall_mem_cons.mpr ⟨speaksForItself_edsApi edsHost,
    List.forall_mem_singleton.mpr (speaksForItself_passThruApi host)⟩

theorem logsForItself_passThruApi (host : PassThru.Host) : (passThruApi host).LogsForItself :=
  fun _ _ _ => rfl

/-- The EDS encoder logs the status of EdsLib, which may not depend on the old output. -/
theorem logsForItself_edsApi {host : Eds.Host}
    (h : ∀ (id : Eds.EdsId) (out out' buf : Mem) (sz : Nat),
      (host.packCompleteObjectVarSize id out buf sz).1 =
        (host.packCompleteObjectVarSize id out' buf sz).1) : (edsApi host).LogsForItself := by
  intro (cmd : Eds.CommandData) out out'
  dsimp only [edsApi, Eds.getPackedObjectErrors]
  rw [h _ out out']

end CmdSend.Dispatch
