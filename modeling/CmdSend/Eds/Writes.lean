-- SUMMARY: What a run of the EDS encoder packs: the object of the command, with the writes of the options since its lookup.
import CmdSend.Eds.Session
import CmdSend.PayloadErrors
import CmdSend.Verdicts

/-!
# The object that is packed

The command is looked up at the first positional argument, or by the packer when there is
none. From then on an option writes into the native buffer or does nothing: a destination, a
command, a protocol or an endian option that comes later is accepted or refused as before,
but what is packed does not depend on it.
-/

namespace CmdSend.Eds

open CLib

/-! ## Writes -/

/-- What a positional argument writes. -/
def writeParameter (host : Host) (info : EntityInfo) (buf : Mem) (text : Text) : Mem :=
  match strchr text (ch '=') with
  | none => buf
  | some i =>
    let located := host.locateSubEntity info.edsId (text.take i) ⟨0, 0⟩
    if located.1 = host.edsSuccess then
      (host.scalarFromString located.2.edsId (info.offset + located.2.offset) buf
        (text.drop (i + 1))).2
    else buf

/-- What an option writes once the command is known, for its payload. -/
def write (host : Host) (info : EntityInfo) (buf : Mem) (a : ArgV) : Mem :=
  match headerOption a.optionId with
  | some (type, member) =>
    (host.scalarFromString (host.headerType type) (host.headerOffset member) buf a.text).2
  | none => if a.optionId = .none then writeParameter host info buf a.text else buf

/-- The options that write. -/
def Writes (a : ArgV) : Prop := (headerOption a.optionId).isSome = true ∨ a.optionId = .none

instance (a : ArgV) : Decidable (Writes a) := inferInstanceAs (Decidable (_ ∨ _))

theorem write_of_not_writes {a : ArgV} (h : ¬Writes a) (host : Host) (info : EntityInfo)
    (buf : Mem) : write host info buf a = buf := by
  obtain ⟨hheader, hid⟩ := not_or.mp h
  unfold write
  rw [Option.not_isSome_iff_eq_none.mp hheader]
  exact if_neg hid

/-- Only the options that write matter. -/
theorem foldl_write_filter (host : Host) (info : EntityInfo) (opts : List ArgV) (buf : Mem) :
    (opts.filter (Writes ·)).foldl (write host info) buf = opts.foldl (write host info) buf := by
  induction opts generalizing buf with
  | nil => rfl
  | cons a opts ih =>
    by_cases h : Writes a
    · rw [List.filter_cons_of_pos (by simpa using h), List.foldl_cons, List.foldl_cons, ih]
    · rw [List.filter_cons_of_neg (by simpa using h), List.foldl_cons,
        write_of_not_writes h, ih]

/-! ## One option -/

section

variable (host : Host) (cmd : CommandData)

theorem buf_parseDest (sep1 : Text) (allowCmd : Bool) :
    (cmd.parseDest sep1 allowCmd).cmd.buf = cmd.buf := by
  unfold CommandData.parseDest
  dsimp only
  split
  · split <;> rfl
  · rfl

theorem buf_parseDestFullImpl (argV : ArgV) (allowInst allowCmd : Bool) :
    (cmd.parseDestFullImpl host argV allowInst allowCmd).cmd.buf = cmd.buf := by
  obtain ⟨params, hcases⟩ := parseDestFullImpl_cases host cmd argV allowInst allowCmd
  cases hcases with
  | inl hrej =>
    rw [hrej]
    rfl
  | inr hdest =>
    obtain ⟨sep1, hdest⟩ := hdest
    rw [hdest]
    exact buf_parseDest _ sep1 allowCmd

theorem buf_processParameterArgument_eq (optarg : Text) :
    (cmd.processParameterArgument host optarg).1.buf =
      writeParameter host cmd.edsPayloadInfo cmd.buf optarg := by
  unfold CommandData.processParameterArgument writeParameter
  cases strchr optarg (ch '=') with
  | none => rfl
  | some i =>
    dsimp only
    by_cases hlocated :
        (host.locateSubEntity cmd.edsPayloadInfo.edsId (optarg.take i) ⟨0, 0⟩).1 = host.edsSuccess
    · rw [if_neg (not_not.mpr hlocated), if_pos hlocated]
      split <;> rfl
    · rw [if_pos hlocated, if_neg hlocated]
      rfl

/-- An option before the lookup writes what it writes after it. -/
theorem buf_parseOption {a : ArgV} (h : a.optionId ≠ .none) :
    (parseOption host cmd a).cmd.buf = write host cmd.edsPayloadInfo cmd.buf a := by
  obtain ⟨id, text⟩ := a
  cases id with
  | none => exact absurd rfl h
  | endian =>
    simp only [parseOption, CommandData.parseEndian]
    split <;> rfl
  | pktedsver | pktid | pktapid => exact buf_parseDestFullImpl host cmd _ _ _
  | _ => rfl

theorem cmd_parseParameter_of_success (h : cmd.payloadState = .success) (text : Text) :
    (cmd.parseParameter host text).cmd = (cmd.processParameterArgument host text).1 := by
  have hknown : cmd.payloadState ≠ .unknown := h ▸ LookupState.noConfusion
  rw [cmd_parseParameter, checkValidPayload_of_known host cmd hknown]
  exact if_pos (decide_eq_true h)

end

/-! ## The object -/

/-- The state is at the object of a lookup, with the writes so far in its buffer. -/
structure AtObject (base : CommandData) (buf : Mem) (cmd : CommandData) : Prop where
  payloadState : cmd.payloadState = base.payloadState
  actualArg : cmd.actualArg = base.actualArg
  edsPayloadInfo : cmd.edsPayloadInfo = base.edsPayloadInfo
  buf : base.payloadState = .success → cmd.buf = buf

section

variable {host : Host} {base cmd : CommandData} {buf : Mem}

/-- An option writes, and leaves the object alone. -/
theorem AtObject.parseOption (hknown : base.payloadState ≠ .unknown) (h : AtObject base buf cmd)
    (a : ArgV) :
    AtObject base (write host base.edsPayloadInfo buf a) (parseOption host cmd a).cmd := by
  by_cases hid : a.optionId = .none
  · obtain ⟨id, text⟩ := a
    obtain rfl : id = .none := hid
    have hcheck := checkValidPayload_of_known host cmd (h.payloadState ▸ hknown)
    have hsame := sameLookups_parseParameter host cmd text
    rw [hcheck] at hsame
    refine ⟨hsame.payloadState.trans h.payloadState, hsame.actualArg.trans h.actualArg,
      hsame.edsPayloadInfo.trans h.edsPayloadInfo, fun hsuccess => ?_⟩
    change (cmd.parseParameter host text).cmd.buf = writeParameter host base.edsPayloadInfo buf text
    rw [cmd_parseParameter_of_success host cmd (h.payloadState.trans hsuccess),
      buf_processParameterArgument_eq, h.edsPayloadInfo, h.buf hsuccess]
  · obtain ⟨hsame, -⟩ := noLookup_parseOption host cmd hid
    refine ⟨hsame.payloadState.trans h.payloadState, hsame.actualArg.trans h.actualArg,
      hsame.edsPayloadInfo.trans h.edsPayloadInfo, fun hsuccess => ?_⟩
    rw [buf_parseOption host cmd hid, h.edsPayloadInfo, h.buf hsuccess]

theorem AtObject.run (hknown : base.payloadState ≠ .unknown) (h : AtObject base buf cmd)
    (opts : List ArgV) :
    AtObject base (opts.foldl (write host base.edsPayloadInfo) buf) (run host cmd opts) := by
  induction opts generalizing cmd buf with
  | nil => exact h
  | cons a opts ih => exact ih (h.parseOption hknown a)

/-- What the packer returns and leaves in the output, the state of the encoder apart. -/
def Packed.result (r : Packed) : Bool × Mem × Nat := (r.ok, r.out, r.size)

/-- What EdsLib packs of an object. -/
def packObject (host : Host) (arg : EdsId) (buf out : Mem) (sz : Nat) : Bool × Mem × Nat :=
  let packed := host.packCompleteObjectVarSize arg out buf sz
  if packed.1 = host.edsSuccess then (true, packed.2.2) else (false, packed.2.2.1, sz)

/-- What the packer does at an object. -/
theorem result_of_atObject (hknown : base.payloadState ≠ .unknown) (h : AtObject base buf cmd)
    (out : Mem) (sz : Nat) :
    (getPackedObject host cmd out sz).result =
      if base.payloadState = .success then packObject host base.actualArg buf out sz
      else (false, out, sz) := by
  have hcheck := checkValidPayload_of_known host cmd (h.payloadState ▸ hknown)
  unfold getPackedObject Packed.result packObject
  rw [hcheck]
  dsimp only
  by_cases hsuccess : base.payloadState = .success
  · rw [h.payloadState, hsuccess, h.actualArg, h.buf hsuccess]
    generalize host.packCompleteObjectVarSize _ _ _ _ = packed
    by_cases hpacked : packed.1 = host.edsSuccess
    · simp [hpacked]
    · simp [hpacked]
  · rw [h.payloadState, if_neg hsuccess]
    simp [hsuccess]

end

/-! ## Runs -/

/-- The options before the first positional argument. -/
def early (opts : List ArgV) : List ArgV := opts.takeWhile (·.optionId ≠ .none)

/-- The options from the first positional argument on. -/
def late (opts : List ArgV) : List ArgV := opts.dropWhile (·.optionId ≠ .none)

theorem ne_none_of_mem_early {opts : List ArgV} {a : ArgV} (h : a ∈ early opts) :
    a.optionId ≠ .none := by
  have hholds := List.all_eq_true.mp List.all_takeWhile a h
  exact of_decide_eq_true hholds

/-- The state that the check of the payload leaves, at the first positional argument or at
the packer. -/
def lookedUp (host : Host) (cmd : CommandData) (opts : List ArgV) : CommandData :=
  ((run host cmd (early opts)).checkValidPayload host).cmd

/-- After the check the state knows the payload, and a second check finds nothing to do. -/
theorem lookedUp_spec (host : Host) (cmd : CommandData) :
    (cmd.checkValidPayload host).cmd.payloadState ≠ .unknown ∧
      (cmd.checkValidPayload host).cmd.checkValidPayload host =
        ⟨(cmd.checkValidPayload host).ok, (cmd.checkValidPayload host).cmd, []⟩ := by
  have hknown := (checkValidPayload_spec host cmd).1
  refine ⟨hknown, ?_⟩
  rw [checkValidPayload_of_known host _ hknown]
  have hok : (cmd.checkValidPayload host).ok =
      decide ((cmd.checkValidPayload host).cmd.payloadState = .success) :=
    Bool.eq_iff_iff.mpr ((ok_checkValidPayload host cmd).trans decide_eq_true_iff.symm)
  rw [hok]

/-- The check comes before everything that a positional argument does. -/
theorem parseOption_lookedUp (host : Host) (cmd : CommandData) {a : ArgV}
    (h : a.optionId = .none) :
    (parseOption host cmd a).cmd = (parseOption host (cmd.checkValidPayload host).cmd a).cmd := by
  obtain ⟨id, text⟩ := a
  obtain rfl : id = .none := h
  change (cmd.parseParameter host text).cmd =
    ((cmd.checkValidPayload host).cmd.parseParameter host text).cmd
  rw [cmd_parseParameter, cmd_parseParameter, (lookedUp_spec host cmd).2]

/-- The check comes before everything that the packer does. -/
theorem result_lookedUp (host : Host) (cmd : CommandData) (out : Mem) (sz : Nat) :
    (getPackedObject host cmd out sz).result =
      (getPackedObject host (cmd.checkValidPayload host).cmd out sz).result := by
  unfold getPackedObject Packed.result
  rw [(lookedUp_spec host cmd).2]
  dsimp only
  split
  · rfl
  · split <;> rfl

theorem head?_late (opts : List ArgV) : ∀ a, (late opts).head? = some a → a.optionId = .none := by
  intro a ha
  have hnot := List.head?_dropWhile_not (fun a : ArgV => decide (a.optionId ≠ .none)) opts
  rw [late] at ha
  rw [ha] at hnot
  simpa using hnot

/-- The options from the first positional argument on meet what it has looked up. -/
theorem run_cases (host : Host) (cmd : CommandData) (opts : List ArgV) :
    (late opts = [] ∧ run host cmd opts = run host cmd (early opts)) ∨
      run host cmd opts = run host (lookedUp host cmd opts) (late opts) := by
  have hsplit : run host cmd opts = run host (run host cmd (early opts)) (late opts) := by
    unfold run
    rw [← List.foldl_append, early, late, List.takeWhile_append_dropWhile]
  have hhead := head?_late opts
  rw [hsplit]
  cases hlate : late opts with
  | nil => exact Or.inl ⟨rfl, rfl⟩
  | cons a rest =>
    rw [hlate] at hhead
    have hfirst := parseOption_lookedUp host (run host cmd (early opts)) (hhead a rfl)
    refine Or.inr ?_
    unfold lookedUp run at hfirst ⊢
    rw [List.foldl_cons, List.foldl_cons, hfirst]

/-- What a run packs is the object that was looked up, with the writes of the options from
the first positional argument on, in their order. -/
theorem result_run (host : Host) (cmd : CommandData) (opts : List ArgV) (out : Mem) (sz : Nat) :
    (getPackedObject host (run host cmd opts) out sz).result =
      let base := lookedUp host cmd opts
      if base.payloadState = .success then
        packObject host base.actualArg
          ((late opts).foldl (write host base.edsPayloadInfo) base.buf) out sz
      else (false, out, sz) := by
  have hknown := (lookedUp_spec host (run host cmd (early opts))).1
  have hat : AtObject (lookedUp host cmd opts) (lookedUp host cmd opts).buf
      (lookedUp host cmd opts) := ⟨rfl, rfl, rfl, fun _ => rfl⟩
  cases run_cases host cmd opts with
  | inl hearly =>
    rw [hearly.1, hearly.2, result_lookedUp]
    exact result_of_atObject hknown hat out sz
  | inr hlate =>
    rw [hlate]
    exact result_of_atObject hknown (hat.run hknown (late opts)) out sz

/-- What runs from a state pack. -/
structure PacksObject (host : Host) (cmd : CommandData) : Prop where
  /-- It is the object that was looked up, with the writes since then. -/
  object : ∀ opts out sz, (getPackedObject host (run host cmd opts) out sz).result =
    let base := lookedUp host cmd opts
    if base.payloadState = .success then
      packObject host base.actualArg
        ((late opts).foldl (write host base.edsPayloadInfo) base.buf) out sz
    else (false, out, sz)
  /-- After the first positional argument, only the options that write matter. -/
  ignored : ∀ opts opts', early opts = early opts' →
    (late opts).filter (Writes ·) = (late opts').filter (Writes ·) → ∀ out sz,
    (getPackedObject host (run host cmd opts) out sz).result =
      (getPackedObject host (run host cmd opts') out sz).result

theorem packsObject (host : Host) (cmd : CommandData) : PacksObject host cmd where
  object := result_run host cmd
  ignored opts opts' hearly hlate out sz := by
    have hbase : lookedUp host cmd opts = lookedUp host cmd opts' := by
      rw [lookedUp, lookedUp, hearly]
    rw [result_run, result_run, hbase]
    dsimp only
    rw [← foldl_write_filter, hlate, foldl_write_filter]

/-- A destination behind the first parameter is taken, and leaves the packet as it is. -/
example :
    let host := Host.sample
    let param : ArgV := ⟨.none, str "x"⟩
    (instantiate host).all fun obj =>
      (parseOption host (run host obj [param]) ⟨.pktid, str "other"⟩).retcode = .accepted ∧
        (getPackedObject host (run host obj [param, ⟨.pktid, str "other"⟩]) (fun _ => 0)
          2048).size = 8 := by decide

end CmdSend.Eds
