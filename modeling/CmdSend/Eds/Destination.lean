-- SUMMARY: The grammar of an EDS destination, and when the parser of EDS_ParseDestFullImpl reads a text by it.
import CmdSend.Eds.Session

/-!
# The grammar of a destination

A destination is `[inst ':'] intf ['.' cmd]`. The parser looks for the colon in the name
that an earlier option has stored, so it reads the whole text as a name, or rejects
it (`readsDestination_iff`).
-/

namespace CmdSend.Eds

open CLib

/-! ## The grammar -/

/-- The parts of a destination. -/
structure Destination where
  inst : Option Text
  intf : Text
  cmd : Text
deriving DecidableEq, Repr

/-- `intf ['.' cmd]`. -/
def names (inst : Option Text) (text : Text) : Destination :=
  ⟨inst, text.takeWhile (· ≠ ch '.'), (text.dropWhile (· ≠ ch '.')).drop 1⟩

/-- `[inst ':'] intf ['.' cmd]`. -/
def destination (text : Text) : Destination :=
  if ch ':' ∈ text then
    names (some (text.takeWhile (· ≠ ch ':'))) ((text.dropWhile (· ≠ ch ':')).drop 1)
  else names none text

theorem destination_of_none {text : Text} (h : (destination text).inst = none) :
    destination text = names none text := by
  unfold destination at h ⊢
  split
  · rename_i hcolon
    rw [if_pos hcolon] at h
    cases h
  · rfl

/-- The strings that a destination leaves in `DestIntf` and in `CmdName`. -/
def Destination.stored (cmd : CommandData) (d : Destination) : Text × Text :=
  (d.intf.take (optargSize - 1),
    if d.cmd = [] then cmd.cmdNameText else d.cmd.take (optargSize - 1))

/-- The strings that the state holds. -/
def CommandData.namesText (cmd : CommandData) : Text × Text := (cmd.destIntfText, cmd.cmdNameText)

/-- How many bytes of the text the parser reads: what it copies to `TempString`, or the
string with its terminator. -/
def textRead (host : Host) (cmd : CommandData) (argV : ArgV) : Nat :=
  match strchr cmd.destIntfText (ch ':') with
  | some i =>
    let len := (host.destIntfDistance argV + BitVec.ofNat 64 i).toNat
    if len ≥ optargSize then optargSize - 1 else len
  | none => argV.text.length + 1

/-- The parser reads a text by the grammar. -/
structure ReadsDestination (host : Host) (cmd : CommandData) (argV : ArgV) : Prop where
  inst : ∀ inst, (destination argV.text).inst = some inst → inst.length < optargSize →
    (cmd.parseDestFullCmd host argV).cmd.params.instanceNumber = host.getInstanceNumber inst ∧
      ((cmd.parseDestFullCmd host argV).retcode = .invalid ↔ host.getInstanceNumber inst = 0)
  noInst : (destination argV.text).inst = none →
    (cmd.parseDestFullCmd host argV).cmd.params.instanceNumber = cmd.params.instanceNumber
  stored : (cmd.parseDestFullCmd host argV).retcode = .accepted →
    (cmd.parseDestFullCmd host argV).cmd.namesText = (destination argV.text).stored cmd
  terminated : (cmd.parseDestFullCmd host argV).retcode = .accepted →
    (∃ i < optargSize, (cmd.parseDestFullCmd host argV).cmd.destIntf i = 0) ∧
      ∃ i < optargSize, (cmd.parseDestFullCmd host argV).cmd.cmdName i = 0
  /-- The outcome is the one of a state whose `DestIntf` is empty. -/
  independent :
    let cleared : CommandData := { cmd with destIntf := fun _ => 0 }
    (cmd.parseDestFullCmd host argV).retcode = (cleared.parseDestFullCmd host argV).retcode ∧
      (cmd.parseDestFullCmd host argV).cmd.params =
        (cleared.parseDestFullCmd host argV).cmd.params ∧
      (cmd.parseDestFullCmd host argV).cmd.namesText =
        (cleared.parseDestFullCmd host argV).cmd.namesText
  textRead : textRead host cmd argV ≤ argV.text.length + 1

/-- No name with a colon is stored, and a text with an instance is one for which the
instance is the current one and the names come out the same when they are read from
its start. -/
def ReadAsWhole (host : Host) (cmd : CommandData) (text : Text) : Prop :=
  ch ':' ∉ cmd.destIntfText ∧ ∀ inst, (destination text).inst = some inst →
    (names none text).stored cmd = (destination text).stored cmd ∧
      (inst.length < optargSize → host.getInstanceNumber inst = cmd.params.instanceNumber ∧
        cmd.params.instanceNumber ≠ 0)

/-! ## The parser -/

section

variable (host : Host) (cmd : CommandData)

/-- The string is read from its start when the stored name has no colon. -/
theorem parseDestFullCmd_of_no_colon (argV : ArgV) (h : ch ':' ∉ cmd.destIntfText) :
    cmd.parseDestFullCmd host argV = cmd.parseDest argV.text true := by
  unfold CommandData.parseDestFullCmd CommandData.parseDestFullImpl
  rw [strchr_eq_none_iff.mpr h]

/-- Every text is rejected when the stored name has a colon. -/
theorem parseDestFullCmd_of_colon (argV : ArgV) (h : ch ':' ∈ cmd.destIntfText) :
    (cmd.parseDestFullCmd host argV).retcode = .invalid := by
  unfold CommandData.parseDestFullCmd CommandData.parseDestFullImpl
  cases hcolon : strchr cmd.destIntfText (ch ':') with
  | none => exact absurd h (strchr_eq_none_iff.mp hcolon)
  | some i => rfl

theorem parseDest_full (text : Text) :
    cmd.parseDest text true = { cmd with
      destIntf := cmd.destIntf.setText ((names none text).intf.take (optargSize - 1))
      cmdName :=
        if (names none text).cmd = [] then cmd.cmdName
        else cmd.cmdName.setText ((names none text).cmd.take (optargSize - 1)) }.answer
      .accepted := by
  unfold CommandData.parseDest names
  simp only
  split
  · rename_i hpos
    rw [if_neg (List.ne_nil_of_length_pos hpos)]
    rfl
  · rename_i hpos
    rw [if_pos (List.eq_nil_of_length_eq_zero (Nat.eq_zero_of_not_pos hpos))]

theorem zero_notMem_names (inst : Option Text) {text : Text} (h : 0 ∉ text) (n : Nat) :
    0 ∉ (names inst text).intf.take n ∧ 0 ∉ (names inst text).cmd.take n := by
  -- both parts are pieces of the text
  refine ⟨fun hmem => h ?_, fun hmem => h ?_⟩
  · exact (List.takeWhile_prefix _).subset (List.mem_of_mem_take hmem)
  · exact (List.dropWhile_suffix _).subset (List.mem_of_mem_drop (List.mem_of_mem_take hmem))

theorem length_take_lt (text : Text) : (text.take (optargSize - 1)).length < optargSize :=
  Nat.lt_of_le_of_lt (List.length_take_le _ _) (by decide)

/-- The strings that are stored, for a text that is read from its start. -/
theorem namesText_parseDest {text : Text} (h : 0 ∉ text) :
    (cmd.parseDest text true).cmd.namesText = (names none text).stored cmd := by
  obtain ⟨hintf, hcmd⟩ := zero_notMem_names none h (optargSize - 1)
  rw [parseDest_full]
  refine Prod.ext (Mem.cstr_setText _ hintf (length_take_lt _)) ?_
  simp only [CommandData.namesText, CommandData.answer, Destination.stored,
    CommandData.cmdNameText]
  split
  · rfl
  · exact Mem.cstr_setText _ hcmd (length_take_lt _)

/-! ## The terminators -/

theorem setText_terminated (m : Mem) (text : Text) :
    ∃ i < optargSize, m.setText (text.take (optargSize - 1)) i = 0 :=
  ⟨_, length_take_lt text, Function.update_self ..⟩

/-- The last byte of `CmdName` is a terminator that no call overwrites. -/
def CmdNameTerminated (cmd : CommandData) : Prop := cmd.cmdName (optargSize - 1) = 0

theorem setText_last {m : Mem} (h : m (optargSize - 1) = 0) (text : Text) :
    m.setText (text.take (optargSize - 1)) (optargSize - 1) = 0 := by
  have hlen := length_take_lt text
  unfold Mem.setText
  by_cases hlast : optargSize - 1 = (text.take (optargSize - 1)).length
  · rw [← hlast, Function.update_self]
  · rw [Function.update_of_ne hlast, Mem.copy_outside (Or.inr (by omega))]
    exact h

theorem terminated_parseDest (h : CmdNameTerminated cmd) (text : Text) :
    (∃ i < optargSize, (cmd.parseDest text true).cmd.destIntf i = 0) ∧
      ∃ i < optargSize, (cmd.parseDest text true).cmd.cmdName i = 0 := by
  rw [parseDest_full]
  refine ⟨setText_terminated _ _, ?_⟩
  simp only [CommandData.answer]
  split
  · exact ⟨optargSize - 1, by decide, h⟩
  · exact setText_terminated _ _

/-! ## What the lookups leave of the command name -/

theorem cmdName_checkValidPayload : (cmd.checkValidPayload host).cmd.cmdName = cmd.cmdName := by
  have hintf := frame_checkValidIntf host cmd
  have hdetail := hintf.trans (frame_lookupPayloadDetail host (cmd.checkValidIntf host).cmd)
  unfold CommandData.checkValidPayload
  simp only
  split
  · split
    · exact hintf.cmdName
    · split
      · exact hdetail.cmdName
      · split
        · exact hdetail.cmdName
        · exact hdetail.cmdName
  · rfl

theorem cmdName_parseParameter (text : Text) :
    (cmd.parseParameter host text).cmd.cmdName = cmd.cmdName := by
  rw [cmd_parseParameter]
  refine Eq.trans ?_ (cmdName_checkValidPayload host cmd)
  split
  · unfold CommandData.processParameterArgument
    split
    · rfl
    · simp only
      split
      · rfl
      · split <;> rfl
  · rfl

/-! ## The command name of a session -/

theorem cmdNameTerminated_parseDestFullImpl (h : CmdNameTerminated cmd) (argV : ArgV)
    (allowInst allowCmd : Bool) :
    CmdNameTerminated (cmd.parseDestFullImpl host argV allowInst allowCmd).cmd := by
  obtain ⟨params, hcases⟩ := parseDestFullImpl_cases host cmd argV allowInst allowCmd
  cases hcases with
  | inl hrej =>
    rw [hrej]
    exact h
  | inr hdest =>
    obtain ⟨sep1, hdest⟩ := hdest
    rw [hdest]
    unfold CommandData.parseDest
    simp only
    split
    · split
      · exact setText_last h _
      · exact h
    · exact h

/-- `strncpy` fills all bytes but the last one. -/
theorem cmdNameTerminated_parseDestCmdOnly (h : CmdNameTerminated cmd) (text : Text) :
    CmdNameTerminated (cmd.parseDestCmdOnly text).cmd := by
  have hlen := length_take_lt text
  unfold CmdNameTerminated CommandData.parseDestCmdOnly
  simp only [CommandData.answer]
  rw [Mem.copy_outside]
  · exact h
  · rw [List.length_append, List.length_replicate]
    omega

theorem cmdNameTerminated_parseOption (h : CmdNameTerminated cmd) (a : ArgV) :
    CmdNameTerminated (parseOption host cmd a).cmd := by
  obtain ⟨id, text⟩ := a
  cases id with
  | none =>
    unfold CmdNameTerminated
    exact (congrFun (cmdName_parseParameter host cmd text) _).trans h
  | pktedsver | pktid | pktapid => exact cmdNameTerminated_parseDestFullImpl host cmd h _ _ _
  | cmdcode | pktfc => exact cmdNameTerminated_parseDestCmdOnly cmd h text
  | endian =>
    simp only [parseOption, CommandData.parseEndian]
    split <;> exact h
  | _ => exact h

theorem cmdNameTerminated_call (h : CmdNameTerminated cmd) (call : Call) :
    CmdNameTerminated (call.cmd host cmd) := by
  cases call with
  | parseOption a => exact cmdNameTerminated_parseOption host cmd h a
  | helpUsage =>
    have hname : (Call.helpUsage.cmd host cmd).cmdName = cmd.cmdName :=
      (cmdName_checkValidPayload host _).trans (frame_checkValidIntf host cmd).cmdName
    rw [CmdNameTerminated, hname]
    exact h
  | getPackedObject out sz =>
    have hname : ((Call.getPackedObject out sz).cmd host cmd).cmdName = cmd.cmdName := by
      rw [Call.cmd, (getPackedObject_spec host cmd out sz).1]
      exact cmdName_checkValidPayload host cmd
    rw [CmdNameTerminated, hname]
    exact h

/-! ## When the grammar is kept -/

/-- What the parser does without a stored colon. -/
theorem parseDestFullCmd_spec {argV : ArgV} (htext : 0 ∉ argV.text)
    (h : ch ':' ∉ cmd.destIntfText) :
    (cmd.parseDestFullCmd host argV).retcode = .accepted ∧
      (cmd.parseDestFullCmd host argV).cmd.params = cmd.params ∧
      (cmd.parseDestFullCmd host argV).cmd.namesText = (names none argV.text).stored cmd := by
  rw [parseDestFullCmd_of_no_colon host cmd argV h]
  refine ⟨?_, ?_, namesText_parseDest cmd htext⟩
  · rw [parseDest_full]
    rfl
  · rw [parseDest_full]
    rfl

/-- An empty name has no colon. -/
theorem parseDestFullCmd_cleared {argV : ArgV} (htext : 0 ∉ argV.text) :
    let cleared : CommandData := { cmd with destIntf := fun _ => 0 }
    (cleared.parseDestFullCmd host argV).retcode = .accepted ∧
      (cleared.parseDestFullCmd host argV).cmd.params = cmd.params ∧
      (cleared.parseDestFullCmd host argV).cmd.namesText = (names none argV.text).stored cmd :=
  parseDestFullCmd_spec host { cmd with destIntf := fun _ => 0 } htext (by exact List.not_mem_nil)

theorem readAsWhole_of_reads {argV : ArgV} (htext : 0 ∉ argV.text)
    (h : ReadsDestination host cmd argV) : ReadAsWhole host cmd argV.text := by
  -- a stored colon makes the option fail, which an empty name does not
  have hcolon : ch ':' ∉ cmd.destIntfText := by
    intro hmem
    have hret := h.independent.1
    rw [parseDestFullCmd_of_colon host cmd argV hmem,
      (parseDestFullCmd_cleared host cmd htext).1] at hret
    cases hret
  obtain ⟨haccepted, hparams, hnames⟩ := parseDestFullCmd_spec host cmd htext hcolon
  refine ⟨hcolon, fun inst hsome => ⟨hnames.symm.trans (h.stored haccepted), fun hlt => ?_⟩⟩
  obtain ⟨hnumber, hinvalid⟩ := h.inst inst hsome hlt
  rw [hparams] at hnumber
  refine ⟨hnumber.symm, fun hzero => ?_⟩
  rw [haccepted, ← hnumber] at hinvalid
  cases hinvalid.mpr hzero

theorem reads_of_readAsWhole {argV : ArgV} (htext : 0 ∉ argV.text) (hterm : CmdNameTerminated cmd)
    (h : ReadAsWhole host cmd argV.text) : ReadsDestination host cmd argV := by
  obtain ⟨hcolon, hinst⟩ := h
  obtain ⟨haccepted, hparams, hnames⟩ := parseDestFullCmd_spec host cmd htext hcolon
  constructor
  case inst =>
    intro inst hsome hlt
    obtain ⟨hnumber, hzero⟩ := (hinst inst hsome).2 hlt
    rw [haccepted, hparams, hnumber]
    exact ⟨rfl, iff_of_false OptParse.noConfusion hzero⟩
  case noInst =>
    intro _
    rw [hparams]
  case stored =>
    intro _
    rw [hnames]
    cases hsome : (destination argV.text).inst with
    | none => rw [destination_of_none hsome]
    | some inst => exact (hinst inst hsome).1
  case terminated =>
    intro _
    rw [parseDestFullCmd_of_no_colon host cmd argV hcolon]
    exact terminated_parseDest cmd hterm argV.text
  case independent =>
    intro cleared
    obtain ⟨haccepted', hparams', hnames'⟩ := parseDestFullCmd_cleared host cmd htext
    exact ⟨haccepted.trans haccepted'.symm, hparams.trans hparams'.symm,
      hnames.trans hnames'.symm⟩
  case textRead =>
    unfold textRead
    rw [strchr_eq_none_iff.mpr hcolon]

end

/-- In every session, a text is read by the grammar exactly when that comes to reading it
from its start, with no colon in the stored name. A C string has no zero byte. -/
theorem readsDestination_iff {host : Host} {obj : CommandData} (hobj : instantiate host = some obj)
    (calls : List Call) {argV : ArgV} (htext : 0 ∉ argV.text) :
    ReadsDestination host (session host obj calls) argV ↔
      ReadAsWhole host (session host obj calls) argV.text := by
  have hfresh : CmdNameTerminated obj := by
    unfold instantiate at hobj
    split at hobj
    · cases hobj
    · obtain rfl := Option.some.inj hobj
      rfl
  have hterm : CmdNameTerminated (session host obj calls) :=
    foldl_invariant (fun cmd call h => cmdNameTerminated_call host cmd h call) calls hfresh
  exact ⟨readAsWhole_of_reads host _ htext, reads_of_readAsWhole host _ htext hterm⟩

/-- An instance is taken for a part of the name of the interface. -/
theorem readsDestination_fails_on_instance :
    ∃ obj, instantiate Host.sample = some obj ∧
      ¬ReadsDestination Host.sample (session Host.sample obj [])
        ⟨.pktid, str "CPU1:ES.NOOP"⟩ := by
  refine ⟨_, rfl, fun h => ?_⟩
  have hstored := h.stored (by decide)
  revert hstored
  decide

/-- A destination without an instance, after an option for another one. -/
theorem readsDestination_iff_name :
    ∃ obj, instantiate Host.sample = some obj ∧
      ReadsDestination Host.sample (session Host.sample obj [.parseOption ⟨.pktid, str "TO"⟩])
        ⟨.pktid, str "ES.NOOP"⟩ := by
  refine ⟨_, rfl, (readsDestination_iff rfl _ (by decide)).mpr ⟨by decide, fun inst hinst => ?_⟩⟩
  have hnone : (destination (str "ES.NOOP")).inst = none := by decide
  rw [hnone] at hinst
  cases hinst

end CmdSend.Eds
