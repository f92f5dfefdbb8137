-- SUMMARY: The three arrays of the EDS encoder in any session: they stay terminated, and nothing behind them is written.
import CmdSend.Eds.Component
import CmdSend.Eds.Destination

/-!
# The arrays

`DestIntf` and `CmdName` have 64 bytes, and `LastErrorText` has 160. A destination is copied
with its terminator, a command with `strncpy`, and the implicit component is inserted in
place. No sequence of calls writes behind the arrays or takes the last terminator away.
-/

namespace CmdSend.Eds

open CLib

/-! ## One store -/

/-- A text that is copied with its terminator keeps the terminator at the end of the array. -/
theorem copy_last {m : Mem} {off size : Nat} (h : m size = 0) {text : Text}
    (hfit : off + text.length ≤ size) : m.copy off (text ++ [0]) size = 0 := by
  by_cases hlast : off + text.length = size
  · subst hlast
    rw [Mem.copy_inside (by simp)]
    simp
  · refine (Mem.copy_outside (Or.inr ?_)).trans h
    simp only [List.length_append, List.length_singleton]
    omega

theorem insertComponent_last {destIntf : Mem} (h : destIntf (optargSize - 1) = 0) :
    Store.applyAll destIntf (insertion destIntf) (optargSize - 1) = 0 := by
  by_cases hroom : ch '/' ∈ destIntf.cstr optargSize ∧
      (destIntf.cstr optargSize).length + 12 < optargSize
  · obtain ⟨before, after, hsplit, hlast⟩ := exists_split_last hroom.1
    have hlen := congrArg List.length hsplit
    have hcomponent : (str "/Application").length = 12 := by decide
    rw [applyAll_insertion hsplit hlast hroom.2, ← List.append_assoc]
    refine copy_last h ?_
    simp only [List.length_append, List.length_cons, hcomponent] at hlen ⊢
    omega
  · rw [insertion_of_not hroom]
    exact h

/-! ## Frames -/

/-- What the calls between two states leave of the arrays. -/
structure ArraysKept (cmd cmd' : CommandData) : Prop where
  beyondIntf : ∀ i, optargSize ≤ i → cmd'.destIntf i = cmd.destIntf i
  beyondName : ∀ i, optargSize ≤ i → cmd'.cmdName i = cmd.cmdName i
  intfTerminated : cmd.destIntf (optargSize - 1) = 0 → cmd'.destIntf (optargSize - 1) = 0
  nameTerminated : cmd.cmdName (optargSize - 1) = 0 → cmd'.cmdName (optargSize - 1) = 0
  errorFits : cmd.lastErrorText.length < errorTextSize →
    cmd'.lastErrorText.length < errorTextSize

namespace ArraysKept

variable {cmd cmd₁ cmd₂ : CommandData}

theorem refl (cmd : CommandData) : ArraysKept cmd cmd :=
  ⟨fun _ _ => rfl, fun _ _ => rfl, id, id, id⟩

theorem trans (h₁ : ArraysKept cmd cmd₁) (h₂ : ArraysKept cmd₁ cmd₂) : ArraysKept cmd cmd₂ where
  beyondIntf i hi := (h₂.beyondIntf i hi).trans (h₁.beyondIntf i hi)
  beyondName i hi := (h₂.beyondName i hi).trans (h₁.beyondName i hi)
  intfTerminated h := h₂.intfTerminated (h₁.intfTerminated h)
  nameTerminated h := h₂.nameTerminated (h₁.nameTerminated h)
  errorFits h := h₂.errorFits (h₁.errorFits h)

/-- The arrays are those of the state before. -/
theorem of_eq (hintf : cmd₁.destIntf = cmd.destIntf) (hname : cmd₁.cmdName = cmd.cmdName)
    (herror : cmd₁.lastErrorText = cmd.lastErrorText) : ArraysKept cmd cmd₁ :=
  ⟨fun _ _ => congrFun hintf _, fun _ _ => congrFun hname _, (congrFun hintf _).trans,
    (congrFun hname _).trans, fun h => herror ▸ h⟩

theorem after (h : ArraysKept cmd₁ cmd₂) (hintf : cmd₁.destIntf = cmd.destIntf)
    (hname : cmd₁.cmdName = cmd.cmdName) (herror : cmd₁.lastErrorText = cmd.lastErrorText) :
    ArraysKept cmd cmd₂ :=
  (of_eq hintf hname herror).trans h

/-- A new error text is cut to its array. -/
theorem of_error (hintf : cmd₁.destIntf = cmd.destIntf) (hname : cmd₁.cmdName = cmd.cmdName)
    {error : Text} (herror : cmd₁.lastErrorText = snprintf errorTextSize error) :
    ArraysKept cmd cmd₁ := by
  have hfits : cmd₁.lastErrorText.length < errorTextSize :=
    herror ▸ Nat.lt_of_le_of_lt (List.length_take_le ..) (by decide)
  exact ⟨fun _ _ => congrFun hintf _, fun _ _ => congrFun hname _, (congrFun hintf _).trans,
    (congrFun hname _).trans, fun _ => hfits⟩

theorem setError (cmd : CommandData) (error : Text) : ArraysKept cmd (cmd.setError error) :=
  of_error rfl rfl rfl

theorem setIntf {destIntf : Mem}
    (hbeyond : ∀ i, optargSize ≤ i → destIntf i = cmd.destIntf i)
    (hlast : cmd.destIntf (optargSize - 1) = 0 → destIntf (optargSize - 1) = 0) :
    ArraysKept cmd { cmd with destIntf := destIntf } :=
  ⟨hbeyond, fun _ _ => rfl, hlast, id, id⟩

theorem setName {cmdName : Mem} (hbeyond : ∀ i, optargSize ≤ i → cmdName i = cmd.cmdName i)
    (hlast : cmd.cmdName (optargSize - 1) = 0 → cmdName (optargSize - 1) = 0) :
    ArraysKept cmd { cmd with cmdName := cmdName } :=
  ⟨fun _ _ => rfl, hbeyond, id, hlast, id⟩

end ArraysKept

/-! ## The lookups -/

section

variable (host : Host) (cmd : CommandData)

theorem arraysKept_rejectIntf : ArraysKept cmd cmd.rejectIntf := by
  unfold CommandData.rejectIntf
  split
  · exact .setError cmd _
  · exact .refl cmd

theorem arraysKept_findInterface : ArraysKept cmd (cmd.findInterface host).2 := by
  have hbeyond : ∀ i, optargSize ≤ i →
      Store.applyAll cmd.destIntf (insertion cmd.destIntf) i = cmd.destIntf i :=
    fun i hi => Store.applyAll_beyond (insertion_within _) hi
  have hinsert := getD_insertComponent cmd.destIntf
  unfold CommandData.findInterface
  dsimp only
  split
  · cases hcomponent : CommandData.insertComponent cmd.destIntf with
    | none => exact .of_eq rfl rfl rfl
    | some destIntf =>
      rw [hcomponent, Option.getD_some] at hinsert
      subst hinsert
      exact (ArraysKept.setIntf hbeyond insertComponent_last).trans (.of_eq rfl rfl rfl)
  · exact .of_eq rfl rfl rfl

theorem arraysKept_findTopic (rc : Int) : ArraysKept cmd (cmd.findTopic host rc).2 := by
  unfold CommandData.findTopic
  split
  · exact .of_eq rfl rfl rfl
  · exact .refl cmd

theorem arraysKept_findArgument : ArraysKept cmd (cmd.findArgument host).2 := by
  unfold CommandData.findArgument
  dsimp only
  split
  · exact .of_error rfl rfl rfl
  · exact .of_eq rfl rfl rfl

theorem arraysKept_processNumericDest (midVal : BitVec 64) :
    ArraysKept cmd (cmd.processNumericDest host midVal).2 := by
  unfold CommandData.processNumericDest
  dsimp only
  split
  · exact .after (arraysKept_rejectIntf _) rfl rfl rfl
  · exact .after (arraysKept_findArgument host _) rfl rfl rfl

theorem arraysKept_processNamedDest : ArraysKept cmd (cmd.processNamedDest host).2 := by
  have htopic := (arraysKept_findInterface host cmd).trans
    (arraysKept_findTopic host (cmd.findInterface host).2 (cmd.findInterface host).1)
  unfold CommandData.processNamedDest
  dsimp only
  split
  · exact htopic.trans (arraysKept_rejectIntf _)
  split
  · exact htopic.trans (.setError _ _)
  · exact htopic.trans (.after (arraysKept_findArgument host _) rfl rfl rfl)

theorem arraysKept_processDestIntf : ArraysKept cmd (cmd.processDestIntf host).2 := by
  unfold CommandData.processDestIntf
  dsimp only
  split
  · exact arraysKept_processNumericDest host cmd _
  · exact arraysKept_processNamedDest host cmd

theorem arraysKept_processCmdCode : ArraysKept cmd (cmd.processCmdCode host).2 := by
  unfold CommandData.processCmdCode
  dsimp only
  split
  · split
    · split <;> exact .of_error rfl rfl rfl
    · exact .of_eq rfl rfl rfl
  · split
    · exact .setError cmd _
    · exact .refl cmd

theorem arraysKept_lookupPayloadDetail : ArraysKept cmd (cmd.lookupPayloadDetail host).2 := by
  unfold CommandData.lookupPayloadDetail
  split
  · exact .setError cmd _
  · split
    · exact .of_eq rfl rfl rfl
    · exact .refl cmd

theorem arraysKept_checkValidIntf : ArraysKept cmd (cmd.checkValidIntf host).cmd := by
  have hdest := arraysKept_processDestIntf host cmd
  have hcode := hdest.trans (arraysKept_processCmdCode host (cmd.processDestIntf host).2)
  unfold CommandData.checkValidIntf
  dsimp only
  split
  · split
    · exact hdest.trans (.of_eq rfl rfl rfl)
    · split <;> exact hcode.trans (.of_eq rfl rfl rfl)
  · exact .refl cmd

theorem arraysKept_checkValidPayload : ArraysKept cmd (cmd.checkValidPayload host).cmd := by
  have hintf := arraysKept_checkValidIntf host cmd
  have hdetail :=
    hintf.trans (arraysKept_lookupPayloadDetail host (cmd.checkValidIntf host).cmd)
  unfold CommandData.checkValidPayload
  dsimp only
  split
  · split
    · exact hintf.trans (.of_eq rfl rfl rfl)
    split
    · exact hdetail.trans (.of_eq rfl rfl rfl)
    split
    · exact hdetail.trans (.of_error rfl rfl rfl)
    · exact hdetail.trans (.of_eq rfl rfl rfl)
  · exact .refl cmd

/-! ## The options -/

theorem arraysKept_processParameterArgument (optarg : Text) :
    ArraysKept cmd (cmd.processParameterArgument host optarg).1 := by
  have hreject : ∀ (cmd : CommandData) (error : Text), ArraysKept cmd (cmd.rejectParameter error) :=
    fun cmd error => .of_error rfl rfl rfl
  unfold CommandData.processParameterArgument
  split
  · exact hreject cmd _
  dsimp only
  split
  · exact hreject cmd _
  split
  · exact .after (hreject _ _) rfl rfl rfl
  · exact .of_eq rfl rfl rfl

theorem arraysKept_parseDest (sep1 : Text) (allowCmd : Bool) :
    ArraysKept cmd (cmd.parseDest sep1 allowCmd).cmd := by
  have hbeyond : ∀ (m : Mem) (text : Text) (i : Nat), optargSize ≤ i →
      m.setText (text.take (optargSize - 1)) i = m i := by
    intro m text i hi
    have hlen := length_take_lt text
    rw [Mem.setText_eq_copy]
    refine Mem.copy_outside (Or.inr ?_)
    simp only [List.length_append, List.length_singleton]
    omega
  have hintf : ∀ text : Text, ArraysKept cmd
      { cmd with destIntf := cmd.destIntf.setText (text.take (optargSize - 1)) } :=
    fun text => .setIntf (hbeyond _ text) fun h => setText_last h text
  unfold CommandData.parseDest
  dsimp only
  split
  · split
    · exact (hintf _).trans (.setName (hbeyond _ _) fun h => setText_last h _)
    · exact hintf _
  · exact hintf _

theorem arraysKept_parseDestFullImpl (argV : ArgV) (allowInst allowCmd : Bool) :
    ArraysKept cmd (cmd.parseDestFullImpl host argV allowInst allowCmd).cmd := by
  obtain ⟨params, hcases⟩ := parseDestFullImpl_cases host cmd argV allowInst allowCmd
  cases hcases with
  | inl hrej =>
    rw [hrej]
    exact .of_eq rfl rfl rfl
  | inr hdest =>
    obtain ⟨sep1, hdest⟩ := hdest
    rw [hdest]
    exact .after (arraysKept_parseDest _ sep1 allowCmd) rfl rfl rfl

theorem arraysKept_parseDestCmdOnly (text : Text) :
    ArraysKept cmd (cmd.parseDestCmdOnly text).cmd := by
  refine .setName (fun i hi => Mem.copy_outside (Or.inr ?_))
    fun h => cmdNameTerminated_parseDestCmdOnly cmd h text
  have hlen := length_take_lt text
  rw [List.length_append, List.length_replicate]
  omega

theorem arraysKept_parseEndian (text : Text) : ArraysKept cmd (cmd.parseEndian text).cmd := by
  unfold CommandData.parseEndian
  split
  · exact .refl cmd
  · exact .setError cmd _

theorem arraysKept_parseParameter (text : Text) :
    ArraysKept cmd (cmd.parseParameter host text).cmd := by
  have hcheck := arraysKept_checkValidPayload host cmd
  rw [cmd_parseParameter]
  split
  · exact hcheck.trans (arraysKept_processParameterArgument host _ text)
  · exact hcheck

theorem arraysKept_parseOption (a : ArgV) : ArraysKept cmd (parseOption host cmd a).cmd := by
  obtain ⟨id, text⟩ := a
  cases id with
  | none => exact arraysKept_parseParameter host cmd text
  | endian => exact arraysKept_parseEndian cmd text
  | pktedsver | pktid | pktapid => exact arraysKept_parseDestFullImpl host cmd _ _ _
  | cmdcode | pktfc => exact arraysKept_parseDestCmdOnly cmd text
  | _ => exact .of_eq rfl rfl rfl

/-! ## Sessions -/

theorem arraysKept_call (call : Call) : ArraysKept cmd (call.cmd host cmd) := by
  cases call with
  | parseOption a => exact arraysKept_parseOption host cmd a
  | helpUsage =>
    exact (arraysKept_checkValidIntf host cmd).trans (arraysKept_checkValidPayload host _)
  | getPackedObject out sz =>
    rw [Call.cmd, (getPackedObject_spec host cmd out sz).1]
    exact (arraysKept_checkValidPayload host cmd).trans (.of_eq rfl rfl rfl)

/-- Whatever the calls, the libraries and the texts: nothing behind `DestIntf` and `CmdName`
is written, both keep the terminator in their last byte, and `LastErrorText` has one. -/
theorem arraysKept_session (calls : List Call) : ArraysKept cmd (session host cmd calls) := by
  induction calls generalizing cmd with
  | nil => exact .refl cmd
  | cons call calls ih => exact (arraysKept_call host cmd call).trans (ih _)

end

end CmdSend.Eds
