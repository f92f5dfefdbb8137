-- SUMMARY: EDS_HelpUsage of eds_encode.c: what it prints, and that the commands it lists can be given.
import CmdSend.Eds.Destination
import CmdSend.Eds.Selection
import CmdSend.Lib.Format

/-!
# The usage

`EDS_HelpUsage` lists what can be given next: the interfaces, the commands of an interface or
the fields of a command. The list of commands goes through one buffer of 32 bytes, which
every type starts with `N/A`.
-/

namespace CmdSend.Eds

open CLib

/-! ## What is printed -/

/-- A constraint value with all that `Enumerate_Constraint_Callback` reads of it. -/
inductive Reported
  | signedInt (value : BitVec 64)
  | unsignedInt (value : BitVec 64)
  | binary (stringData : Text)
  | other
deriving DecidableEq, Repr

/-- The value, as `Match_Constraint_Callback` reads it. -/
def Reported.value : Reported → ConstraintValue
  | .signedInt value => .signedInt value
  | .unsignedInt value => .unsignedInt value
  | .binary _ | .other => .other

/-- `EdsLib_BasicType_t`. -/
inductive BasicType
  | signedInt
  | unsignedInt
  | float
  | binary
  | other
deriving DecidableEq, Repr

/-- `EdsLib_DisplayHint_t`. -/
inductive DisplayHint
  | enumSymtable
  | string
  | other
deriving DecidableEq, Repr

/-- What the usage reads of a member of the payload. A null pointer is `none`. -/
structure Member where
  edsId : EdsId
  fullName : Option Text

/-- The libraries, as the usage calls them. -/
structure UsageHost extends Host where
  /-- The values that the constraint iterator reports for a derived type. -/
  reported : EdsId → EdsId → List Reported
  constraints_eq : ∀ arg id, constraints arg id = (reported arg id).map Reported.value
  /-- The interfaces that `CFE_MissionLib_EnumerateTopics` goes over. -/
  topics : List EdsId
  getFullName : EdsId → Option Text
  /-- The members that `EdsLib_DisplayDB_IterateAllEntities` goes over. -/
  members : EdsId → List Member
  elemType : EdsId → BasicType
  sizeBits : EdsId → Nat
  getDisplayHint : EdsId → DisplayHint

/-- `CONSTRAINT_BUFSIZE`. -/
def constraintBufsize : Nat := 32

/-- `Enumerate_Constraint_Callback`: the stores into the buffer. `strncpy` fills it up with
zeros, apart from its last byte. -/
def enumerateConstraint : Reported → List Store
  | .signedInt value => [.snprintf 0 constraintBufsize (fmtD value.toInt)]
  | .unsignedInt value => [.snprintf 0 constraintBufsize (fmtU value.toNat)]
  | .binary data =>
    [.write 0 (data.take (constraintBufsize - 1) ++
        List.replicate (constraintBufsize - 1 - data.length) 0),
      .write (constraintBufsize - 1) [0]]
  | .other => []

/-- `Enumerate_Topics_Usage_Callback`. -/
def enumerateTopic (host : UsageHost) (intf : EdsId) : Option Text :=
  (host.getFullName intf).map fun name => str "   " ++ name ++ str "\n"

/-- The name of a type. The display hint goes first. -/
def typeName (elemType : BasicType) (hint : DisplayHint) : Text :=
  match hint with
  | .enumSymtable => str "enum"
  | .string => str "string"
  | .other =>
    match elemType with
    | .signedInt => str "int"
    | .unsignedInt => str "uint"
    | .float => str "ieee"
    | .binary => str "binary"
    | .other => str "other"

/-- `Enumerate_Members_Usage_Callback`. -/
def enumerateMember (host : UsageHost) (m : Member) : Option Text :=
  m.fullName.map fun name =>
    str "   " ++ fmtRight 10 (typeName (host.elemType m.edsId) (host.getDisplayHint m.edsId)) ++
      str "/" ++ fmtLeft 4 (fmtU (host.sizeBits m.edsId)) ++ str "  " ++ name ++ str "\n"

/-- The line of a command. -/
def commandLine (baseName code : Text) : Text :=
  str "   " ++ fmtLeft 40 baseName ++ str " (" ++ code ++ str ")\n"

/-- The locals of the loop over the commands, with the stores into the buffer and what has
been printed. -/
structure Listing where
  idx : BitVec 16
  constraintBuffer : Mem
  stores : List Store
  printed : List Text

/-- A round of the loop over the commands. -/
def listingRound (host : UsageHost) (arg : EdsId) (s : Listing) : Option (Listing ⊕ Listing) :=
  match host.getDerivedTypeById arg s.idx with
  | none => some (.inr s)
  | some possibleId =>
    let stores := .write 0 (str "N/A" ++ [0]) ::
      (host.reported arg possibleId).flatMap enumerateConstraint
    let buffer := Store.applyAll s.constraintBuffer stores
    some (.inl
      { idx := s.idx + 1
        constraintBuffer := buffer
        stores := s.stores ++ stores
        printed := s.printed ++
          [commandLine (host.getBaseName possibleId) (buffer.cstr constraintBufsize)] })

/-- The loop over the commands, for the initial contents of the buffer. -/
def listCommands (host : UsageHost) (arg : EdsId) (buffer : Mem) : Option Listing :=
  Loop.run (listingRound host arg) (2 ^ 16) ⟨0, buffer, [], []⟩

/-- What `EDS_HelpUsage` prints, for the initial contents of the buffer. -/
def printUsage (host : UsageHost) (cmd : CommandData) (buffer : Mem) : Option (List Text) :=
  match (helpUsage host.toHost cmd).1 with
  | .interfaces =>
    some (str "EDS-defined Telecommand Interfaces:\n" ::
      (host.topics.filterMap (enumerateTopic host) ++ [str "\n"]))
  | .payloadFields id =>
    some (str "\nDefined Payload Fields (sizes in bits):\n" ::
      (host.members id).filterMap (enumerateMember host))
  | .commandCodes arg =>
    (listCommands host arg buffer).map fun s => str "\nAvailable Command Codes:\n" :: s.printed
  | .noPayload => some [str "\nSelected command has no payload fields\n"]

/-! ## The list of commands -/

/-- What a constraint value shows as, if it shows. -/
def Reported.text : Reported → Option Text
  | .signedInt value => some (fmtD value.toInt)
  | .unsignedInt value => some (fmtU value.toNat)
  | .binary data => some ((data.take (constraintBufsize - 1)).takeWhile (· ≠ 0))
  | .other => none

/-- The last value that shows, in the place of the command code. -/
def shownCode (values : List Reported) : Text :=
  (values.reverse.findSome? Reported.text).getD (str "N/A")

theorem length_fmt_lt (value : BitVec 64) :
    (fmtD value.toInt).length < constraintBufsize ∧
      (fmtU value.toNat).length < constraintBufsize := by
  have hint : value.toInt.natAbs < 10 ^ 20 := by
    have hlo := BitVec.le_toInt value
    have hhi := BitVec.toInt_lt (x := value)
    omega
  have hnat : value.toNat < 10 ^ 20 := Nat.lt_trans value.isLt (by decide)
  have hd := length_fmtD_le (by decide) hint
  have hu := length_fmtU_le (by decide) hnat
  unfold constraintBufsize
  omega

/-- A callback leaves the text of its value, or the text before it. -/
theorem cstr_enumerateConstraint (buffer : Mem) (value : Reported) :
    (Store.applyAll buffer (enumerateConstraint value)).cstr constraintBufsize =
      value.text.getD (buffer.cstr constraintBufsize) := by
  cases value with
  | signedInt value =>
    exact Mem.cstr_snprintf buffer (fmtD_ne_nil _) (zero_notMem_fmtD _) (length_fmt_lt value).1
  | unsignedInt value =>
    exact Mem.cstr_snprintf buffer (fmtU_ne_nil _) (zero_notMem_fmtU _) (length_fmt_lt value).2
  | binary data =>
    refine Mem.cstr_of_padded (s := data) ?_
    have hcopy : Store.applyAll buffer (enumerateConstraint (.binary data)) =
        (buffer.strncpy data 31).copy 31 [0] := rfl
    have hfirst := @Mem.slice_copy_disjoint (buffer.strncpy data 31) 31 0 31 [0]
      (Or.inl (by decide))
    rw [hcopy, Mem.slice_add, hfirst, Mem.slice_strncpy]
    exact congrArg _ (Mem.slice_copy_same _ _ [0])
  | other => rfl

theorem within_enumerateConstraint (value : Reported) :
    ∀ s ∈ enumerateConstraint value, s.Within constraintBufsize := by
  cases value with
  | signedInt value | unsignedInt value =>
    exact List.forall_mem_singleton.mpr (Store.within_snprintf (by decide) (by decide) _)
  | binary data =>
    have hlen := Mem.length_strncpy_source data (constraintBufsize - 1)
    refine List.forall_mem_cons.mpr ⟨Store.within_write ?_,
      List.forall_mem_singleton.mpr (Store.within_write (by decide))⟩
    rw [hlen]
    decide
  | other => exact nofun

/-- The stores of a round. -/
def typeStores (values : List Reported) : List Store :=
  .write 0 (str "N/A" ++ [0]) :: values.flatMap enumerateConstraint

/-- Whatever the buffer holds, a type shows its own code. -/
theorem cstr_typeStores (buffer : Mem) (values : List Reported) :
    (Store.applyAll buffer (typeStores values)).cstr constraintBufsize = shownCode values := by
  have hstart : (Store.apply buffer (.write 0 (str "N/A" ++ [0]))).cstr constraintBufsize =
      str "N/A" := by
    have hcopy : Store.apply buffer (.write 0 (str "N/A" ++ [0])) = buffer.setText (str "N/A") :=
      (Mem.setText_eq_copy _ _).symm
    rw [hcopy]
    exact Mem.cstr_setText buffer (by decide) (by decide)
  have hlast := foldl_last (I := fun _ => True) (g := fun m : Mem => m.cstr constraintBufsize)
    (f := fun m value => Store.applyAll m (enumerateConstraint value))
    (fun m value _ => ⟨trivial, cstr_enumerateConstraint m value⟩) values
    (s := Store.apply buffer (.write 0 (str "N/A" ++ [0]))) trivial
  rw [hstart] at hlast
  rw [shownCode, ← hlast]
  unfold typeStores Store.applyAll
  rw [List.foldl_cons, List.foldl_flatMap]

theorem within_typeStores (values : List Reported) :
    ∀ s ∈ typeStores values, s.Within constraintBufsize := by
  refine List.forall_mem_cons.mpr ⟨Store.within_write (by decide), fun s hs => ?_⟩
  obtain ⟨value, -, hvalue⟩ := List.mem_flatMap.mp hs
  exact within_enumerateConstraint value s hvalue

section

variable {host : UsageHost} {arg : EdsId} {types : List EdsId}

/-- The line of a derived type. -/
def typeLine (host : UsageHost) (arg id : EdsId) : Text :=
  commandLine (host.getBaseName id) (shownCode (host.reported arg id))

/-- The types before the index have been listed. -/
structure ListedTo (host : UsageHost) (arg : EdsId) (types : List EdsId) (s : Listing) :
    Prop where
  le : s.idx.toNat ≤ types.length
  printed : s.printed = (types.take s.idx.toNat).map (typeLine host arg)
  within : ∀ st ∈ s.stores, st.Within constraintBufsize

/-- The loop ends, lists each derived type in its place and writes inside the buffer. -/
theorem listCommands_spec
    (htypes : ∀ idx, idx.toNat ≤ types.length →
      host.getDerivedTypeById arg idx = types[idx.toNat]?)
    (hlen : types.length < 65536) (buffer : Mem) :
    ∃ s, listCommands host arg buffer = some s ∧ s.printed = types.map (typeLine host arg) ∧
      ∀ st ∈ s.stores, st.Within constraintBufsize := by
  refine Loop.run_of_measure (I := ListedTo host arg types)
    (fun s => types.length - s.idx.toNat) ?_ ⟨Nat.zero_le _, rfl, nofun⟩ ?_
  · rintro s ⟨hle, hprinted, hwithin⟩
    have hround := htypes s.idx hle
    cases hid : types[s.idx.toNat]? with
    | none =>
      rw [hid] at hround
      have hge := List.getElem?_eq_none_iff.mp hid
      refine Or.inr ⟨s, by simp only [listingRound, hround], ?_, hwithin⟩
      rw [hprinted, List.take_of_length_le hge]
    | some id =>
      rw [hid] at hround
      obtain ⟨hlt, hget⟩ := List.getElem?_eq_some_iff.mp hid
      have hnext : (s.idx + 1).toNat = s.idx.toNat + 1 := by
        rw [BitVec.toNat_add]
        exact Nat.mod_eq_of_lt (by simp; omega)
      refine Or.inl ⟨_, by simp only [listingRound, hround]; rfl, ⟨?_, ?_, ?_⟩, ?_⟩
      · rw [hnext]
        exact hlt
      · have hcode := cstr_typeStores s.constraintBuffer (host.reported arg id)
        rw [hnext, List.take_succ_eq_append_getElem hlt, List.map_append, ← hprinted, hget]
        exact congrArg (fun code => s.printed ++ [commandLine (host.getBaseName id) code]) hcode
      · exact List.forall_mem_append.mpr ⟨hwithin, within_typeStores _⟩
      · simp only [hnext]
        omega
  · simp
    omega

end

/-! ## Another command name -/

/-- The state with another command name. -/
def CommandData.named (cmd : CommandData) (name : Mem) : CommandData :=
  { cmd with cmdName := name }

section

variable (host : Host) (cmd : CommandData) (name : Mem)

theorem rejectIntf_named : (cmd.named name).rejectIntf = cmd.rejectIntf.named name := by
  unfold CommandData.rejectIntf CommandData.named
  split <;> rfl

theorem findInterface_named :
    (cmd.named name).findInterface host =
      ((cmd.findInterface host).1, (cmd.findInterface host).2.named name) := by
  unfold CommandData.findInterface CommandData.named
  dsimp only [CommandData.destIntfText]
  split
  · split <;> rfl
  · rfl

theorem findTopic_named (rc : Int) :
    (cmd.named name).findTopic host rc =
      ((cmd.findTopic host rc).1, (cmd.findTopic host rc).2.named name) := by
  unfold CommandData.findTopic CommandData.named
  dsimp only
  split <;> rfl

theorem findArgument_named :
    (cmd.named name).findArgument host =
      ((cmd.findArgument host).1, (cmd.findArgument host).2.named name) := by
  unfold CommandData.findArgument CommandData.named
  dsimp only
  split <;> rfl

theorem processNumericDest_named (midVal : BitVec 64) :
    (cmd.named name).processNumericDest host midVal =
      ((cmd.processNumericDest host midVal).1,
        (cmd.processNumericDest host midVal).2.named name) := by
  let next : CommandData :=
    { cmd with
      pubSub := ⟨midVal⟩
      params := host.unmapListenerComponent cmd.params ⟨midVal⟩ }
  have hreject := rejectIntf_named next name
  have hfind := findArgument_named host
    { next with intfEdsId := (host.getTopicInfo next.params.topicId).2 } name
  unfold CommandData.processNumericDest
  dsimp only
  split
  · rename_i htopic
    rw [if_pos (show (host.getTopicInfo next.params.topicId).1 ≠ host.missionSuccess from htopic)]
    exact congrArg (Prod.mk false) hreject
  · rename_i htopic
    rw [if_neg (show ¬(host.getTopicInfo next.params.topicId).1 ≠ host.missionSuccess from htopic)]
    exact hfind

theorem processNamedDest_named :
    (cmd.named name).processNamedDest host =
      ((cmd.processNamedDest host).1, (cmd.processNamedDest host).2.named name) := by
  unfold CommandData.processNamedDest
  rw [findInterface_named]
  dsimp only
  rw [findTopic_named]
  dsimp only
  generalize ((cmd.findInterface host).2.findTopic host (cmd.findInterface host).1) = found
  have hreject := rejectIntf_named found.2 name
  have hfind := findArgument_named host
    { found.2 with pubSub := host.mapListenerComponent found.2.pubSub found.2.params } name
  split
  · exact congrArg (Prod.mk false) hreject
  · split
    · rename_i hinfo
      have hfailed : host.getComponentInterfaceInfo found.2.intfEdsId ≠ host.edsSuccess := hinfo
      rw [if_pos hfailed]
      rfl
    · rename_i hinfo
      have hfound : ¬host.getComponentInterfaceInfo found.2.intfEdsId ≠ host.edsSuccess := hinfo
      rw [if_neg hfound]
      exact hfind

/-- The lookup of the interface does not look at the command name. -/
theorem processDestIntf_named :
    (cmd.named name).processDestIntf host =
      ((cmd.processDestIntf host).1, (cmd.processDestIntf host).2.named name) := by
  have htext : (cmd.named name).destIntfText = cmd.destIntfText := rfl
  unfold CommandData.processDestIntf
  rw [htext]
  dsimp only
  split
  · exact processNumericDest_named host cmd name _
  · exact processNamedDest_named host cmd name

end

/-! ## Commands that are given -/

/-- The command name is left as it was given. -/
theorem cmd_parseOption_cmdcode (host : Host) (cmd : CommandData) (text : Text) :
    (parseOption host cmd ⟨.cmdcode, text⟩).cmd =
      cmd.named (cmd.cmdName.strncpy text (optargSize - 1)) := by
  have hzeros : optargSize - 1 - (text.take (optargSize - 1)).length =
      optargSize - 1 - text.length := by
    rw [List.length_take]
    omega
  simp only [parseOption, CommandData.parseDestCmdOnly, CommandData.answer, hzeros]
  rfl

/-- What the given text names, among the types derived from an interface argument. -/
def Names (host : Host) (arg : EdsId) (text : Text) (id : EdsId) : Prop :=
  (IsNumeral text ∧ ∃ value ∈ host.constraints arg id,
      value = .signedInt (strtoul text).value ∨ value = .unsignedInt (strtoul text).value) ∨
    (¬IsNumeral text ∧ host.getBaseName id = text)

section

variable {host : Host} {cmd : CommandData} {types : List EdsId}

/-- A name that matches a derived type is found. -/
theorem processCmdCode_of_matches
    (htypes : ∀ idx, host.getDerivedTypeById cmd.intfArg idx = types[idx.toNat]?)
    (hlen : types.length < 65536) (hderived : host.getDerivedInfo cmd.intfArg = host.edsSuccess)
    (hactual : cmd.actualArg = cmd.intfArg) (hintf : cmd.intfArg ∉ types) {id : EdsId}
    (hid : id ∈ types) (hmatch : Matches host cmd id) :
    (cmd.processCmdCode host).1 = true ∧
      FirstOf types (Matches host cmd) (some (cmd.processCmdCode host).2.actualArg) := by
  obtain ⟨found, hrun, hfirst⟩ := search_ends host cmd htypes hlen
  have hfound := findDerived_of_run host cmd hlen hrun
  cases found with
  | none => exact absurd hmatch (hfirst id hid)
  | some id' =>
    have hne : some id' ≠ some cmd.intfArg := by
      rintro heq
      obtain ⟨i, hi, -, -⟩ := hfirst
      exact hintf (Option.some.inj heq ▸ List.mem_of_getElem? hi)
    obtain ⟨hok, hselected⟩ := processCmdCode_of_derived hderived hactual hfound hne
    rw [hok, hselected]
    exact ⟨rfl, hfirst⟩

theorem checkValidIntf_of_dest (hunknown : cmd.intfState = .unknown)
    (hdest : (cmd.processDestIntf host).1 = true) :
    (cmd.checkValidIntf host).ok = ((cmd.processDestIntf host).2.processCmdCode host).1 ∧
      (cmd.checkValidIntf host).cmd.actualArg =
        ((cmd.processDestIntf host).2.processCmdCode host).2.actualArg ∧
      (cmd.checkValidIntf host).cmd.intfArg =
        ((cmd.processDestIntf host).2.processCmdCode host).2.intfArg := by
  unfold CommandData.checkValidIntf
  simp only [if_pos hunknown, hdest, Bool.not_true, Bool.false_eq_true, if_false]
  cases ((cmd.processDestIntf host).2.processCmdCode host).1 with
  | true => exact ⟨rfl, rfl, rfl⟩
  | false => exact ⟨rfl, rfl, rfl⟩

theorem intfArg_processCmdCode : (cmd.processCmdCode host).2.intfArg = cmd.intfArg := by
  unfold CommandData.processCmdCode
  dsimp only
  split
  · split
    · split <;> rfl
    · rfl
  · split <;> rfl

/-- After a check of the interface, that of the payload leaves the argument alone. -/
theorem intfArg_checkValidPayload (host : Host) {cmd : CommandData}
    (h : cmd.intfState ≠ .unknown) :
    (cmd.checkValidPayload host).cmd.intfArg = cmd.intfArg := by
  have hdetail : (cmd.lookupPayloadDetail host).2.intfArg = cmd.intfArg := by
    unfold CommandData.lookupPayloadDetail
    split
    · rfl
    · split <;> rfl
  unfold CommandData.checkValidPayload
  rw [checkValidIntf_of_known host cmd h]
  dsimp only
  split
  · split
    · rfl
    · split
      · exact hdetail
      · split
        · exact hdetail
        · exact hdetail
  · rfl

/-- The text selects a command: the check of the interface succeeds with it, and comes to the
first type of the list with a property. -/
def Selects (host : Host) (cmd : CommandData) (types : List EdsId) (text : Text)
    (P : EdsId → Prop) : Prop :=
  let typed := ((parseOption host cmd ⟨.cmdcode, text⟩).cmd.checkValidIntf host)
  typed.ok = true ∧ FirstOf types P (some typed.cmd.actualArg)

/-- What the lookup of the interface has come to, in a state that has not asked for it. -/
structure Derives (host : Host) (cmd : CommandData) (types : List EdsId) : Prop where
  unknown : cmd.intfState = .unknown
  terminated : CmdNameTerminated cmd
  found : (cmd.processDestIntf host).1 = true
  derived : host.getDerivedInfo (cmd.processDestIntf host).2.intfArg = host.edsSuccess
  byIndex : ∀ idx, host.getDerivedTypeById (cmd.processDestIntf host).2.intfArg idx =
    types[idx.toNat]?
  length : types.length < 65536
  intf : (cmd.processDestIntf host).2.intfArg ∉ types

/-- A text that names one of the commands selects the first that it names. -/
theorem selects_of_names (h : Derives host cmd types) {text : Text} (hzero : 0 ∉ text)
    (hfit : text.length < optargSize) {id : EdsId} (hid : id ∈ types)
    (hnames : Names host (cmd.processDestIntf host).2.intfArg text id) :
    Selects host cmd types text (Names host (cmd.processDestIntf host).2.intfArg text) := by
  have hname : (cmd.cmdName.strncpy text (optargSize - 1)).cstr optargSize = text :=
    Mem.cstr_strncpy_of_le h.terminated hzero (Nat.le_pred_of_lt hfit)
  unfold Selects
  dsimp only
  rw [cmd_parseOption_cmdcode]
  generalize cmd.cmdName.strncpy text (optargSize - 1) = name at hname ⊢
  have hdest := processDestIntf_named host cmd name
  obtain ⟨hok, hselected, -⟩ := @checkValidIntf_of_dest host (cmd.named name)
    h.unknown (hdest ▸ h.found)
  rw [hok, hselected, hdest]
  have hmatches : ∀ id, Matches host ((cmd.processDestIntf host).2.named name) id ↔
      Names host (cmd.processDestIntf host).2.intfArg text id := by
    intro id
    have htext : ((cmd.processDestIntf host).2.named name).cmdNameText = text := hname
    unfold Matches
    rw [htext]
    rfl
  have hfirst := @processCmdCode_of_matches host ((cmd.processDestIntf host).2.named name) types
    h.byIndex h.length h.derived (actualArg_processDestIntf h.found) h.intf id hid
    ((hmatches id).mpr hnames)
  rwa [funext fun id => propext (hmatches id)] at hfirst

end

/-! ## Listed commands -/

/-- The integer of a constraint value. -/
def Reported.code : Reported → Option (BitVec 64)
  | .signedInt value | .unsignedInt value => some value
  | .binary _ | .other => none

/-- The type has a constraint with an integer. -/
def HasCode (host : UsageHost) (arg : EdsId) (code : BitVec 64) (id : EdsId) : Prop :=
  ∃ value ∈ host.reported arg id, value.code = some code

/-- The code of a type is that of its last value that shows. -/
theorem shownCode_eq {before after : List Reported} {value : Reported} {t : Text}
    (hafter : ∀ v ∈ after, v.text = none) (htext : value.text = some t) :
    shownCode (before ++ value :: after) = t := by
  have hnone : after.reverse.findSome? Reported.text = none :=
    List.findSome?_eq_none_iff.mpr fun v hv => hafter v (List.mem_reverse.mp hv)
  rw [shownCode, List.reverse_append, List.reverse_cons, List.append_assoc,
    List.findSome?_append, hnone]
  simp [htext]

/-- An integer is shown as a numeral that is read back as the same 64 bits, signed or not. -/
theorem text_of_code {value : Reported} {code : BitVec 64} (h : value.code = some code) :
    ∃ t, value.text = some t ∧ IsNumeral t ∧ (strtoul t).value = code ∧ 0 ∉ t ∧
      t.length < constraintBufsize := by
  cases value with
  | signedInt value =>
    obtain rfl : value = code := Option.some.inj h
    have hrenders := rendersInt_fmtD value.toInt
    have hbound : value.toInt.natAbs < 2 ^ 64 := by
      have hlo := BitVec.le_toInt value
      have hhi := BitVec.toInt_lt (x := value)
      omega
    have hread := strtoull_of_rendersInt hrenders hbound
    obtain ⟨n, hscan, -, htail⟩ := scanNumeral_of_rendersInt hrenders
    refine ⟨_, rfl, ⟨n, hscan, htail⟩, ?_, zero_notMem_fmtD _, (length_fmt_lt value).1⟩
    rw [strtoul, hread]
    exact BitVec.ofInt_toInt
  | unsignedInt value =>
    obtain rfl : value = code := Option.some.inj h
    have hrenders := RendersInt.nonneg (renders_fmtU value.toNat)
    have hread := strtoull_of_rendersInt hrenders (by simpa using value.isLt)
    obtain ⟨n, hscan, -, htail⟩ := scanNumeral_of_rendersInt hrenders
    refine ⟨_, rfl, ⟨n, hscan, htail⟩, ?_, zero_notMem_fmtU _, (length_fmt_lt value).2⟩
    rw [strtoul, hread]
    simp
  | binary data => cases h
  | other => cases h

section

variable {host : UsageHost} {cmd : CommandData} {types : List EdsId}

/-- A numeral names the types that have its value. -/
theorem names_iff_of_numeral {arg : EdsId} {t : Text} (h : IsNumeral t) (id : EdsId) :
    Names host.toHost arg t id ↔ HasCode host arg (strtoul t).value id := by
  have hcode : ∀ r : Reported, (r.value = .signedInt (strtoul t).value ∨
      r.value = .unsignedInt (strtoul t).value) ↔ r.code = some (strtoul t).value := by
    intro r
    cases r <;> simp [Reported.value, Reported.code]
  unfold Names HasCode
  rw [host.constraints_eq]
  simp only [h, not_true_eq_false, false_and, or_false, true_and, List.mem_map,
    exists_exists_and_eq_and, hcode]

/-- The usage lists the commands of the interface that was found. -/
theorem intfArg_helpUsage (h : Derives host.toHost cmd types) {arg : EdsId}
    (husage : (helpUsage host.toHost cmd).1 = .commandCodes arg) :
    arg = (cmd.processDestIntf host.toHost).2.intfArg := by
  obtain ⟨-, -, hintf⟩ := checkValidIntf_of_dest h.unknown h.found
  have hpayload := intfArg_checkValidPayload host.toHost
    (checkValidIntf_known host.toHost cmd)
  rw [hintf, intfArg_processCmdCode] at hpayload
  unfold helpUsage at husage
  dsimp only at husage
  split at husage
  · cases husage
  split at husage
  · cases husage
  split at husage
  · rw [← hpayload]
    exact (Usage.commandCodes.inj husage).symm
  · cases husage

/-- What the usage says about the commands of an interface is true. -/
structure TellsCommands (host : UsageHost) (cmd : CommandData) (types : List EdsId)
    (buffer : Mem) : Prop where
  /-- The list has a line for each command of the interface, in order, with its own code. -/
  listed : ∀ arg, (helpUsage host.toHost cmd).1 = .commandCodes arg →
    arg = (cmd.processDestIntf host.toHost).2.intfArg ∧
      printUsage host cmd buffer =
        some (str "\nAvailable Command Codes:\n" :: types.map (typeLine host arg))
  /-- Nothing is written outside the buffer. -/
  within : ∃ s, listCommands host (cmd.processDestIntf host.toHost).2.intfArg buffer = some s ∧
    ∀ st ∈ s.stores, st.Within constraintBufsize
  /-- A listed integer selects the first command that has it. -/
  code : ∀ id ∈ types, ∀ before value after code,
    host.reported (cmd.processDestIntf host.toHost).2.intfArg id = before ++ value :: after →
    (∀ v ∈ after, v.text = none) → value.code = some code →
    Selects host.toHost cmd types (shownCode (before ++ value :: after))
      (HasCode host (cmd.processDestIntf host.toHost).2.intfArg code)
  /-- A listed name selects the first command that has it. -/
  name : ∀ id ∈ types, ¬IsNumeral (host.getBaseName id) → 0 ∉ host.getBaseName id →
    (host.getBaseName id).length < optargSize →
    Selects host.toHost cmd types (host.getBaseName id)
      fun id' => host.getBaseName id' = host.getBaseName id

theorem tellsCommands (h : Derives host.toHost cmd types) (buffer : Mem) :
    TellsCommands host cmd types buffer := by
  obtain ⟨s, hrun, hprinted, hwithin⟩ :=
    listCommands_spec (fun idx _ => h.byIndex idx) h.length buffer
  refine ⟨fun arg husage => ?_, ⟨s, hrun, hwithin⟩, ?_, fun id hid hnum hzero hfit => ?_⟩
  · obtain rfl := intfArg_helpUsage h husage
    refine ⟨rfl, ?_⟩
    unfold printUsage
    rw [husage]
    dsimp only
    rw [hrun, Option.map_some, hprinted]
  · intro id hid before value after code hreported hafter hcode
    obtain ⟨t, htext, hnum, hvalue, hzero, hlen⟩ := text_of_code hcode
    have hfit : t.length < optargSize := Nat.lt_trans hlen (by decide)
    have hiff := @names_iff_of_numeral host (cmd.processDestIntf host.toHost).2.intfArg t hnum
    have hhas : HasCode host (cmd.processDestIntf host.toHost).2.intfArg code id :=
      ⟨value, by rw [hreported]; simp, hcode⟩
    rw [shownCode_eq hafter htext, ← hvalue]
    rw [← hvalue] at hhas
    have hselects := selects_of_names h hzero hfit hid ((hiff id).mpr hhas)
    rwa [funext fun id' => propext (hiff id')] at hselects
  · have hiff : ∀ id', Names host.toHost (cmd.processDestIntf host.toHost).2.intfArg
        (host.getBaseName id) id' ↔ host.getBaseName id' = host.getBaseName id := by
      intro id'
      simp [Names, hnum]
    have hselects := selects_of_names h hzero hfit hid ((hiff id).mpr rfl)
    rwa [funext fun id' => propext (hiff id')] at hselects

end

/-- An interface with two commands, the second with the code 2. -/
def UsageHost.sample : UsageHost :=
  let reported : EdsId → EdsId → List Reported := fun _ id =>
    [.unsignedInt (if id = 5 then 0 else 2), .other]
  { Host.sample with
    getDerivedInfo := fun _ => 0
    getDerivedTypeById := fun _ idx => ([5, 6] : List EdsId)[idx.toNat]?
    getDerivedTypeById_ends := fun _ => ⟨2, rfl⟩
    getBaseName := fun id => if id = 5 then str "NOOP" else str "RESET"
    constraints := fun arg id => (reported arg id).map Reported.value
    reported := reported
    constraints_eq := fun _ _ => rfl
    topics := []
    getFullName := fun _ => none
    members := fun _ => []
    elemType := fun _ => .other
    sizeBits := fun _ => 0
    getDisplayHint := fun _ => .other }

/-- The usage lists the two commands. -/
theorem tellsCommands_two :
    ∃ obj, instantiate UsageHost.sample.toHost = some obj ∧
      let cmd := (parseOption UsageHost.sample.toHost obj ⟨.pktid, str "ES"⟩).cmd
      (helpUsage UsageHost.sample.toHost cmd).1 = .commandCodes 1 ∧
        [5, 6].map (typeLine UsageHost.sample 1) =
          [commandLine (str "NOOP") (str "0"), commandLine (str "RESET") (str "2")] ∧
        TellsCommands UsageHost.sample cmd [5, 6] fun _ => 255 := by
  refine ⟨_, rfl, by decide, by decide, tellsCommands ?_ _⟩
  exact ⟨rfl, rfl, by decide, rfl, fun _ => rfl, by decide, by decide⟩

end CmdSend.Eds
