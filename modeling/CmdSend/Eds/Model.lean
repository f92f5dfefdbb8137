-- SUMMARY: The EDS encoder of eds_encode.c: its lookups in the EDS database, its option parser and its packer.
import CmdSend.Lib.Numeral
import CmdSend.Options

/-!
# The EDS encoder

The encoder looks up the destination interface and the command in the EDS
database, once, when it first needs them. The libraries EdsLib and MissionLib and
the generated datasheets are parameters: `Host` has one function for each call
that the encoder makes, and nothing is assumed of them but that the list of
derived types ends.

The type of the native buffer is generated, so `Buf` is its memory, and the
encoder's places in it are offsets. The members of the state that nothing reads
(`IsDerived`, `EdsHeaderInfo` and the like) are left out.
-/

namespace CmdSend.Eds

open CLib

/-- `EdsLib_Id_t`. -/
abbrev EdsId := BitVec 32

/-- What the encoder uses of `EdsLib_DataTypeDB_EntityInfo_t`: the id and
`Offset.Bytes`. -/
structure EntityInfo where
  edsId : EdsId
  offset : Nat
deriving DecidableEq, Repr

/-- `Params.Telecommand`. -/
structure Params where
  topicId : Nat
  instanceNumber : Nat
deriving DecidableEq, Repr

/-- `PubSub`, whose `MsgId.Value` is all that the encoder sets. -/
structure PubSub where
  msgId : BitVec 64
deriving DecidableEq, Repr

/-- A constraint value, as `EdsLib_DataTypeDB_ConstraintIterator` reports it. -/
inductive ConstraintValue
  | signedInt (value : BitVec 64)
  | unsignedInt (value : BitVec 64)
  | other
deriving DecidableEq, Repr

/-- The datatypes of the space packet that the encoder names. -/
inductive HeaderType
  | singleBitFlag
  | secHdrFlags
  | seqCount
  | subsystemId
  | versionId
deriving DecidableEq, Repr

/-- The members of the native buffer that the encoder names. -/
inductive HeaderMember
  | playback
  | seqFlag
  | sequence
  | endian
  | subsystemId
  | versionId
  | systemId
deriving DecidableEq, Repr

/-- The libraries and the machine. A call that has a result next to its status
gets the old contents of the result, since a failing call may leave them. -/
structure Host where
  /-- `EDSLIB_SUCCESS`. -/
  edsSuccess : Int
  /-- `CFE_MISSIONLIB_SUCCESS`. -/
  missionSuccess : Int
  /-- The id of the datatype of the command header. -/
  commandHeader : EdsId
  headerType : HeaderType → EdsId
  headerOffset : HeaderMember → Nat
  /-- The assignment to `Buf.Basic.CommonHdr.SeqFlag`. -/
  setSeqFlag : Mem → Nat → Mem
  unmapListenerComponent : Params → PubSub → Params
  mapListenerComponent : PubSub → Params → PubSub
  /-- The status and `ParentIntfId`. -/
  getTopicInfo : Nat → Int × EdsId
  findTopicIdFromIntfId : EdsId → Nat → Int × Nat
  getInstanceNumber : Text → Nat
  setPubSubParameters : Mem → PubSub → Mem
  findComponentInterfaceByFullName : Text → EdsId → Int × EdsId
  getComponentInterfaceInfo : EdsId → Int
  findAllArgumentTypes : EdsId → EdsId → Int × EdsId
  getTypeInfo : EdsId → Int
  getDerivedInfo : EdsId → Int
  /-- The derived type with an index, if the call succeeds. -/
  getDerivedTypeById : EdsId → BitVec 16 → Option EdsId
  /-- The database is finite, so that the loop over the derived types ends. -/
  getDerivedTypeById_ends : ∀ id, ∃ idx, getDerivedTypeById id idx = none
  /-- The values that the constraint iterator reports for a derived type. -/
  constraints : EdsId → EdsId → List ConstraintValue
  getBaseName : EdsId → Text
  getIndexByName : EdsId → Text → Option (BitVec 16)
  getMemberByIndex : EdsId → BitVec 16 → EntityInfo → EntityInfo
  initializeNativeObject : EdsId → Mem → Int × Mem
  locateSubEntity : EdsId → Text → EntityInfo → Int × EntityInfo
  /-- The status and the buffer, for a datatype and an offset in the buffer. -/
  scalarFromString : EdsId → Nat → Mem → Text → Int × Mem
  /-- The status, `ActualArg`, the output and its size in octets. -/
  packCompleteObjectVarSize : EdsId → Mem → Mem → Nat → Int × EdsId × Mem × Nat
  /-- `EdsLib_Is_Valid`. -/
  isValid : EdsId → Bool
  /-- How far `DestIntf` is from the text of an option. -/
  destIntfDistance : ArgV → BitVec 64
  /-- The memory behind the terminator of the text of an option. -/
  beyondText : ArgV → Mem

/-- `OPTARG_SIZE`. -/
def optargSize : Nat := 64

/-- `sizeof(cmd->LastErrorText)`. -/
def errorTextSize : Nat := 160

def DEFAULT_COMPONENT : Text := str "Application"

/-- `EDS_LookupState_t`. -/
inductive LookupState
  | failed
  | unknown
  | success
deriving DecidableEq, Repr

/-- `CommandData_t`. -/
structure CommandData where
  /-- The array of `OPTARG_SIZE` bytes. -/
  destIntf : Mem
  /-- The array of `OPTARG_SIZE` bytes. -/
  cmdName : Mem
  intfState : LookupState
  payloadState : LookupState
  payloadError : Bool
  selectedProto : Protocol
  intfEdsId : EdsId
  intfArg : EdsId
  actualArg : EdsId
  params : Params
  pubSub : PubSub
  edsPayloadInfo : EntityInfo
  buf : Mem
  lastErrorText : Text

/-- The steps of the encoder that are meant to happen in a certain order, or once. -/
inductive Step
  | processDestIntf
  | processCmdCode
  | initializeNativeObject
  | writeParameter
deriving DecidableEq, Repr

/-- The result of a check, and the steps that it executed. -/
structure Checked where
  ok : Bool
  cmd : CommandData
  steps : List Step

/-- What a call of the parser returns and leaves behind. -/
structure Outcome where
  retcode : OptParse
  cmd : CommandData
  steps : List Step

namespace CommandData

/-! ## Helpers -/

/-- The string in `DestIntf`. -/
def destIntfText (cmd : CommandData) : Text := cmd.destIntf.cstr optargSize

/-- The string in `CmdName`. -/
def cmdNameText (cmd : CommandData) : Text := cmd.cmdName.cstr optargSize

def setError (cmd : CommandData) (error : Text) : CommandData :=
  { cmd with lastErrorText := snprintf errorTextSize error }

/-- The error for an interface that is not known. -/
def rejectIntf (cmd : CommandData) : CommandData :=
  if cmd.destIntf 0 ≠ 0 then
    cmd.setError (str "Dest Interface Argument: '" ++ cmd.destIntfText ++
      str "' rejected. Interface not known.\n")
  else cmd

/-! ## The destination -/

/-- Insert the component `Application` before the last part of the name in
`DestIntf`, if it has parts and there is room. -/
def insertComponent (destIntf : Mem) : Option Mem :=
  let fullLen := (destIntf.cstr optargSize).length
  let size := DEFAULT_COMPONENT.length + 1
  match strrchr (destIntf.cstr optargSize) (ch '/') with
  | none => none
  | some separator =>
    if fullLen + size < optargSize then
      let tail := destIntf.slice separator (1 + fullLen - separator)
      let destIntf := destIntf.copy (separator + size) tail
      let destIntf := destIntf.copy (separator + 1) DEFAULT_COMPONENT
      some (Function.update destIntf separator (ch '/'))
    else none

/-- The lookup of the interface by its name, and again with the implicit
component. -/
def findInterface (host : Host) (cmd : CommandData) : Int × CommandData :=
  let (rc, id) := host.findComponentInterfaceByFullName cmd.destIntfText cmd.intfEdsId
  let cmd := { cmd with intfEdsId := id }
  if rc ≠ host.edsSuccess then
    match insertComponent cmd.destIntf with
    | none => (rc, cmd)
    | some destIntf =>
      let cmd := { cmd with destIntf := destIntf }
      let (rc, id) := host.findComponentInterfaceByFullName cmd.destIntfText cmd.intfEdsId
      (rc, { cmd with intfEdsId := id })
  else (rc, cmd)

/-- The end of `EDS_ProcessDestIntf`, which both of its branches reach. -/
def findArgument (host : Host) (cmd : CommandData) : Bool × CommandData :=
  let cmd := { cmd with buf := host.setPubSubParameters cmd.buf cmd.pubSub }
  let (rc, arg) := host.findAllArgumentTypes cmd.intfEdsId cmd.intfArg
  let cmd := { cmd with intfArg := arg }
  if rc ≠ host.edsSuccess then
    (false, cmd.setError (str "Cannot lookup argument type for: '" ++ cmd.destIntfText ++
      str "', rc=" ++ fmtD rc ++ str "\n"))
  else (true, { cmd with actualArg := cmd.intfArg })

/-- The branch of `EDS_ProcessDestIntf` for a number, which is a message id. -/
def processNumericDest (host : Host) (cmd : CommandData) (midVal : BitVec 64) :
    Bool × CommandData :=
  let pubSub := { cmd.pubSub with msgId := midVal }
  let cmd := { cmd with pubSub := pubSub, params := host.unmapListenerComponent cmd.params pubSub }
  let (rc, parent) := host.getTopicInfo cmd.params.topicId
  if rc ≠ host.missionSuccess then (false, cmd.rejectIntf)
  else { cmd with intfEdsId := parent }.findArgument host

/-- The lookup of the topic, after that of the interface. -/
def findTopic (host : Host) (cmd : CommandData) (rc : Int) : Int × CommandData :=
  if rc = host.edsSuccess then
    let (rc, topicId) := host.findTopicIdFromIntfId cmd.intfEdsId cmd.params.topicId
    (rc, { cmd with params := { cmd.params with topicId := topicId } })
  else (rc, cmd)

/-- The branch of `EDS_ProcessDestIntf` for a name. -/
def processNamedDest (host : Host) (cmd : CommandData) : Bool × CommandData :=
  let (rc, cmd) := cmd.findInterface host
  let (rc, cmd) := cmd.findTopic host rc
  if rc ≠ host.missionSuccess then (false, cmd.rejectIntf)
  else if host.getComponentInterfaceInfo cmd.intfEdsId ≠ host.edsSuccess then
    (false, cmd.setError (str "Cannot lookup interface info for: '" ++ cmd.destIntfText ++
      str "'\n"))
  else { cmd with pubSub := host.mapListenerComponent cmd.pubSub cmd.params }.findArgument host

/-- `EDS_ProcessDestIntf`. -/
def processDestIntf (host : Host) (cmd : CommandData) : Bool × CommandData :=
  let conv := strtoul cmd.destIntfText
  if conv.tail ≠ cmd.destIntfText ∧ conv.tail = [] then cmd.processNumericDest host conv.value
  else cmd.processNamedDest host

/-! ## The command -/

/-- `Match_Constraint_Callback`. -/
def matchConstraint (valueCompare : BitVec 64) (isMatch : Bool) : ConstraintValue → Bool
  | .signedInt value => isMatch || value = valueCompare
  | .unsignedInt value => isMatch || value = valueCompare
  | .other => isMatch

/-- The loop of `EDS_ProcessCmdCode` over the derived types, with the 16-bit
index. `conv` is the command name as a number. -/
def findDerived (host : Host) (intfArg : EdsId) (cmdName : Text) (conv : Conversion 64) :
    Nat → BitVec 16 → Bool → Option EdsId
  | 0, _, _ => none
  | fuel + 1, idx, isMatch =>
    match host.getDerivedTypeById intfArg idx with
    | none => none
    | some possibleId =>
      let isMatch :=
        if conv.tail ≠ cmdName ∧ conv.tail = [] then
          (host.constraints intfArg possibleId).foldl (matchConstraint conv.value) isMatch
        else host.getBaseName possibleId = cmdName
      if isMatch then some possibleId
      else findDerived host intfArg cmdName conv fuel (idx + 1) isMatch

/-- `EDS_ProcessCmdCode`. -/
def processCmdCode (host : Host) (cmd : CommandData) : Bool × CommandData :=
  if host.getDerivedInfo cmd.intfArg = host.edsSuccess then
    let found :=
      findDerived host cmd.intfArg cmd.cmdNameText (strtoul cmd.cmdNameText) (2 ^ 16) 0 false
    let cmd := { cmd with actualArg := found.getD cmd.actualArg }
    if cmd.actualArg = cmd.intfArg then
      if cmd.cmdName 0 = 0 then
        (false, cmd.setError (str "Dest Interface requires a derivative specifier / command code: '"
          ++ cmd.destIntfText ++ str "'\n"))
      else
        (false, cmd.setError (str "Command '" ++ cmd.cmdNameText ++
          str "' not found within interface '" ++ cmd.destIntfText ++ str "'\n"))
    else (true, cmd)
  else if cmd.cmdName 0 ≠ 0 then
    (false, cmd.setError (str "Dest Interface does not have command codes: '" ++
      cmd.destIntfText ++ str "'\n"))
  else (true, cmd)

/-- `EDS_LookupPayloadDetail`. -/
def lookupPayloadDetail (host : Host) (cmd : CommandData) : Bool × CommandData :=
  if host.getTypeInfo cmd.actualArg ≠ host.edsSuccess then
    (false, cmd.setError (str "Error retrieving info for code " ++ fmtx cmd.actualArg.toNat ++
      str "\n"))
  else
    match host.getIndexByName cmd.actualArg (str "Payload") with
    | some idx =>
      (true, { cmd with
        edsPayloadInfo := host.getMemberByIndex cmd.actualArg idx cmd.edsPayloadInfo })
    | none => (true, cmd)

/-! ## The lookup states -/

/-- `EDS_CheckValidIntf`. -/
def checkValidIntf (host : Host) (cmd : CommandData) : Checked :=
  let (cmd, steps) :=
    if cmd.intfState = .unknown then
      let (ok, cmd) := cmd.processDestIntf host
      if !ok then ({ cmd with intfState := .failed }, [.processDestIntf])
      else
        let (ok, cmd) := cmd.processCmdCode host
        if !ok then ({ cmd with intfState := .failed }, [.processDestIntf, .processCmdCode])
        else ({ cmd with intfState := .success }, [.processDestIntf, .processCmdCode])
    else (cmd, [])
  ⟨cmd.intfState = .success, cmd, steps⟩

/-- `EDS_CheckValidPayload`. -/
def checkValidPayload (host : Host) (cmd : CommandData) : Checked :=
  let (cmd, steps) :=
    if cmd.payloadState = .unknown then
      let intf := cmd.checkValidIntf host
      if !intf.ok then ({ intf.cmd with payloadState := .failed }, intf.steps)
      else
        let (ok, cmd) := intf.cmd.lookupPayloadDetail host
        if !ok then ({ cmd with payloadState := .failed }, intf.steps)
        else
          let (rc, buf) := host.initializeNativeObject cmd.actualArg cmd.buf
          let cmd := { cmd with buf := buf }
          if rc ≠ host.edsSuccess then
            ({ cmd.setError (str "EdsLib_DataTypeDB_InitializeNativeObject(): " ++ fmtD rc ++
              str "\n") with payloadState := .failed }, intf.steps ++ [.initializeNativeObject])
          else ({ cmd with payloadState := .success }, intf.steps ++ [.initializeNativeObject])
    else (cmd, [])
  ⟨cmd.payloadState = .success, cmd, steps⟩

/-! ## Parsing an option -/

/-- Set `LastErrorText` and `PayloadError`. -/
def rejectParameter (cmd : CommandData) (error : Text) : CommandData :=
  { cmd.setError error with payloadError := true }

/-- `EDS_ProcessParameterArgument`. It also cuts the argument at its `=`, in the
memory of `main`; nothing looks at the argument again. -/
def processParameterArgument (host : Host) (cmd : CommandData) (optarg : Text) :
    CommandData × List Step :=
  match strchr optarg (ch '=') with
  | none =>
    (cmd.rejectParameter (str "Parameter Argument: '" ++ optarg ++ str ("' rejected. Must be " ++
      "in the form: 'x=y' where x is the name and y is the value\n")), [])
  | some i =>
    let name := optarg.take i
    let value := optarg.drop (i + 1)
    let located := host.locateSubEntity cmd.edsPayloadInfo.edsId name ⟨0, 0⟩
    if located.1 ≠ host.edsSuccess then
      (cmd.rejectParameter (str "Dest App Argument: '" ++ name ++
        str "' rejected. Parameter not known.\n"), [])
    else
      let entity := located.2
      let scalar := host.scalarFromString entity.edsId
        (cmd.edsPayloadInfo.offset + entity.offset) cmd.buf value
      let cmd := { cmd with buf := scalar.2 }
      if scalar.1 ≠ 0 then
        (cmd.rejectParameter (str "Parameter Argument: Value '" ++ value ++
          str "' rejected. Unable to parse.\n"), [.writeParameter])
      else (cmd, [.writeParameter])

/-- Return a verdict without a step. -/
def answer (cmd : CommandData) (retcode : OptParse) : Outcome := ⟨retcode, cmd, []⟩

/-- The string that is copied to `TempString`: `len` bytes from the text on, cut
to the array. It can go beyond the terminator of the text. -/
def tempString (host : Host) (argV : ArgV) (len : Nat) : Text :=
  let len := if len ≥ optargSize then optargSize - 1 else len
  let mem : Mem := fun i => (argV.text ++ [0]).getD i (host.beyondText argV i)
  (mem.slice 0 len).takeWhile (· ≠ 0)

/-- The rest of `EDS_ParseDestFullImpl`, from the string at `Sep1` on. -/
def parseDest (cmd : CommandData) (sep1 : Text) (allowCmd : Bool) : Outcome :=
  let intf := sep1.takeWhile (· ≠ ch '.')
  let sep2 := (sep1.dropWhile (· ≠ ch '.')).drop 1
  let cmd := { cmd with destIntf := cmd.destIntf.setText (intf.take (optargSize - 1)) }
  if sep2.length > 0 then
    if allowCmd then
      { cmd with cmdName := cmd.cmdName.setText (sep2.take (optargSize - 1)) }.answer .accepted
    else cmd.answer .invalid
  else cmd.answer .accepted

/-- `EDS_ParseDestFullImpl`. The colon is looked for in `DestIntf`, not in the
text, so that `Sep1 - Text` is the distance between two arrays. -/
def parseDestFullImpl (host : Host) (cmd : CommandData) (argV : ArgV) (allowInst allowCmd : Bool) :
    Outcome :=
  match strchr cmd.destIntfText (ch ':') with
  | some i =>
    let len := (host.destIntfDistance argV + BitVec.ofNat 64 i).toNat
    let instanceNumber :=
      if allowInst then 0 else host.getInstanceNumber (tempString host argV len)
    let cmd := { cmd with params := { cmd.params with instanceNumber := instanceNumber } }
    if instanceNumber = 0 then cmd.answer .invalid
    else cmd.parseDest (cmd.destIntfText.drop (i + 1)) allowCmd
  | none => cmd.parseDest argV.text allowCmd

/-- `EDS_ParseDestFullCmd`. -/
def parseDestFullCmd (host : Host) (cmd : CommandData) (argV : ArgV) : Outcome :=
  cmd.parseDestFullImpl host argV true true

/-- `EDS_ParseDestApidOnly`. -/
def parseDestApidOnly (host : Host) (cmd : CommandData) (argV : ArgV) : Outcome :=
  cmd.parseDestFullImpl host argV true false

/-- `EDS_ParseDestCmdOnly`. `strncpy` fills the array up with zeros, apart from its
last byte. -/
def parseDestCmdOnly (cmd : CommandData) (text : Text) : Outcome :=
  let src := text.take (optargSize - 1)
  let src := src ++ List.replicate (optargSize - 1 - src.length) 0
  { cmd with cmdName := cmd.cmdName.copy 0 src }.answer .accepted

/-- The cases of the parser that set a header member from the text. -/
def parseHeader (host : Host) (cmd : CommandData) (type : HeaderType) (member : HeaderMember)
    (text : Text) : Outcome :=
  let (status, buf) :=
    host.scalarFromString (host.headerType type) (host.headerOffset member) cmd.buf text
  { cmd with buf := buf }.answer (if status = host.edsSuccess then .accepted else .undefined)

/-- The case for `--endian`. -/
def parseEndian (cmd : CommandData) (text : Text) : Outcome :=
  if text = str "EDS" then cmd.answer .accepted
  else
    (cmd.setError (str "endian selection: '" ++ text ++
      str "' incompatible for EDS mode\n")).answer .invalid

/-- The case for `--protocol`. -/
def parseProtocol (cmd : CommandData) (text : Text) : Outcome :=
  let cmd := { cmd with selectedProto := getProtocolFromString text }
  cmd.answer (if cmd.selectedProto = .undefined then .invalid else .accepted)

/-- The case for positional arguments. -/
def parseParameter (host : Host) (cmd : CommandData) (text : Text) : Outcome :=
  let payload := cmd.checkValidPayload host
  if payload.ok then
    let (cmd, steps) := payload.cmd.processParameterArgument host text
    ⟨.undefined, cmd, payload.steps ++ steps⟩
  else ⟨.undefined, payload.cmd, payload.steps⟩

end CommandData

/-- `EDS_Instantiate`. It is `none` when the lookup of the command header fails: the source
then writes through the null pointer, which is the end of the program. -/
def instantiate (host : Host) : Option CommandData :=
  if host.getTypeInfo host.commandHeader ≠ host.edsSuccess then none
  else some
    { destIntf := fun _ => 0
      cmdName := fun _ => 0
      intfState := .unknown
      payloadState := .unknown
      payloadError := false
      selectedProto := .undefined
      intfEdsId := 0
      intfArg := 0
      actualArg := 0
      params := ⟨0, 1⟩
      pubSub := ⟨0⟩
      edsPayloadInfo := ⟨0, 0⟩
      buf := host.setSeqFlag (fun _ => 0) 3
      lastErrorText := [] }

/-- `EDS_ParseOption`. -/
def parseOption (host : Host) (cmd : CommandData) (argV : ArgV) : Outcome :=
  let text := argV.text
  match argV.optionId with
  | .endian => cmd.parseEndian text
  | .protocol => cmd.parseProtocol text
  | .pktedsver | .pktid => cmd.parseDestFullCmd host argV
  | .pktapid => cmd.parseDestApidOnly host argV
  | .pktpb => cmd.parseHeader host .singleBitFlag .playback text
  | .cmdcode | .pktfc => cmd.parseDestCmdOnly text
  | .pktseqflg => cmd.parseHeader host .secHdrFlags .seqFlag text
  | .pktseqcnt => cmd.parseHeader host .seqCount .sequence text
  | .pktendian => cmd.parseHeader host .singleBitFlag .endian text
  | .pktsubsys => cmd.parseHeader host .subsystemId .subsystemId text
  | .pktver => cmd.parseHeader host .versionId .versionId text
  | .pktsys => cmd.parseHeader host .subsystemId .systemId text
  | .none => cmd.parseParameter host text
  | _ => cmd.answer .undefined

/-- The line that `EDS_ParseDestFullImpl` logs about a text that it refuses. -/
def instanceError (specifier : Text) : Text :=
  str "Instance specifier '" ++ specifier ++ str "' invalid.\n"

namespace CommandData

/-- What `EDS_ParseDestFullImpl` logs from the string at `Sep1` on. -/
def parseDestErrors (sep1 : Text) (allowCmd : Bool) : List Text :=
  let sep2 := (sep1.dropWhile (· ≠ ch '.')).drop 1
  if sep2.length > 0 ∧ allowCmd = false then [instanceError sep2] else []

/-- What `EDS_ParseDestFullImpl` logs. -/
def parseDestFullErrors (host : Host) (cmd : CommandData) (argV : ArgV)
    (allowInst allowCmd : Bool) : List Text :=
  match strchr cmd.destIntfText (ch ':') with
  | some i =>
    let specifier :=
      tempString host argV (host.destIntfDistance argV + BitVec.ofNat 64 i).toNat
    if (if allowInst then 0 else host.getInstanceNumber specifier) = 0 then
      [instanceError specifier]
    else parseDestErrors (cmd.destIntfText.drop (i + 1)) allowCmd
  | none => parseDestErrors argV.text allowCmd

end CommandData

/-- The lines that `EDS_ParseOption` logs as errors. -/
def parseOptionErrors (host : Host) (cmd : CommandData) (argV : ArgV) : List Text :=
  match argV.optionId with
  | .protocol => protocolErrors argV.text
  | .pktedsver | .pktid => cmd.parseDestFullErrors host argV true true
  | .pktapid => cmd.parseDestFullErrors host argV true false
  | _ => []

/-- What `EDS_HelpUsage` prints. -/
inductive Usage
  | interfaces
  | payloadFields (id : EdsId)
  | commandCodes (id : EdsId)
  | noPayload
deriving DecidableEq, Repr

/-- `EDS_HelpUsage`. -/
def helpUsage (host : Host) (cmd : CommandData) : Usage × CommandData × List Step :=
  let intf := cmd.checkValidIntf host
  let payload := intf.cmd.checkValidPayload host
  let cmd := payload.cmd
  let usage : Usage :=
    if !host.isValid cmd.intfEdsId then .interfaces
    else if host.isValid cmd.edsPayloadInfo.edsId then .payloadFields cmd.edsPayloadInfo.edsId
    else if cmd.cmdName 0 = 0 then .commandCodes cmd.intfArg
    else .noPayload
  (usage, cmd, intf.steps ++ payload.steps)

/-- What `EDS_GetPackedObject` returns and leaves behind. -/
structure Packed where
  ok : Bool
  cmd : CommandData
  out : Mem
  size : Nat
  steps : List Step

/-- `EDS_GetPackedObject`, for the output memory `out` and the value `sz` that the
size pointer holds. -/
def getPackedObject (host : Host) (cmd : CommandData) (out : Mem) (sz : Nat) : Packed :=
  let payload := cmd.checkValidPayload host
  let cmd := payload.cmd
  if !payload.ok then ⟨false, cmd, out, sz, payload.steps⟩
  else
    let packed := host.packCompleteObjectVarSize cmd.actualArg out cmd.buf sz
    let cmd := { cmd with actualArg := packed.2.1 }
    let out := packed.2.2.1
    if packed.1 ≠ host.edsSuccess then ⟨false, cmd, out, sz, payload.steps⟩
    else ⟨true, cmd, out, packed.2.2.2, payload.steps⟩

/-- The line that `EDS_GetPackedObject` logs as an error. -/
def getPackedObjectErrors (host : Host) (cmd : CommandData) (out : Mem) (sz : Nat) : List Text :=
  let payload := cmd.checkValidPayload host
  if !payload.ok then []
  else
    let rc := (host.packCompleteObjectVarSize payload.cmd.actualArg out payload.cmd.buf sz).1
    if rc ≠ host.edsSuccess then
      [str "EdsLib_DataTypeDB_PackCompleteObjectVarSize(): " ++ fmtD rc ++ str "\n"]
    else []

end CmdSend.Eds
