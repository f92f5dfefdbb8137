-- SUMMARY: The PassThru encoder of passthru_encode.c: its state, its option parser and its packer.
import CmdSend.Lib.IntType
import CmdSend.Options

/-!
# The PassThru encoder

The encoder keeps the header words and the payload of one packet. Each option
either sets a field of a header word, or appends bytes to the payload, and
`getPackedObject` lays the packet out.

`payloadBytes` is the C `unsigned int`, and `payload` is the memory from
`Payload[0]` on. An `Outcome` lists the extents of the `memcpy` and `memset` calls
into `Payload` that a call executed. The check of such a call only lets an extent
outside `Payload` through when it is almost 2^32 bytes long, and the call does not
come back from it: the program has died (`Outcome.died`).
-/

namespace CmdSend.PassThru

open CLib

/-- What the encoder takes from the machine and from the C library: the byte
order, the texts of `strerror`, and the conversions of floating-point texts to
a bit pattern and a tail. -/
structure Host where
  order : ByteOrder
  strerror : Errno → Text
  strtod : Text → BitVec 64 × Text
  strtof : Text → BitVec 32 × Text

/-- `CMDSEND_MAX_PACKET_SIZE`, and `sizeof(cmd->Payload)`. -/
def maxPacketSize : Nat := 2048

/-- `sizeof(cmd->LastErrorText)`. -/
def errorTextSize : Nat := 160

/-- The arrays `CCSDS_Pri` and `CCSDS_Ext` have 3 and 2 words. -/
scoped instance neZeroPri : NeZero 3 := ⟨Nat.succ_ne_zero 2⟩

scoped instance neZeroExt : NeZero 2 := ⟨Nat.succ_ne_zero 1⟩

/-- The words of the three headers, under the names of their arrays. -/
inductive HdrWord
  | ccsdsPri (i : Fin 3)
  | ccsdsExt (i : Fin 2)
  | cfsCmdSecHdr
deriving DecidableEq, Repr

/-- `CommandData_t`. The member `Verbose`, which nothing reads, is left out. -/
structure CommandData where
  /-- The header words as they are stored, that is, in big-endian layout. -/
  hdr : HdrWord → BitVec 16
  payloadError : Bool
  bigEndian : Bool
  includeCCSDSPri : Bool
  includeCCSDSExt : Bool
  includeCFSSec : Bool
  overridePktType : Bool
  overridePktSec : Bool
  overridePktSeqFlg : Bool
  overridePktLen : Bool
  overridePktEndian : Bool
  overridePktCksum : Bool
  lastErrorText : Text
  payloadBytes : BitVec 32
  payload : Mem

/-- What a call returns and leaves behind, unless one of its writes is the end of the
program. -/
structure Outcome where
  retcode : OptParse
  cmd : CommandData
  writes : List Extent

/-- A `memcpy` or `memset` of the call leaves `Payload`: the call does not return. -/
def Outcome.died (o : Outcome) : Bool := o.writes.any fun e => !decide (e.Within maxPacketSize)

namespace CommandData

/-! ## Helpers -/

/-- Return a verdict that changes nothing in `Payload`. -/
def answer (cmd : CommandData) (retcode : OptParse) : Outcome := ⟨retcode, cmd, []⟩

/-- Set `LastErrorText` and return `CmdSend_OptParse_INVALID`. -/
def reject (cmd : CommandData) (error : Text) : Outcome :=
  { cmd with lastErrorText := snprintf errorTextSize error }.answer .invalid

/-- `*word = value`, for a header word. -/
def setWord (cmd : CommandData) (word : HdrWord) (value : BitVec 16) : CommandData :=
  { cmd with hdr := Function.update cmd.hdr word value }

/-- `PassThru_SetProtocol`. -/
def setProtocol (cmd : CommandData) (selected : Protocol) : Outcome :=
  let cmd := { cmd with includeCCSDSPri := false, includeCCSDSExt := false, includeCFSSec := false }
  match selected with
  | .ccsdspri => { cmd with includeCCSDSPri := true }.answer .accepted
  | .ccsdsext => { cmd with includeCCSDSPri := true, includeCCSDSExt := true }.answer .accepted
  | .cfsv1 => { cmd with includeCCSDSPri := true, includeCFSSec := true }.answer .accepted
  | .cfsv2 =>
    { cmd with includeCCSDSPri := true, includeCCSDSExt := true, includeCFSSec := true }.answer
      .accepted
  | .raw => cmd.answer .accepted
  | .undefined => cmd.answer .invalid

/-- The loop of `PassThru_ProcessField` that finds the shift of a mask. A
non-zero mask of 16 bits ends it within 16 rounds. -/
def findShift (mask : BitVec 16) : Nat → Nat → Nat
  | 0, shift => shift
  | fuel + 1, shift =>
    if (mask >>> shift) &&& 1 = 0 then findShift mask fuel (shift + 1) else shift

def shiftOf (mask : BitVec 16) : Nat := findShift mask 16 0

/-- `~mask`, of the promoted `int`, as the `long` that it is compared in. -/
def notMask (mask : BitVec 16) : BitVec 64 := (~~~(mask.setWidth 32)).signExtend 64

/-- `PassThru_ProcessField`, for the word that `orig` points to. -/
def processField (host : Host) (cmd : CommandData) (orig : HdrWord) (text : Text)
    (mask : BitVec 16) (fieldexists : Bool) : Outcome :=
  if !fieldexists then
    cmd.reject (str "ERROR: PassThru_ProcessField:181 - " ++
      str "Field does not exist for selected protocol: " ++ text ++ str "\n")
  else
    let shift := shiftOf mask
    let conv := strtoul text
    if conv.errno ≠ .ok ∨ conv.tail = text then
      cmd.reject (str "ERROR: PassThru_ProcessField:200 - String conversion (" ++ text ++
        str "): " ++ host.strerror conv.errno ++ str "\n")
    else if conv.tail ≠ [] then
      cmd.reject (str "ERROR: PassThru_ProcessField:212 - Trailing characters (" ++ conv.tail ++
        str ") in parameter " ++ text ++ str "\n")
    else
      let templong := conv.value <<< shift
      if templong &&& notMask mask ≠ 0 then
        cmd.reject (str "ERROR: PassThru_ProcessField:225 - Parameter 0x" ++
          fmtX templong.toNat ++ str " (" ++ text ++ str "<<" ++ fmtU shift ++
          str ") exceeds mask 0x" ++ fmtX mask.toNat ++ str "\n")
      else
        let word := (betoh host.order (cmd.hdr orig) &&& ~~~mask) |||
          (templong.setWidth 16 &&& mask)
        (cmd.setWord orig (htobe host.order word)).answer .accepted

/-- The error text that `PassThru_CopyData` and `PassThru_PadData` share. -/
def exceededText (cmd : CommandData) (func : String) (line : Nat) (nbytes : BitVec 32) : Text :=
  str "ERROR " ++ str func ++ str ":" ++ fmtU line ++
    str " - Exceeded packet size, startbyte = " ++ fmtU cmd.payloadBytes.toNat ++
    str ", nbytes = " ++ fmtU nbytes.toNat ++ str ", max = " ++ fmtU maxPacketSize ++ str "\n"

/-- `PassThru_CopyData`. The sum of the check is one of `unsigned int`, and the `memcpy` may
be the end of the program. -/
def copyData (cmd : CommandData) (src : List Byte) (nbytes : BitVec 32) : Outcome :=
  if (cmd.payloadBytes + nbytes).toNat > maxPacketSize then
    cmd.reject (cmd.exceededText "PassThru_CopyData" 252 nbytes)
  else
    { retcode := .accepted
      cmd := { cmd with
        payload := cmd.payload.copy cmd.payloadBytes.toNat (src.take nbytes.toNat)
        payloadBytes := cmd.payloadBytes + nbytes }
      writes := [⟨cmd.payloadBytes.toNat, nbytes.toNat⟩] }

/-- `PassThru_PadData`. The `memset` may be the end of the program. -/
def padData (cmd : CommandData) (val : Byte) (nbytes : BitVec 32) : Outcome :=
  if (cmd.payloadBytes + nbytes).toNat > maxPacketSize then
    cmd.reject (cmd.exceededText "PassThru_PadData" 281 nbytes)
  else
    { retcode := .accepted
      cmd := { cmd with
        payload := cmd.payload.fill cmd.payloadBytes.toNat val nbytes.toNat
        payloadBytes := cmd.payloadBytes + nbytes }
      writes := [⟨cmd.payloadBytes.toNat, nbytes.toNat⟩] }

end CommandData

/-- `PassThru_CalcChecksum`: the loop over `bbuf[0 .. nbytes)`. -/
def calcChecksum (bbuf : Mem) (nbytes : Nat) : Byte :=
  (bbuf.slice 0 nbytes).foldl (· ^^^ ·) 0xFF

/-- `PassThru_Instantiate`. -/
def instantiate : CommandData :=
  let obj : CommandData :=
    { hdr := fun _ => 0
      payloadError := false
      bigEndian := true
      includeCCSDSPri := false
      includeCCSDSExt := false
      includeCFSSec := false
      overridePktType := false
      overridePktSec := false
      overridePktSeqFlg := false
      overridePktLen := false
      overridePktEndian := false
      overridePktCksum := false
      lastErrorText := []
      payloadBytes := 0
      payload := fun _ => 0 }
  (obj.setProtocol .cfsv1).cmd

/-! ## Parsing an option -/

/-- One of the blocks of `PassThru_ParseOption` for integer payload: the type of
its temporary, the line of its error text and the name in that text. -/
structure IntOption extends IntType where
  line : Nat
  name : String
deriving DecidableEq, Repr

namespace IntOption

def int8 : IntOption := ⟨⟨true, 8⟩, 457, "int8"⟩
def int16 : IntOption := ⟨⟨true, 16⟩, 542, "int16"⟩
def int32 : IntOption := ⟨⟨true, 32⟩, 574, "int32"⟩
def int64 : IntOption := ⟨⟨true, 64⟩, 717, "int64"⟩
def uint8 : IntOption := ⟨⟨false, 8⟩, 603, "uint8"⟩
def uint16 : IntOption := ⟨⟨false, 16⟩, 627, "uint16"⟩
def uint32 : IntOption := ⟨⟨false, 32⟩, 657, "uint32"⟩
def uint64 : IntOption := ⟨⟨false, 64⟩, 687, "uint64"⟩

/-- The temporary as the error text prints it. -/
def print (o : IntOption) (temp : BitVec o.width) : Text :=
  if o.signed then fmtD temp.toInt else fmtU temp.toNat

end IntOption

namespace CommandData

/-- The conversion that the multi-byte payload options apply. -/
def endianConversion (host : Host) (cmd : CommandData) (forcebigendian : Bool) {w : Nat}
    (temp : BitVec w) : BitVec w :=
  if cmd.bigEndian || forcebigendian then htobe host.order temp else htole host.order temp

/-- A block for integer payload. The blocks of one byte have no endian
conversion. -/
def intPayload (host : Host) (cmd : CommandData) (o : IntOption) (text : Text)
    (forcebigendian : Bool) : Outcome :=
  let conv := o.conversion text
  let temp := conv.value.setWidth o.width
  if conv.tail = text ∨ o.widen temp ≠ conv.value then
    cmd.reject (str "ERROR PassThru_ParseOption:" ++ fmtU o.line ++ str " - Parameter not " ++
      str o.name ++ str ": '" ++ text ++ str "' -> " ++ o.print temp ++ str "\n")
  else
    let temp := if o.width = 8 then temp else cmd.endianConversion host forcebigendian temp
    cmd.copyData (host.order.bytes temp) (BitVec.ofNat 32 (o.width / 8))

/-- A block for floating-point payload, from the result of `strtod` or
`strtof`. -/
def floatPayload (host : Host) (cmd : CommandData) {w : Nat} (line : Nat) (name : String)
    (text : Text) (conv : BitVec w × Text) (forcebigendian : Bool) : Outcome :=
  if conv.2 = text then
    cmd.reject (str "ERROR PassThru_ParseOption:" ++ fmtU line ++ str " - Parameter not " ++
      str name ++ str ": " ++ text ++ str "\n")
  else
    let temp := cmd.endianConversion host forcebigendian conv.1
    cmd.copyData (host.order.bytes temp) (BitVec.ofNat 32 (w / 8))

/-- The two calls of the block for `--string`, for the text after the colon and
the length before it. These have 64 bits, the byte counts that are passed on
have 32. -/
def copyAndPad (cmd : CommandData) (tail : Text) (tempull : Nat) : Outcome :=
  let len := tail.length
  let copied := cmd.copyData tail (BitVec.ofNat 32 len)
  if copied.retcode = .accepted ∧ len ≠ tempull then
    let padded := copied.cmd.padData 0 (BitVec.ofNat 32 (tempull - len))
    { padded with writes := copied.writes ++ padded.writes }
  else copied

/-- The block for `--string`. -/
def stringPayload (cmd : CommandData) (text : Text) : Outcome :=
  let conv := strtoull text
  let tempull := conv.value.toNat
  match conv.tail with
  | [] => cmd.reject (formatText text)
  | c :: tail =>
    if c ≠ ch ':' ∨ tempull = 0 then cmd.reject (formatText text)
    else if tail.length > tempull then
      cmd.reject (str "ERROR: PassThru_ParseOption:760 - Trailing characters (" ++ tail ++
        str ") in argument: '" ++ text ++ str "'\n")
    else cmd.copyAndPad tail tempull
where
  formatText (text : Text) : Text :=
    str "ERROR: PassThru_ParseOption:746 - String format is NNN:string, not: '" ++ text ++
      str "'\n"

/-- The block for `--endian`. -/
def parseEndian (cmd : CommandData) (text : Text) : Outcome :=
  if text = str "LE" then { cmd with bigEndian := false }.answer .accepted
  else if text = str "BE" then { cmd with bigEndian := true }.answer .accepted
  else
    cmd.reject (str "endian selection: '" ++ text ++
      str "' incompatible for passthrough mode\n")

end CommandData

/-- The switch that sets `forcebigendian`. -/
def forceBigEndian : OptionId → Bool
  | .int16b | .uint16b | .int32b | .uint32b | .int64b | .uint64b => true
  | _ => false

/-- Set an override flag after a field was processed, whatever came of it. -/
def Outcome.override (o : Outcome) (set : CommandData → CommandData) : Outcome :=
  { o with cmd := set o.cmd }

/-- `PassThru_ParseOption`. -/
def parseOption (host : Host) (cmd : CommandData) (argV : ArgV) : Outcome :=
  let text := argV.text
  let force := forceBigEndian argV.optionId
  match argV.optionId with
  | .none => { cmd with payloadError := true }.answer .undefined
  | .pktapid => cmd.processField host (.ccsdsPri 0) text 0x07FF cmd.includeCCSDSPri
  | .pktpb => cmd.processField host (.ccsdsExt 0) text 0x0200 cmd.includeCCSDSExt
  | .cmdcode | .pktfc => cmd.processField host .cfsCmdSecHdr text 0x7F00 cmd.includeCFSSec
  | .pktedsver => cmd.processField host (.ccsdsExt 0) text 0xF800 cmd.includeCCSDSExt
  | .endian => cmd.parseEndian text
  | .pktseqflg =>
    (cmd.processField host (.ccsdsPri 1) text 0xC000 cmd.includeCCSDSPri).override
      fun cmd => { cmd with overridePktSeqFlg := true }
  | .pktseqcnt => cmd.processField host (.ccsdsPri 1) text 0x3FFF cmd.includeCCSDSPri
  | .pktid => cmd.processField host (.ccsdsPri 0) text 0xFFFF cmd.includeCCSDSPri
  | .pktendian =>
    (cmd.processField host (.ccsdsExt 0) text 0x0400 cmd.includeCCSDSExt).override
      fun cmd => { cmd with overridePktEndian := true }
  | .pktlen =>
    (cmd.processField host (.ccsdsPri 2) text 0xFFFF cmd.includeCCSDSPri).override
      fun cmd => { cmd with overridePktLen := true }
  | .protocol => cmd.setProtocol (getProtocolFromString text)
  | .pktcksum =>
    (cmd.processField host .cfsCmdSecHdr text 0x00FF cmd.includeCFSSec).override
      fun cmd => { cmd with overridePktCksum := true }
  | .pktsec =>
    (cmd.processField host (.ccsdsPri 0) text 0x0800 cmd.includeCCSDSPri).override
      fun cmd => { cmd with overridePktSec := true }
  | .pkttype =>
    (cmd.processField host (.ccsdsPri 0) text 0x1000 cmd.includeCCSDSPri).override
      fun cmd => { cmd with overridePktType := true }
  | .pktsubsys => cmd.processField host (.ccsdsExt 0) text 0x01FF cmd.includeCCSDSExt
  | .pktver => cmd.processField host (.ccsdsPri 0) text 0xE000 cmd.includeCCSDSPri
  | .pktsys => cmd.processField host (.ccsdsExt 1) text 0xFFFF cmd.includeCCSDSExt
  | .byte | .int8 => cmd.intPayload host .int8 text force
  | .double => cmd.floatPayload host 480 "double" text (host.strtod text) force
  | .float => cmd.floatPayload host 510 "float" text (host.strtof text) force
  | .int16b | .half | .int16 => cmd.intPayload host .int16 text force
  | .long | .word | .int32b | .int32 => cmd.intPayload host .int32 text force
  | .uint8 => cmd.intPayload host .uint8 text force
  | .uint16b | .uint16 => cmd.intPayload host .uint16 text force
  | .uint32b | .uint32 => cmd.intPayload host .uint32 text force
  | .uint64b | .uint64 => cmd.intPayload host .uint64 text force
  | .int64b | .int64 => cmd.intPayload host .int64 text force
  | .string => cmd.stringPayload text
  | .help | .verbose | .pktname | .host | .port => cmd.answer .undefined

/-! ## Packing -/

namespace CommandData

/-- The representation of an array of header words. -/
def wordsBytes (host : Host) (cmd : CommandData) (words : List HdrWord) : List Byte :=
  words.flatMap fun w => host.order.bytes (cmd.hdr w)

/-- The array `CCSDS_Pri`. -/
def priWords : List HdrWord := [.ccsdsPri 0, .ccsdsPri 1, .ccsdsPri 2]

/-- The array `CCSDS_Ext`. -/
def extWords : List HdrWord := [.ccsdsExt 0, .ccsdsExt 1]

/-- The first sum of `PassThru_GetPackedObject`. It stays far below 2^64. -/
def packedSize (cmd : CommandData) : Nat :=
  let nbytes := cmd.payloadBytes.toNat
  let nbytes := if cmd.includeCCSDSPri then nbytes + 6 else nbytes
  let nbytes := if cmd.includeCCSDSExt then nbytes + 4 else nbytes
  if cmd.includeCFSSec then nbytes + 2 else nbytes

/-- `cmd->word |= htobe16(bits)`. -/
def orWord (host : Host) (cmd : CommandData) (word : HdrWord) (bits : BitVec 16) : CommandData :=
  cmd.setWord word (cmd.hdr word ||| htobe host.order bits)

/-- The part of `PassThru_GetPackedObject` that sets the fields that no option
has overridden. -/
def setDefaults (host : Host) (cmd : CommandData) (nbytes : Nat) : CommandData :=
  let cmd := if !cmd.overridePktType then cmd.orWord host (.ccsdsPri 0) 0x1000 else cmd
  let cmd :=
    if !cmd.overridePktSec && cmd.includeCFSSec then cmd.orWord host (.ccsdsPri 0) 0x0800 else cmd
  let cmd := if !cmd.overridePktSeqFlg then cmd.orWord host (.ccsdsPri 1) 0xC000 else cmd
  let cmd :=
    if !cmd.overridePktLen then
      cmd.setWord (.ccsdsPri 2) (htobe host.order ((BitVec.ofNat 64 nbytes - 7).setWidth 16))
    else cmd
  if !cmd.overridePktEndian && !cmd.bigEndian then cmd.orWord host (.ccsdsExt 0) 0x0400 else cmd

/-- The part of `PassThru_GetPackedObject` that copies the selected headers to
`out` and the checksum into the last of them: the memory and the number of
bytes. -/
def copyHeaders (host : Host) (cmd : CommandData) (out : Mem) : Mem × Nat :=
  let (out, nbytes) := (out, 0)
  let (out, nbytes) :=
    if cmd.includeCCSDSPri then (out.copy nbytes (cmd.wordsBytes host priWords), nbytes + 6)
    else (out, nbytes)
  let (out, nbytes) :=
    if cmd.includeCCSDSExt then (out.copy nbytes (cmd.wordsBytes host extWords), nbytes + 4)
    else (out, nbytes)
  if cmd.includeCFSSec then
    let (out, nbytes) := (out.copy nbytes (cmd.wordsBytes host [.cfsCmdSecHdr]), nbytes + 2)
    if !cmd.overridePktCksum then
      (Function.update out (nbytes - 1) (calcChecksum out nbytes), nbytes)
    else (out, nbytes)
  else (out, nbytes)

end CommandData

/-- What `PassThru_GetPackedObject` returns and leaves behind. -/
structure Packed where
  ok : Bool
  cmd : CommandData
  out : Mem
  size : Nat

/-- `PassThru_GetPackedObject`, for the output memory `out` and the value `sz`
that the size pointer holds. -/
def getPackedObject (host : Host) (cmd : CommandData) (out : Mem) (sz : Nat) : Packed :=
  let nbytes := cmd.packedSize
  if nbytes > sz then ⟨false, cmd, out, sz⟩
  else
    let cmd := cmd.setDefaults host nbytes
    let (out, nbytes) := cmd.copyHeaders host out
    let out := out.copy nbytes (cmd.payload.slice 0 cmd.payloadBytes.toNat)
    let nbytes := nbytes + cmd.payloadBytes.toNat
    ⟨true, cmd, out, nbytes⟩

end CmdSend.PassThru
