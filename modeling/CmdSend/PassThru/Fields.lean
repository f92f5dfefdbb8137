-- SUMMARY: The named header fields and their layout, the kinds of options, and parseOption by kind.
import CmdSend.PassThru.Model
import CmdSend.Lib.BitField

/-!
# Header fields and kinds of options

The CCSDS layout as a table: each named field has a header, a word and a run of
bits. The masks of `parseOption` are related to that table, and the forty-odd
cases of its switch fall into nine kinds.
-/

namespace CmdSend.PassThru

open CLib

inductive Header
  | pri
  | ext
  | sec
deriving DecidableEq, Repr

/-- The named fields, and the macro `--pktid` for the first word. -/
inductive Field
  | version
  | type
  | secHdr
  | apid
  | pktid
  | seqFlags
  | seqCount
  | length
  | edsVersion
  | endian
  | playback
  | subsystem
  | system
  | functionCode
  | checksum
deriving DecidableEq, Repr

namespace Field

def word : Field → HdrWord
  | .version | .type | .secHdr | .apid | .pktid => .ccsdsPri 0
  | .seqFlags | .seqCount => .ccsdsPri 1
  | .length => .ccsdsPri 2
  | .edsVersion | .endian | .playback | .subsystem => .ccsdsExt 0
  | .system => .ccsdsExt 1
  | .functionCode | .checksum => .cfsCmdSecHdr

def header (f : Field) : Header :=
  match f.word with
  | .ccsdsPri _ => .pri
  | .ccsdsExt _ => .ext
  | .cfsCmdSecHdr => .sec

/-- The bits of the field in its word, from the CCSDS layout. -/
def bits : Field → BitField
  | .version => ⟨13, 3⟩
  | .type => ⟨12, 1⟩
  | .secHdr => ⟨11, 1⟩
  | .apid => ⟨0, 11⟩
  | .pktid => ⟨0, 16⟩
  | .seqFlags => ⟨14, 2⟩
  | .seqCount => ⟨0, 14⟩
  | .length => ⟨0, 16⟩
  | .edsVersion => ⟨11, 5⟩
  | .endian => ⟨10, 1⟩
  | .playback => ⟨9, 1⟩
  | .subsystem => ⟨0, 9⟩
  | .system => ⟨0, 16⟩
  | .functionCode => ⟨8, 7⟩
  | .checksum => ⟨0, 8⟩

/-- The mask that `parseOption` passes for the field. -/
def mask : Field → BitVec 16
  | .version => 0xE000
  | .type => 0x1000
  | .secHdr => 0x0800
  | .apid => 0x07FF
  | .pktid => 0xFFFF
  | .seqFlags => 0xC000
  | .seqCount => 0x3FFF
  | .length => 0xFFFF
  | .edsVersion => 0xF800
  | .endian => 0x0400
  | .playback => 0x0200
  | .subsystem => 0x01FF
  | .system => 0xFFFF
  | .functionCode => 0x7F00
  | .checksum => 0x00FF

theorem covered_mask (f : Field) : f.bits.CoveredBy f.mask := by
  cases f <;> decide

theorem shiftOf_mask (f : Field) : CommandData.shiftOf f.mask = f.bits.lo := by
  cases f <;> decide

theorem bits_le (f : Field) : f.bits.lo + f.bits.len ≤ 16 := by
  cases f <;> decide

theorem len_pos (f : Field) : 0 < f.bits.len := by
  cases f <;> decide

/-- Two different fields of one word do not overlap, `--pktid` apart. -/
theorem avoided_mask {f g : Field} (hne : f ≠ g) (hw : f.word = g.word) (hf : f ≠ .pktid)
    (hg : g ≠ .pktid) : f.bits.AvoidedBy g.mask := by
  revert hne hw hf hg
  cases f <;> cases g <;> decide

/-- The override flag that an option for the field sets. -/
def setOverride (f : Field) (cmd : CommandData) : CommandData :=
  match f with
  | .type => { cmd with overridePktType := true }
  | .secHdr => { cmd with overridePktSec := true }
  | .seqFlags => { cmd with overridePktSeqFlg := true }
  | .length => { cmd with overridePktLen := true }
  | .endian => { cmd with overridePktEndian := true }
  | .checksum => { cmd with overridePktCksum := true }
  | _ => cmd

end Field

/-- The include flag of a header. -/
def CommandData.includes (cmd : CommandData) : Header → Bool
  | .pri => cmd.includeCCSDSPri
  | .ext => cmd.includeCCSDSExt
  | .sec => cmd.includeCFSSec

/-- The headers of a protocol. -/
def protocolIncludes : Protocol → Header → Bool
  | .ccsdspri, .pri => true
  | .ccsdsext, .pri => true
  | .ccsdsext, .ext => true
  | .cfsv1, .pri => true
  | .cfsv1, .sec => true
  | .cfsv2, _ => true
  | _, _ => false

/-! ## Kinds of options -/

/-- What `parseOption` does with an option id. -/
inductive Kind
  | positional
  | ignored
  | field (f : Field)
  | endian
  | protocol
  | int (o : IntOption)
  | double
  | float
  | string
deriving DecidableEq, Repr

def kind : OptionId → Kind
  | .none => .positional
  | .help | .verbose | .pktname | .host | .port => .ignored
  | .pktver => .field .version
  | .pkttype => .field .type
  | .pktsec => .field .secHdr
  | .pktapid => .field .apid
  | .pktid => .field .pktid
  | .pktseqflg => .field .seqFlags
  | .pktseqcnt => .field .seqCount
  | .pktlen => .field .length
  | .pktedsver => .field .edsVersion
  | .pktendian => .field .endian
  | .pktpb => .field .playback
  | .pktsubsys => .field .subsystem
  | .pktsys => .field .system
  | .cmdcode | .pktfc => .field .functionCode
  | .pktcksum => .field .checksum
  | .endian => .endian
  | .protocol => .protocol
  | .byte | .int8 => .int .int8
  | .int16b | .half | .int16 => .int .int16
  | .long | .word | .int32b | .int32 => .int .int32
  | .int64b | .int64 => .int .int64
  | .uint8 => .int .uint8
  | .uint16b | .uint16 => .int .uint16
  | .uint32b | .uint32 => .int .uint32
  | .uint64b | .uint64 => .int .uint64
  | .double => .double
  | .float => .float
  | .string => .string

/-- Options that are the only ones of their kind. -/
def soleOptions : List OptionId :=
  [.none, .pktid, .pktlen, .pktendian, .pktcksum, .endian, .protocol]

theorem optionId_of_kind {id : OptionId} (id' : OptionId) (hsole : id' ∈ soleOptions)
    (h : kind id = kind id') : id = id' := by
  simp only [soleOptions, List.mem_cons, List.not_mem_nil, or_false] at hsole
  rcases hsole with rfl | rfl | rfl | rfl | rfl | rfl | rfl <;>
    cases id <;> first | rfl | cases h

/-- The options that append to the payload. -/
def Kind.isPayload : Kind → Bool
  | .int _ | .double | .float | .string => true
  | _ => false

/-- `parseOption`, by the kind of the option. -/
def parseKind (host : Host) (cmd : CommandData) (text : Text) (force : Bool) : Kind → Outcome
  | .positional => { cmd with payloadError := true }.answer .undefined
  | .ignored => cmd.answer .undefined
  | .field f =>
    (cmd.processField host f.word text f.mask (cmd.includes f.header)).override f.setOverride
  | .endian => cmd.parseEndian text
  | .protocol => cmd.setProtocol (getProtocolFromString text)
  | .int o => cmd.intPayload host o text force
  | .double => cmd.floatPayload host 480 "double" text (host.strtod text) force
  | .float => cmd.floatPayload host 510 "float" text (host.strtof text) force
  | .string => cmd.stringPayload text

theorem parseOption_eq (host : Host) (cmd : CommandData) (a : ArgV) :
    parseOption host cmd a =
      parseKind host cmd a.text (forceBigEndian a.optionId) (kind a.optionId) := by
  obtain ⟨id, text⟩ := a
  cases id <;> rfl

/-! ## What the options of a run select -/

/-- The value of the last option that has one. -/
def lastOf {β : Type} (get : ArgV → Option β) (opts : List ArgV) : Option β :=
  opts.reverse.findSome? get

@[simp] theorem lastOf_nil {β : Type} (get : ArgV → Option β) : lastOf get [] = none := rfl

@[simp] theorem lastOf_append_singleton {β : Type} (get : ArgV → Option β) (opts : List ArgV)
    (a : ArgV) : lastOf get (opts ++ [a]) = (get a).or (lastOf get opts) := by
  simp only [lastOf, List.reverse_append, List.reverse_singleton, List.singleton_append,
    List.findSome?_cons]
  cases get a <;> rfl

theorem lastOf_eq_none_iff {β : Type} {get : ArgV → Option β} {opts : List ArgV} :
    lastOf get opts = none ↔ ∀ a ∈ opts, get a = none := by
  simp [lastOf]

def protocolOf (a : ArgV) : Option Protocol :=
  if a.optionId = .protocol then some (getProtocolFromString a.text) else none

/-- The protocol of the last `--protocol` option, or the default. -/
def protocolInForce (opts : List ArgV) : Protocol := (lastOf protocolOf opts).getD .cfsv1

def endianOf (a : ArgV) : Option ByteOrder :=
  if a.optionId = .endian then some (if a.text = str "LE" then .little else .big) else none

/-- The byte order of the last `--endian` option, or the default. -/
def endianInForce (opts : List ArgV) : ByteOrder := (lastOf endianOf opts).getD .big

/-- The number that an option gives to a field. -/
def fieldValueOf (f : Field) (a : ArgV) : Option Nat :=
  if kind a.optionId = .field f then some (strtoul a.text).value.toNat else none

end CmdSend.PassThru
