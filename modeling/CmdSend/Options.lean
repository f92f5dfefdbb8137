-- SUMMARY: Option ids, protocols and parser verdicts, the getopt table, and the option list that main builds from the command line.
import CmdSend.Lib.Text

/-!
# Options

The enumerations of `cmd_send.h` and the first stage of `main`: `collectOptions`
turns what `getopt_long` reports into the list of entries that the parsers
receive.
-/

namespace CmdSend

open CLib

/-! ## Enumerations -/

/-- `CmdSend_Protocol_t`, without its end marker. -/
inductive Protocol
  | undefined
  | raw
  | ccsdspri
  | ccsdsext
  | cfsv1
  | cfsv2
deriving DecidableEq, Repr

/-- `CmdSend_OptParse_t`. -/
inductive OptParse
  | invalid
  | undefined
  | accepted
deriving DecidableEq, Repr

/-- `CmdSend_OptionId_t`, without its end marker. -/
inductive OptionId
  | none
  | help
  | verbose
  | pktapid
  | pktpb
  | cmdcode
  | pktfc
  | pktedsver
  | endian
  | pktseqflg
  | pktname
  | pktseqcnt
  | host
  | pktid
  | pktendian
  | pktlen
  | port
  | protocol
  | pktcksum
  | pktsec
  | pkttype
  | pktsubsys
  | pktver
  | pktsys
  | byte
  | int8
  | double
  | float
  | half
  | int16
  | int16b
  | int32b
  | int64b
  | long
  | word
  | int32
  | uint8
  | uint16
  | uint32
  | uint64
  | int64
  | string
  | uint16b
  | uint32b
  | uint64b
deriving DecidableEq, Repr

/-- `CmdSend_ArgV_t`, as a parser receives it: `main` passes on only the entries
that have a text. -/
structure ArgV where
  optionId : OptionId
  text : Text
deriving DecidableEq, Repr

/-- `CmdSend_ArgV_t`, as `main` stores it. -/
structure ArgVEntry where
  optionId : OptionId
  text : Option Text
deriving DecidableEq, Repr

/-- The entry as the parsers receive it, if they do. -/
def ArgVEntry.argV? (e : ArgVEntry) : Option ArgV :=
  e.text.map fun t => ⟨e.optionId, t⟩

/-- `CmdSend_GetProtocolFromString`. The name `raw` is told apart from an unknown
name only in that no message is printed for it. -/
def getProtocolFromString (protocol : Text) : Protocol :=
  if protocol = str "ccsdspri" then .ccsdspri
  else if protocol = str "ccsdsext" then .ccsdsext
  else if protocol = str "cfsv1" then .cfsv1
  else if protocol = str "cfsv2" then .cfsv2
  else .undefined

/-- The line that `CmdSend_GetProtocolFromString` logs as an error. -/
def protocolErrors (protocol : Text) : List Text :=
  if getProtocolFromString protocol = .undefined ∧ protocol ≠ str "raw" then
    [str "ERROR: Invalid protocol: " ++ protocol ++ str "\n"]
  else []

/-! ## The option table -/

namespace OptionId

/-- The ids from 1 on, in the order of the enumeration. -/
def options : List OptionId :=
  [.help, .verbose, .pktapid, .pktpb, .cmdcode, .pktfc, .pktedsver, .endian, .pktseqflg,
    .pktname, .pktseqcnt, .host, .pktid, .pktendian, .pktlen, .port, .protocol, .pktcksum,
    .pktsec, .pkttype, .pktsubsys, .pktver, .pktsys, .byte, .int8, .double, .float, .half,
    .int16, .int16b, .int32b, .int64b, .long, .word, .int32, .uint8, .uint16, .uint32,
    .uint64, .int64, .string, .uint16b, .uint32b, .uint64b]

/-- The `val` column of `CMDSEND_OPTION_LONGINFO`. The entry of id 0 is zero. -/
def val : OptionId → Byte
  | .none => 0
  | .help => ch '?'
  | .verbose => ch 'v'
  | .pktapid => ch 'A'
  | .pktpb => ch 'B'
  | .cmdcode => ch 'C'
  | .pktfc => ch 'C'
  | .pktedsver => ch 'D'
  | .endian => ch 'E'
  | .pktseqflg => ch 'F'
  | .pktname => ch 'G'
  | .pktseqcnt => ch 'G'
  | .host => ch 'H'
  | .pktid => ch 'I'
  | .pktendian => ch 'J'
  | .pktlen => ch 'L'
  | .port => ch 'P'
  | .protocol => ch 'Q'
  | .pktcksum => ch 'R'
  | .pktsec => ch 'S'
  | .pkttype => ch 'T'
  | .pktsubsys => ch 'U'
  | .pktver => ch 'V'
  | .pktsys => ch 'Y'
  | .byte => ch 'b'
  | .int8 => ch 'b'
  | .double => ch 'd'
  | .float => ch 'f'
  | .half => ch 'h'
  | .int16 => ch 'h'
  | .int16b => ch 'i'
  | .int32b => ch 'j'
  | .int64b => ch 'k'
  | .long => ch 'l'
  | .word => ch 'l'
  | .int32 => ch 'l'
  | .uint8 => ch 'm'
  | .uint16 => ch 'n'
  | .uint32 => ch 'o'
  | .uint64 => ch 'p'
  | .int64 => ch 'q'
  | .string => ch 's'
  | .uint16b => ch 'w'
  | .uint32b => ch 'x'
  | .uint64b => ch 'y'

/-- The `has_arg` column of `CMDSEND_OPTION_LONGINFO`. -/
def hasArg : OptionId → Bool
  | .none | .help | .verbose => false
  | _ => true

end OptionId

/-- The table `reverse_opt_lookup`: a later option with the same character
overwrites an earlier one. -/
def reverseOptLookup : Byte → OptionId :=
  OptionId.options.foldl (fun table opt c => if c = opt.val then opt else table c) fun _ => .none

/-! ## Collecting the options -/

/-- One report of `getopt_long`: the option character and `optarg`. -/
structure GetoptResult where
  opt : Byte
  optarg : Option Text
deriving DecidableEq, Repr

/-- The entry that one report of `getopt_long` adds. The host, the port and the
verbosity leave the entry without a text. -/
def collectOption (r : GetoptResult) : ArgVEntry × Bool :=
  let id := reverseOptLookup r.opt
  if id.val ≠ r.opt ∨ id = .help then (⟨id, none⟩, true)
  else if id = .verbose ∨ id = .host ∨ id = .port then (⟨id, none⟩, false)
  else if id.hasArg ∧ r.optarg ≠ none then (⟨id, r.optarg⟩, false)
  else (⟨id, none⟩, false)

/-- `CollectOptions`: the entries of the options, then those of the other
arguments, and `ShowHelp`. -/
def collectOptions (opts : List GetoptResult) (nonoptions : List Text) :
    List ArgVEntry × Bool :=
  let collected := opts.map collectOption
  (collected.map (·.1) ++ nonoptions.map fun t => ⟨.none, some t⟩, collected.any (·.2))

/-- The options that `main` passes on to the parsers. -/
def parsedArgs (entries : List ArgVEntry) : List ArgV :=
  entries.filterMap ArgVEntry.argV?

/-- The ids of `main`'s entries that have a text. A name that shares its
character with a later one never gets this far: `--pktname` arrives as
`pktseqcnt`. -/
def OptionId.Collected (id : OptionId) : Prop :=
  id ∉ [OptionId.help, .verbose, .host, .port, .pktname]

instance (id : OptionId) : Decidable id.Collected :=
  inferInstanceAs (Decidable (id ∉ _))

theorem val_reverseOptLookup_ne_pktname (c : Byte) : reverseOptLookup c ≠ .pktname := by
  have h : ∀ c : Byte, reverseOptLookup c ≠ .pktname := by decide +kernel
  exact h c

theorem collectOption_collected {r : GetoptResult} {a : ArgV}
    (h : (collectOption r).1.argV? = some a) : a.optionId.Collected := by
  have hname := val_reverseOptLookup_ne_pktname r.opt
  simp only [collectOption] at h
  split at h
  · simp [ArgVEntry.argV?] at h
  · rename_i hhelp
    split at h
    · simp [ArgVEntry.argV?] at h
    · rename_i hrest
      split at h
      · simp only [ArgVEntry.argV?, Option.map_eq_some_iff] at h
        obtain ⟨t, -, rfl⟩ := h
        simp only [not_or] at hhelp hrest
        simp [OptionId.Collected, hhelp, hrest, hname]
      · simp [ArgVEntry.argV?] at h

/-- Every option that reaches a parser has an id that `collectOptions` can
produce. -/
theorem collectOptions_collected {opts : List GetoptResult} {nonoptions : List Text} {a : ArgV}
    (h : a ∈ parsedArgs (collectOptions opts nonoptions).1) : a.optionId.Collected := by
  simp only [parsedArgs, collectOptions, List.mem_filterMap, List.mem_append] at h
  obtain ⟨e, he | he, ha⟩ := h
  · simp only [List.map_map, List.mem_map, Function.comp_apply] at he
    obtain ⟨r, -, rfl⟩ := he
    exact collectOption_collected ha
  · obtain ⟨t, -, rfl⟩ := List.mem_map.mp he
    simp only [ArgVEntry.argV?, Option.map_some, Option.some.injEq] at ha
    subst ha
    simp [OptionId.Collected]

end CmdSend
