-- SUMMARY: The dispatcher of cmd_send.c: the table of encoders, the option loop of main, and the choice of the packet to send.
import CmdSend.Eds.Model
import CmdSend.PassThru.Model

/-!
# The dispatcher

`main` offers each option to every encoder that is still good, and then sends the
packet of the first encoder that builds one. The encoders are known to it through
`ParserApi` alone, and `edsApi` and `passThruApi` are the two of the repository.

An entry of the array `Parser` also lists the calls that the dispatcher made to its
encoder. An entry that is OK has an object, which is what its field `hasObj` says.

A call that does not come back is the end of the program. The state of the dispatcher does
not know about it: what an encoder leaves behind is given for every call, and `dies` looks
for a call of the run that does not come back.
-/

namespace CmdSend.Dispatch

open CLib

/-! ## Encoders -/

/-- What `GetPackedObject` returns and leaves behind. -/
structure PackResult (Obj : Type) where
  ok : Bool
  obj : Obj
  out : Mem
  size : Nat

/-- `CmdSend_Parser_API_t`, without `ShowHelp`, which only prints. The functions that
take an object get its state and return the new one; `instantiate` is `none` for a
null pointer. -/
structure ParserApi where
  name : Text
  Obj : Type
  instantiate : Option Obj
  /-- `Instantiate` comes back. -/
  instantiateReturns : Bool
  parseOption : Obj → ArgV → OptParse × Obj
  /-- `ParseOption` comes back. -/
  parseOptionReturns : Obj → ArgV → Bool
  /-- The lines that `ParseOption` logs as errors. -/
  parseOptionErrors : Obj → ArgV → List Text
  getErrorText : Option (Obj → Text)
  getPackedObject : Obj → Mem → Nat → PackResult Obj
  /-- The lines that `GetPackedObject` logs as errors. -/
  getPackedObjectErrors : Obj → Mem → Nat → List Text

/-- `EDS_API`. -/
def edsApi (host : Eds.Host) : ParserApi where
  name := str "EDS"
  Obj := Eds.CommandData
  instantiate := Eds.instantiate host
  instantiateReturns := (Eds.instantiate host).isSome
  parseOption cmd argV :=
    let r := Eds.parseOption host cmd argV
    (r.retcode, r.cmd)
  parseOptionReturns _ _ := true
  parseOptionErrors := Eds.parseOptionErrors host
  getErrorText := some fun cmd => cmd.lastErrorText
  getPackedObject cmd out sz :=
    let r := Eds.getPackedObject host cmd out sz
    ⟨r.ok, r.cmd, r.out, r.size⟩
  getPackedObjectErrors := Eds.getPackedObjectErrors host

/-- `PassThru_API`. -/
def passThruApi (host : PassThru.Host) : ParserApi where
  name := str "PassThrough"
  Obj := PassThru.CommandData
  instantiate := some PassThru.instantiate
  instantiateReturns := true
  parseOption cmd argV :=
    let r := PassThru.parseOption host cmd argV
    (r.retcode, r.cmd)
  parseOptionReturns cmd argV := !(PassThru.parseOption host cmd argV).died
  parseOptionErrors _ argV :=
    if argV.optionId = .protocol then protocolErrors argV.text else []
  getErrorText := some fun cmd => cmd.lastErrorText
  getPackedObject cmd out sz :=
    let r := PassThru.getPackedObject host cmd out sz
    ⟨r.ok, r.cmd, r.out, r.size⟩
  getPackedObjectErrors _ _ _ := []

/-- `CMDSEND_PARSER_API` of a build with `CFE_EDS_ENABLED`. -/
def parserApis (edsHost : Eds.Host) (host : PassThru.Host) : List ParserApi :=
  [edsApi edsHost, passThruApi host]

/-! ## The parser table -/

/-- A call of the dispatcher to an encoder, with its result. -/
inductive Call
  | parseOption (argV : ArgV) (retcode : OptParse)
  | getPackedObject (ok : Bool) (size : Nat)
deriving DecidableEq, Repr

/-- `CmdSend_OptParser_t`, for the encoder `api`. -/
structure OptParser (api : ParserApi) where
  obj : Option api.Obj
  isOK : Bool
  calls : List Call
  hasObj : isOK = true → obj.isSome = true

/-- An encoder with its entry of the array `Parser`. -/
structure Parser where
  api : ParserApi
  parser : OptParser api

/-- The members of `CommandData_t` that the dispatcher computes. `NumParsers` is the
length of `parser`. -/
structure CommandData where
  parser : List Parser
  goodParsers : Int
  contentSize : Nat
  netBuf : Mem

/-- `sizeof(CommandData.NetBuf)`. -/
def netBufSize : Nat := PassThru.maxPacketSize

/-- What `InstantiateParsers` makes of an entry. -/
def OptParser.instantiate (api : ParserApi) : OptParser api where
  obj := api.instantiate
  isOK := api.instantiate.isSome
  calls := []
  hasObj := id

/-- `InstantiateParsers`. -/
def instantiateParsers (apis : List ParserApi) : CommandData where
  parser := apis.map fun api => ⟨api, .instantiate api⟩
  goodParsers := apis.foldl (fun n api => if api.instantiate.isSome then n + 1 else n) 0
  contentSize := 0
  netBuf := fun _ => 0

/-- `ForeachParser`. The function gets the encoder, its entry and the members of
`CommandData` that it changes. -/
def foreachParser {σ : Type} (func : (api : ParserApi) → OptParser api → σ → OptParser api × σ) :
    List Parser → σ → List Parser × σ
  | [], s => ([], s)
  | ⟨api, parser⟩ :: rest, s =>
    let r := func api parser s
    let others := foreachParser func rest r.2
    (⟨api, r.1⟩ :: others.1, others.2)

/-- `DoParseOption`, with the counter `GoodParsers`. -/
def doParseOption (argV : ArgV) (api : ParserApi) (parser : OptParser api) (goodParsers : Int) :
    OptParser api × Int :=
  if h : parser.isOK = true then
    let r := api.parseOption (parser.obj.get (parser.hasObj h)) argV
    let calls := parser.calls ++ [.parseOption argV r.1]
    if r.1 = .invalid then (⟨some r.2, false, calls, nofun⟩, goodParsers - 1)
    else (⟨some r.2, true, calls, fun _ => rfl⟩, goodParsers)
  else (parser, goodParsers)

/-- `DoEncode`, with the members `ContentSize` and `NetBuf`. The buffer is what the
encoder left there, also when it failed. -/
def doEncode (api : ParserApi) (parser : OptParser api) (net : Nat × Mem) :
    OptParser api × (Nat × Mem) :=
  if h : net.1 = 0 ∧ parser.isOK = true then
    let r := api.getPackedObject (parser.obj.get (parser.hasObj h.2)) net.2 netBufSize
    (⟨some r.obj, true, parser.calls ++ [.getPackedObject r.ok r.size], fun _ => rfl⟩,
      if r.ok then r.size else net.1, r.out)
  else (parser, net)

/-- The line that `DoShowError` prints. -/
def doShowError (p : Parser) : Option Text :=
  match p.parser.obj, p.api.getErrorText with
  | some obj, some getErrorText => some (p.api.name ++ str ": " ++ getErrorText obj ++ str "\n")
  | _, _ => none

/-! ## The routine `main` -/

namespace CommandData

/-- `ForeachParser(DoParseOption, argv_ptr)`. -/
def parseOption (cmd : CommandData) (argV : ArgV) : CommandData :=
  let r := foreachParser (doParseOption argV) cmd.parser cmd.goodParsers
  { cmd with parser := r.1, goodParsers := r.2 }

/-- The loop of `main` over the entries. It stops early when no parser is good, and
skips the entries that have no text. -/
def parseOptions (cmd : CommandData) : List ArgVEntry → CommandData
  | [] => cmd
  | e :: es =>
    if cmd.goodParsers > 0 then
      match e.argV? with
      | some argV => (cmd.parseOption argV).parseOptions es
      | none => cmd.parseOptions es
    else cmd

/-- `ForeachParser(DoEncode, NULL)`. -/
def encode (cmd : CommandData) : CommandData :=
  let r := foreachParser doEncode cmd.parser (cmd.contentSize, cmd.netBuf)
  { cmd with parser := r.1, contentSize := r.2.1, netBuf := r.2.2 }

/-- The bytes that are sent, if there is a packet. -/
def packet (cmd : CommandData) : Option (List Byte) :=
  if cmd.contentSize = 0 then none else some (cmd.netBuf.slice 0 cmd.contentSize)

end CommandData

/-- The state of `main` after its option loop and the encoding. -/
def run (apis : List ParserApi) (entries : List ArgVEntry) : CommandData :=
  ((instantiateParsers apis).parseOptions entries).encode

/-! ## The calls of a run -/

/-- An option that the dispatcher offers to an encoder, with the object that it has then. -/
structure Offer where
  api : ParserApi
  obj : api.Obj
  argV : ArgV

/-- The offers of `ForeachParser(DoParseOption, argv_ptr)`. -/
def offersOf (argV : ArgV) : List Parser → List Offer
  | [] => []
  | ⟨api, parser⟩ :: rest =>
    if h : parser.isOK = true then
      ⟨api, parser.obj.get (parser.hasObj h), argV⟩ :: offersOf argV rest
    else offersOf argV rest

/-- The offers of `CommandData.parseOptions`. -/
def CommandData.offers (cmd : CommandData) : List ArgVEntry → List Offer
  | [] => []
  | e :: es =>
    if cmd.goodParsers > 0 then
      match e.argV? with
      | some argV => offersOf argV cmd.parser ++ (cmd.parseOption argV).offers es
      | none => cmd.offers es
    else []

/-- The offers of `main`. -/
def offers (apis : List ParserApi) (entries : List ArgVEntry) : List Offer :=
  (instantiateParsers apis).offers entries

/-- The program dies before it is done with the options. -/
def dies (apis : List ParserApi) (entries : List ArgVEntry) : Bool :=
  apis.any (fun api => !api.instantiateReturns) ||
    (offers apis entries).any fun o => !o.api.parseOptionReturns o.obj o.argV

/-- What is logged as an error while the options are parsed. -/
def parseErrors (apis : List ParserApi) (entries : List ArgVEntry) : List Text :=
  (offers apis entries).flatMap fun o => o.api.parseOptionErrors o.obj o.argV

/-- What `ForeachParser(DoEncode, NULL)` logs as an error. -/
def encodeErrors : List Parser → Nat × Mem → List Text
  | [], _ => []
  | ⟨api, parser⟩ :: rest, net =>
    let errors :=
      if h : net.1 = 0 ∧ parser.isOK = true then
        api.getPackedObjectErrors (parser.obj.get (parser.hasObj h.2)) net.2 netBufSize
      else []
    errors ++ encodeErrors rest (doEncode api parser net).2

/-- What a run that sends nothing prints, without the lines of `-v`: what the encoders log,
and at the end their error texts. -/
def failureLines (apis : List ParserApi) (entries : List ArgVEntry) : List Text :=
  let cmd := (instantiateParsers apis).parseOptions entries
  parseErrors apis entries ++ encodeErrors cmd.parser (cmd.contentSize, cmd.netBuf) ++
    str "Option parsing failed:\n" :: cmd.encode.parser.filterMap doShowError

/-- What comes of a call of the program. -/
inductive Result
  | died
  | help
  | failed (printed : List Text)
  | sent (bytes : List Byte)
deriving DecidableEq, Repr

/-- `main`, from the reports of `getopt_long` on. -/
def main (apis : List ParserApi) (opts : List GetoptResult) (nonoptions : List Text) : Result :=
  let collected := collectOptions opts nonoptions
  if dies apis collected.1 then .died
  else if collected.2 then .help
  else
    match (run apis collected.1).packet with
    | none => .failed (failureLines apis collected.1)
    | some bytes => .sent bytes

end CmdSend.Dispatch
