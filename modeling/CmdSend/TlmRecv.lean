-- SUMMARY: The program tlm_recv of tlm_recv.c and its two displays: the port, the receive loop, and what is shown of each datagram.
import CmdSend.Program

/-!
# Receiving telemetry

`main` of `tlm_recv.c` takes one datagram after the other into the same buffer and shows it
with the first display that can. The loop has no end but a failure of `recvfrom`, so that a
run is a list of arrivals. EdsLib and MissionLib are parameters, as for the encoder.
-/

namespace CmdSend.TlmRecv

open CLib

/-! ## The console -/

/-- `ConsoleUtils_LogLevel_t`, by its numbers. -/
inductive LogLevel
  | error
  | info
  | debug
deriving DecidableEq, Repr

def LogLevel.toNat : LogLevel → Nat
  | .error => 0
  | .info => 1
  | .debug => 2

/-- `ConsoleUtils_Log`. -/
def log (verbosity : Nat) (lev : LogLevel) (text : Text) : List Text :=
  if lev.toNat ≤ verbosity then [text] else []

/-- The contents of the two arrays on the stack that a hex dump starts with. -/
structure Stack where
  hexdumpLine : Mem
  chardumpLine : Mem

/-- What `ConsoleUtils_Hexdump` prints. -/
def hexdump (stack : Stack) (data : Mem) (size : Nat) : List Text :=
  ((Console.hexdump data size stack.hexdumpLine stack.chardumpLine).map
    Console.Hexdump.printed).getD []

/-! ## The displays -/

/-- What `DisplayObject` of a display returns, leaves of its object, and prints. -/
structure Displayed (Obj : Type) where
  done : Bool
  obj : Obj
  printed : List Text

/-- Where the object of a display lives. -/
inductive Storage
  | heap
  | static
deriving DecidableEq, Repr

/-- `TlmRecv_Display_API_t`, with the storage of the object that `Instantiate` returns. A null
pointer is `none`. -/
structure DisplayApi where
  name : Text
  Obj : Type
  instantiate : Option Obj
  storage : Storage
  displayObject : Nat → Stack → Obj → Mem → Nat → Displayed Obj

/-- `PassThru_DisplayObject`. -/
def passThruDisplayObject (stack : Stack) (data : Mem) (size : Nat) : Displayed Unit :=
  ⟨true, (), hexdump stack data size ++ [str "\n"]⟩

/-- `PassThru_API` of the display. Its object is a variable that is not used. -/
def passThruApi : DisplayApi where
  name := str "PassThrough"
  Obj := Unit
  instantiate := some ()
  storage := .static
  displayObject _ stack _ data size := passThruDisplayObject stack data size

/-- What the decoder uses of `EdsLib_EntityDescriptor_t`. -/
structure EntityDescriptor where
  edsId : BitVec 32
  offsetBits : Int
  offsetBytes : Nat
  fullName : Text

/-- `EdsLib_SizeInfo_t`. -/
structure SizeInfo where
  bits : Nat
  bytes : Nat
deriving DecidableEq, Repr

/-- What an unpacking call returns and leaves behind. -/
structure Unpacked where
  status : Int
  edsId : BitVec 32
  buf : Mem
  processed : SizeInfo

/-- The libraries, as the decoder calls them. -/
structure EdsHost where
  edsSuccess : Int
  missionSuccess : Int
  /-- The id of the datatype of the telemetry header. -/
  telemetryHeader : BitVec 32
  /-- `CFE_SB_TELEMETRY_CMD_ID`. -/
  telemetryCmd : BitVec 32
  /-- `sizeof(tlm->LocalBuffer)`. -/
  localBufferSize : Nat
  getTypeInfo : BitVec 32 → Int
  /-- For an id, the native buffer, the data, the maximum and the size processed so far. -/
  unpackPartialObjectVarSize : BitVec 32 → Mem → Mem → SizeInfo → SizeInfo → Unpacked
  /-- `TopicId`, by way of the parameters of the message. -/
  topicIdOf : Mem → Nat
  /-- The status and `ParentIntfId`. -/
  getTopicInfo : Nat → Int × BitVec 32
  findAllArgumentTypes : BitVec 32 → BitVec 32 → BitVec 32 → Int × BitVec 32
  getTypeName : BitVec 32 → Text
  verifyUnpackedObject : BitVec 32 → Mem → Mem → Int
  /-- The entities that `EdsLib_DisplayDB_IterateAllEntities` goes over. -/
  entities : BitVec 32 → List EntityDescriptor
  scalarToString : BitVec 32 → Mem → Nat → Text

/-- `EDS_DecodeDisplay`: the line of an entity. -/
def edsDecodeDisplay (host : EdsHost) (buf : Mem) (param : EntityDescriptor) : Text :=
  str "EDS_DecodeDisplay(): Bit=" ++ fmtLeft 4 (fmtD param.offsetBits) ++ str " " ++
    fmtRight 35 param.fullName ++ str " = " ++
    host.scalarToString param.edsId buf param.offsetBytes ++ str "\n"

/-- The end of `EDS_DisplayObject`: what it prints about an unpacked object, next to the status
of the verification. -/
def edsLines (host : EdsHost) (verbosity : Nat) (edsId : BitVec 32) (verified : Int) (buf : Mem) :
    List Text :=
  log verbosity .info (str "Formatcode=" ++ fmt0x 8 edsId.toNat ++ str " / " ++
      host.getTypeName edsId ++ str "\n") ++
    ((if verified ≠ host.edsSuccess then
      log verbosity .error (str "NOTE - EDS VERIFICATION FAILED: code=" ++ fmtD verified ++
        str "\n")
      else []) ++
    (host.entities edsId).map (edsDecodeDisplay host buf))

/-- `EDS_DisplayObject`, for the contents of `LocalBuffer`. -/
def edsDisplayObject (host : EdsHost) (verbosity : Nat) (stack : Stack) (localBuffer : Mem)
    (data : Mem) (size : Nat) : Displayed Mem :=
  let dump := hexdump stack data size
  let maxSize : SizeInfo := ⟨8 * size, host.localBufferSize⟩
  if host.getTypeInfo host.telemetryHeader ≠ host.edsSuccess then ⟨false, localBuffer, dump⟩
  else
    let header := host.unpackPartialObjectVarSize host.telemetryHeader localBuffer data maxSize
      ⟨0, 0⟩
    if header.status ≠ host.edsSuccess then ⟨false, header.buf, dump⟩
    else
      let topicInfo := host.getTopicInfo (host.topicIdOf header.buf)
      if topicInfo.1 ≠ host.missionSuccess then ⟨false, header.buf, dump⟩
      else
        let argument := host.findAllArgumentTypes host.telemetryCmd topicInfo.2 header.edsId
        if argument.1 ≠ host.edsSuccess then ⟨false, header.buf, dump⟩
        else
          let object := host.unpackPartialObjectVarSize argument.2 header.buf data maxSize
            header.processed
          if object.status ≠ host.edsSuccess then ⟨false, object.buf, dump⟩
          else
            let verified := host.verifyUnpackedObject object.edsId object.buf data
            ⟨true, object.buf, dump ++
              edsLines host verbosity object.edsId verified object.buf⟩

/-- `EDS_API` of the display. -/
def edsApi (host : EdsHost) : DisplayApi where
  name := str "EDS"
  Obj := Mem
  instantiate := some fun _ => 0
  storage := .heap
  displayObject := edsDisplayObject host

/-- `TLMRECV_DISPLAY_API` of a build with `CFE_EDS_ENABLED`. -/
def displayApis (host : EdsHost) : List DisplayApi := [edsApi host, passThruApi]

/-! ## The receive loop -/

/-- An entry of the array `Display`, with its display. -/
structure Display where
  api : DisplayApi
  obj : Option api.Obj

/-- `TlmData_t`. -/
structure TlmData where
  display : List Display
  netBuf : Mem

/-- `TLMRECV_MAX_PACKET_SIZE`. -/
def maxPacketSize : Nat := 2048

/-- `InstantiateDisplays`. -/
def instantiateDisplays (apis : List DisplayApi) : TlmData :=
  ⟨apis.map fun api => ⟨api, api.instantiate⟩, fun _ => 0⟩

/-- The line about a display that is asked. -/
def invokingLine (name : Text) : Text := str "Invoking " ++ name ++ str " decoder\n"

/-- `DisplayObject`: the entries after it, and what was printed. The `j`-th display finds the
stack `stackOf j`. -/
def displayObject (verbosity : Nat) (stackOf : Nat → Stack) (data : Mem) (size : Nat) :
    Nat → List Display → List Display × List Text
  | _, [] => ([], [])
  | j, ⟨api, none⟩ :: rest =>
    let others := displayObject verbosity stackOf data size (j + 1) rest
    (⟨api, none⟩ :: others.1, others.2)
  | j, ⟨api, some obj⟩ :: rest =>
    let invoking := log verbosity .info (invokingLine api.name)
    let r := api.displayObject verbosity (stackOf j) obj data size
    if r.done then (⟨api, some r.obj⟩ :: rest, invoking ++ r.printed)
    else
      let others := displayObject verbosity stackOf data size (j + 1) rest
      (⟨api, some r.obj⟩ :: others.1, invoking ++ r.printed ++ others.2)

/-- A datagram that arrives, with its sender as the program prints it, and what its displays
find on the stack. -/
structure Arrival where
  datagram : List Byte
  sender : Text
  stackOf : Nat → Stack

/-- What `recvfrom` stores of a datagram. -/
def Arrival.data (a : Arrival) : List Byte := a.datagram.take maxPacketSize

/-- The line about the sender of a datagram. -/
def Arrival.senderLine (a : Arrival) : Text :=
  str "Telemetry Packet From: " ++ a.sender ++ str ", " ++ fmtU a.data.length ++ str " bytes\n"

/-- The body of the receive loop: `recvfrom` cuts a datagram that is too long, and leaves what
is behind a shorter one. -/
def receive (verbosity : Nat) (tlm : TlmData) (a : Arrival) : TlmData × List Text :=
  let netBuf := tlm.netBuf.copy 0 a.data
  let r := displayObject verbosity a.stackOf netBuf a.data.length 0 tlm.display
  (⟨r.1, netBuf⟩, log verbosity .info a.senderLine ++ r.2)

/-- The receive loop: what it prints for each arrival. -/
def serve (verbosity : Nat) : TlmData → List Arrival → List (List Text)
  | _, [] => []
  | tlm, a :: arrivals =>
    let r := receive verbosity tlm a
    r.2 :: serve verbosity r.1 arrivals

/-! ## What a display shows -/

/-- A text that does not start with a digit is no line of a dump. -/
theorem readLine_of_head {t : Text} {c : Byte} (hhead : t.head? = some c)
    (h : digitIn 10 c = none) : Console.readLine t = none := by
  obtain ⟨rest, rfl⟩ := List.head?_eq_some_iff.mp hhead
  have hzero : c ≠ ch '0' := by
    rintro rfl
    cases h
  simp [Console.readLine, scanMagnitude, hzero, h]

theorem shownBytes_append (xs ys : List Text) :
    Console.shownBytes (xs ++ ys) = Console.shownBytes xs ++ Console.shownBytes ys := by
  rw [Console.shownBytes, List.filterMap_append, List.flatMap_append]
  rfl

/-- Texts that are no lines of a dump show nothing. -/
theorem shownBytes_eq_nil {texts : List Text} (h : ∀ t ∈ texts, Console.readLine t = none) :
    Console.shownBytes texts = [] := by
  rw [Console.shownBytes, List.filterMap_eq_nil_iff.mpr h]
  rfl

theorem shownBytes_log {t : Text} {c : Byte} (hhead : t.head? = some c)
    (h : digitIn 10 c = none) (verbosity : Nat) (lev : LogLevel) :
    Console.shownBytes (log verbosity lev t) = [] := by
  refine shownBytes_eq_nil fun x hx => ?_
  unfold log at hx
  split at hx
  · rw [List.mem_singleton.mp hx]
    exact readLine_of_head hhead h
  · cases hx

/-- The dump depends on nothing but the bytes that are dumped. -/
theorem hexdump_eq_dumpLines (stack : Stack) (data : Mem) (size : Nat) :
    hexdump stack data size = Console.dumpLines (data.slice 0 size) := by
  obtain ⟨d, hrun, -, hprinted⟩ :=
    Console.printed_hexdump data size stack.hexdumpLine stack.chardumpLine
  rw [hexdump, hrun]
  exact hprinted

/-- What follows a dump: nothing, the empty line of the PassThru display, or what the EDS
display prints about an object that EdsLib has unpacked. -/
inductive Tail (host : EdsHost) (verbosity : Nat) : List Text → Prop
  | undecoded : Tail host verbosity []
  | passThru : Tail host verbosity [str "\n"]
  | decoded (edsId : BitVec 32) (verified : Int) (buf : Mem) :
      Tail host verbosity (edsLines host verbosity edsId verified buf)

/-- What follows a dump is no dump. -/
theorem Tail.shownBytes_eq_nil {host : EdsHost} {verbosity : Nat} {tail : List Text}
    (h : Tail host verbosity tail) : Console.shownBytes tail = [] := by
  cases h with
  | undecoded => rfl
  | passThru => decide
  | decoded edsId verified buf =>
    have hlines :
        Console.shownBytes ((host.entities edsId).map (edsDecodeDisplay host buf)) = [] := by
      refine TlmRecv.shownBytes_eq_nil fun t ht => ?_
      obtain ⟨param, -, rfl⟩ := List.mem_map.mp ht
      exact readLine_of_head (c := ch 'E') rfl (by decide)
    unfold edsLines
    rw [shownBytes_append, shownBytes_append, hlines,
      shownBytes_log (c := ch 'F') rfl (by decide), List.append_nil, List.nil_append]
    split
    · exact shownBytes_log (c := ch 'N') rfl (by decide) verbosity _
    · rfl

/-- The display dumps the data that it is given, and prints nothing before that. -/
def DisplayApi.Shows (host : EdsHost) (api : DisplayApi) : Prop :=
  ∀ verbosity stack obj data size, ∃ tail, Tail host verbosity tail ∧
    (api.displayObject verbosity stack obj data size).printed =
      Console.dumpLines (data.slice 0 size) ++ tail

theorem shows_passThruApi (host : EdsHost) : passThruApi.Shows host := by
  intro verbosity stack obj data size
  exact ⟨_, .passThru, congrArg (· ++ _) (hexdump_eq_dumpLines stack data size)⟩

theorem shows_edsApi (host : EdsHost) : (edsApi host).Shows host := by
  intro verbosity stack obj data size
  change ∃ tail, _ ∧ (edsDisplayObject host verbosity stack obj data size).printed = _
  unfold edsDisplayObject
  rw [hexdump_eq_dumpLines]
  dsimp only
  have hundecoded : ∃ tail, Tail host verbosity tail ∧ Console.dumpLines (data.slice 0 size) =
      Console.dumpLines (data.slice 0 size) ++ tail := ⟨[], .undecoded, (List.append_nil _).symm⟩
  split
  · exact hundecoded
  split
  · exact hundecoded
  split
  · exact hundecoded
  split
  · exact hundecoded
  split
  · exact hundecoded
  · exact ⟨_, .decoded _ _ _, rfl⟩

/-- The displays have their objects, and show the data that they are given. -/
def Ready (host : EdsHost) (display : List Display) : Prop :=
  ∀ d ∈ display, d.obj.isSome = true ∧ d.api.Shows host

/-- What a display that was asked prints: its name, and what follows the dump. -/
structure Block where
  name : Text
  tail : List Text

def Block.lines (verbosity : Nat) (data : List Byte) (b : Block) : List Text :=
  log verbosity .info (invokingLine b.name) ++ Console.dumpLines data ++ b.tail

/-- A block shows the data. -/
theorem shownBytes_lines {host : EdsHost} {verbosity : Nat} {b : Block}
    (h : Tail host verbosity b.tail) (data : List Byte) :
    Console.shownBytes (b.lines verbosity data) = data := by
  unfold Block.lines
  rw [shownBytes_append, shownBytes_append, h.shownBytes_eq_nil,
    shownBytes_log (c := ch 'I') rfl (by decide), Console.shownBytes_dumpLines, List.append_nil,
    List.nil_append]

/-- The first displays are asked, at least one of them, and each prints a block. -/
theorem blocks_displayObject {host : EdsHost} {display : List Display} (hready : Ready host display)
    (verbosity : Nat) (stackOf : Nat → Stack) (data : Mem) (size j : Nat) :
    ∃ blocks : List Block, (display ≠ [] → blocks ≠ []) ∧
      blocks.map Block.name <+: display.map (·.api.name) ∧
      (∀ b ∈ blocks, Tail host verbosity b.tail) ∧
      (displayObject verbosity stackOf data size j display).2 =
        blocks.flatMap (Block.lines verbosity (data.slice 0 size)) := by
  induction display generalizing j with
  | nil => exact ⟨[], fun h => absurd rfl h, List.nil_prefix, nofun, rfl⟩
  | cons d rest ih =>
    obtain ⟨⟨hsome, hshows⟩, hrest⟩ := List.forall_mem_cons.mp hready
    obtain ⟨blocks, -, hnames, htails, hprinted⟩ := ih hrest (j + 1)
    obtain ⟨api, obj⟩ := d
    cases obj with
    | none => cases hsome
    | some obj =>
      obtain ⟨tail, htail, hblock⟩ := hshows verbosity (stackOf j) obj data size
      unfold displayObject
      dsimp only at hblock ⊢
      split
      · refine ⟨[⟨api.name, tail⟩], fun _ => List.cons_ne_nil _ _, ?_, ?_, ?_⟩
        · exact List.cons_prefix_cons.mpr ⟨rfl, List.nil_prefix⟩
        · exact List.forall_mem_singleton.mpr htail
        · rw [hblock, List.flatMap_singleton, Block.lines, List.append_assoc]
      · refine ⟨⟨api.name, tail⟩ :: blocks, fun _ => List.cons_ne_nil _ _, ?_, ?_, ?_⟩
        · exact List.cons_prefix_cons.mpr ⟨rfl, hnames⟩
        · exact List.forall_mem_cons.mpr ⟨htail, htails⟩
        · simp only [hblock, hprinted, List.flatMap_cons, Block.lines, List.append_assoc]

/-- The displays stay ready, and stay the same displays. -/
theorem ready_displayObject {host : EdsHost} {display : List Display} (hready : Ready host display)
    (verbosity : Nat) (stackOf : Nat → Stack) (data : Mem) (size j : Nat) :
    Ready host (displayObject verbosity stackOf data size j display).1 ∧
      (displayObject verbosity stackOf data size j display).1.map Display.api =
        display.map Display.api := by
  induction display generalizing j with
  | nil => exact ⟨hready, rfl⟩
  | cons d rest ih =>
    obtain ⟨⟨hsome, hshows⟩, hrest⟩ := List.forall_mem_cons.mp hready
    obtain ⟨hnext, hapis⟩ := ih hrest (j + 1)
    obtain ⟨api, obj⟩ := d
    cases obj with
    | none => cases hsome
    | some obj =>
      unfold displayObject
      dsimp only
      split
      · exact ⟨List.forall_mem_cons.mpr ⟨⟨rfl, hshows⟩, hrest⟩, rfl⟩
      · exact ⟨List.forall_mem_cons.mpr ⟨⟨rfl, hshows⟩, hnext⟩, congrArg (api :: ·) hapis⟩

/-! ## What a run shows -/

/-- What is printed of an arrival: the line about its sender, and for each display that was
asked a block with the dump of its datagram. -/
structure ShownBy (host : EdsHost) (apis : List DisplayApi) (verbosity : Nat) (a : Arrival)
    (printed : List Text) : Prop where
  blocks : ∃ blocks : List Block, blocks ≠ [] ∧
    blocks.map Block.name <+: apis.map DisplayApi.name ∧
    (∀ b ∈ blocks, Tail host verbosity b.tail) ∧
    printed = log verbosity .info a.senderLine ++ blocks.flatMap (Block.lines verbosity a.data)
  /-- The datagram can be read back, once for each of these displays. -/
  shown : ∃ k, 1 ≤ k ∧ k ≤ apis.length ∧
    Console.shownBytes printed = (List.replicate k a.data).flatten

/-- The blocks of an arrival show it. -/
theorem shownBy_of_blocks {host : EdsHost} {apis : List DisplayApi} {verbosity : Nat}
    {a : Arrival} {blocks : List Block} (hne : blocks ≠ [])
    (hnames : blocks.map Block.name <+: apis.map DisplayApi.name)
    (htails : ∀ b ∈ blocks, Tail host verbosity b.tail) :
    ShownBy host apis verbosity a
      (log verbosity .info a.senderLine ++ blocks.flatMap (Block.lines verbosity a.data)) := by
  refine ⟨⟨blocks, hne, hnames, htails, rfl⟩, blocks.length, ?_, ?_, ?_⟩
  · exact List.length_pos_iff.mpr hne
  · simpa using hnames.length_le
  · rw [shownBytes_append, shownBytes_log (c := ch 'T') rfl (by decide), List.nil_append]
    clear hne hnames
    induction blocks with
    | nil => rfl
    | cons b blocks ih =>
      obtain ⟨hfirst, hrest⟩ := List.forall_mem_cons.mp htails
      rw [List.flatMap_cons, shownBytes_append, shownBytes_lines hfirst, ih hrest,
        List.length_cons, List.replicate_succ, List.flatten_cons]

/-- The displays are those of a list, and ready. -/
structure Serving (host : EdsHost) (apis : List DisplayApi) (tlm : TlmData) : Prop where
  ready : Ready host tlm.display
  apis : tlm.display.map Display.api = apis

section

variable {host : EdsHost} {apis : List DisplayApi} {tlm : TlmData}

theorem serving_receive (h : Serving host apis tlm) (verbosity : Nat) (a : Arrival) :
    Serving host apis (receive verbosity tlm a).1 := by
  obtain ⟨hready, hapis⟩ := ready_displayObject h.ready verbosity a.stackOf
    (tlm.netBuf.copy 0 a.data) a.data.length 0
  exact ⟨hready, hapis.trans h.apis⟩

theorem shownBy_receive (h : Serving host apis tlm) (hne : apis ≠ []) (verbosity : Nat)
    (a : Arrival) : ShownBy host apis verbosity a (receive verbosity tlm a).2 := by
  obtain ⟨blocks, hblocks, hnames, htails, hprinted⟩ := blocks_displayObject h.ready verbosity
    a.stackOf (tlm.netBuf.copy 0 a.data) a.data.length 0
  have hdisplay : tlm.display ≠ [] := by
    intro hnil
    refine hne ?_
    rw [← h.apis, hnil]
    rfl
  have hapis : tlm.display.map (·.api.name) = apis.map DisplayApi.name := by
    rw [← h.apis, List.map_map]
    rfl
  unfold receive
  dsimp only
  rw [hprinted, Mem.slice_copy_same]
  exact shownBy_of_blocks (hblocks hdisplay) (hapis ▸ hnames) htails

theorem shownBy_serve (h : Serving host apis tlm) (hne : apis ≠ []) (verbosity : Nat)
    (arrivals : List Arrival) :
    List.Forall₂ (ShownBy host apis verbosity) arrivals (serve verbosity tlm arrivals) := by
  induction arrivals generalizing tlm with
  | nil => exact .nil
  | cons a arrivals ih =>
    exact .cons (shownBy_receive h hne verbosity a) (ih (serving_receive h verbosity a))

end

/-- Either build starts with its displays. -/
theorem serving_of_builds {host : EdsHost} {apis : List DisplayApi}
    (hbuild : apis = displayApis host ∨ apis = [passThruApi]) :
    apis ≠ [] ∧ Serving host apis (instantiateDisplays apis) := by
  have hlast : Ready host [⟨passThruApi, passThruApi.instantiate⟩] := by
    intro d hd
    rw [List.mem_singleton.mp hd]
    exact ⟨rfl, shows_passThruApi host⟩
  cases hbuild with
  | inl heq =>
    subst heq
    exact ⟨List.cons_ne_nil _ _, List.forall_mem_cons.mpr ⟨⟨rfl, shows_edsApi host⟩, hlast⟩, rfl⟩
  | inr heq =>
    subst heq
    exact ⟨List.cons_ne_nil _ _, hlast, rfl⟩

/-- Libraries that know no telemetry. -/
def EdsHost.sample : EdsHost where
  edsSuccess := 0
  missionSuccess := 0
  telemetryHeader := 1
  telemetryCmd := 2
  localBufferSize := 16
  getTypeInfo _ := 0
  unpackPartialObjectVarSize id buf _ _ processed := ⟨0, id, buf, processed⟩
  topicIdOf _ := 0
  getTopicInfo _ := (-1, 0)
  findAllArgumentTypes _ _ id := (-1, id)
  getTypeName _ := []
  verifyUnpackedObject _ _ _ := 0
  entities _ := []
  scalarToString _ _ _ := []

/-- What the PassThru display prints of an arrival. -/
theorem printed_receive_passThruApi {tlm : TlmData} (h : tlm.display = [⟨passThruApi, some ()⟩])
    (verbosity : Nat) (a : Arrival) :
    (receive verbosity tlm a).2 = log verbosity .info a.senderLine ++
      (log verbosity .info (invokingLine (str "PassThrough")) ++
        (Console.dumpLines a.data ++ [str "\n"])) := by
  have hdump := hexdump_eq_dumpLines (a.stackOf 0) (tlm.netBuf.copy 0 a.data) a.data.length
  rw [Mem.slice_copy_same] at hdump
  unfold receive
  dsimp only
  rw [h, ← hdump]
  rfl

/-- A datagram of `cmd_send` is dumped by the PassThru display as it was dumped when it was
sent. -/
theorem printed_receive_of_sent {m : Program.Machine} {argv : List Text} {d : Console.Hexdump}
    {s : Udp.Sent m.net} (hmain : Program.main m argv = .sent (some d) s) {sd : Nat}
    {packet : List Byte} {rc : Int} (hsent : (sd, packet, rc) ∈ Udp.sends s.events)
    (hlen : packet.length ≤ maxPacketSize) {tlm : TlmData}
    (htlm : tlm.display = [⟨passThruApi, some ()⟩]) {a : Arrival} (harrival : a.datagram = packet)
    (verbosity : Nat) :
    (receive verbosity tlm a).2 = log verbosity .info a.senderLine ++
      (log verbosity .info (invokingLine (str "PassThrough")) ++ (d.printed ++ [str "\n"])) := by
  obtain ⟨netBuf, size, hostname, portNum, hdump, rfl⟩ := Program.exists_buffer_of_sent hmain
  have hpacket : packet = netBuf.slice 0 size := by
    cases Udp.sends_sendUdp m.world hostname portNum (netBuf.slice 0 size) with
    | inl hnone =>
      rw [hnone] at hsent
      cases hsent
    | inr hone =>
      obtain ⟨_, _, hone⟩ := hone
      rw [hone, List.mem_singleton] at hsent
      exact (Prod.mk.inj (Prod.mk.inj hsent).2).1
  have hdata : a.data = netBuf.slice 0 size := by
    rw [Arrival.data, harrival, List.take_of_length_le hlen, hpacket]
  obtain ⟨d', hrun, -, hprinted⟩ :=
    Console.printed_hexdump netBuf size m.hexdumpLine m.chardumpLine
  obtain rfl : d = d' := Option.some.inj (hdump.trans hrun)
  rw [printed_receive_passThruApi htlm, hdata, hprinted]

theorem printed_receive_of_sent_reset :
    ∃ d s, Program.main .loopback
        [str "-ELE", str "-C2", str "x", str "-A6", str "-n", str "2"] = .sent (some d) s ∧
      (receive 1 (instantiateDisplays [passThruApi])
        ⟨[0x18, 6, 0xC0, 0, 0, 3, 2, 0x20, 2, 0], str "127.0.0.1:UDP1234",
          fun _ => ⟨fun _ => 0, fun _ => 0⟩⟩).2 =
        [str "Telemetry Packet From: 127.0.0.1:UDP1234, 10 bytes\n",
          str "Invoking PassThrough decoder\n"] ++ (d.printed ++ [str "\n"]) := by
  obtain ⟨d, s, hmain, hsent⟩ := Program.sent_reset
  exact ⟨d, s, hmain, printed_receive_of_sent hmain hsent (by decide) rfl rfl 1⟩

end CmdSend.TlmRecv
