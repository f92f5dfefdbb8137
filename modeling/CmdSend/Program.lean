-- SUMMARY: The program cmd_send from its command line to the datagram: what it prints, what it sends and where.
import CmdSend.Collect
import CmdSend.Console.Hexdump
import CmdSend.Dispatch.Offers
import CmdSend.PassThru.Draft
import CmdSend.SendUdp

/-!
# The program

`main` of `cmd_send.c` from the words of the command line on. The encoders are any list of
them, and the network is any network.
-/

namespace CmdSend.Program

open CLib

/-- What `main` comes to: a call of an encoder that is the end of the program, the table that
`DoShowHelp` goes over, the lines that are printed when there is no packet, or the hex dump and
what `SendUdp` leaves behind. -/
inductive Finish (net : Udp.Network)
  | died
  | help (parser : List Dispatch.Parser)
  | failed (printed : List Text)
  | sent (dump : Option Console.Hexdump) (sent : Udp.Sent net)

/-- What surrounds the program: its encoders, the network, and the contents of the two arrays
on the stack that the hex dump starts with. -/
structure Machine where
  apis : List Dispatch.ParserApi
  net : Udp.Network
  world : net.World
  hexdumpLine : Mem
  chardumpLine : Mem

/-- A machine without the EDS encoder, on a network that takes everything. -/
def Machine.loopback : Machine :=
  ⟨[Dispatch.passThruApi PassThru.Host.little], .loopback, (), fun _ => 0, fun _ => 0⟩

/-- `main`, for the words behind the name of the program. -/
def main (m : Machine) (argv : List Text) : Finish m.net :=
  let cmd := Collect.collectOptions argv
  let table := (Dispatch.instantiateParsers m.apis).parseOptions cmd.argV
  if Dispatch.dies m.apis cmd.argV then .died
  else if cmd.showHelp then .help table.parser
  else
    let table := table.encode
    if table.contentSize = 0 then .failed (Dispatch.failureLines m.apis cmd.argV)
    else
      .sent (Console.hexdump table.netBuf table.contentSize m.hexdumpLine m.chardumpLine)
        (Udp.sendUdp m.net m.world (some cmd.destination.1) cmd.destination.2
          (table.netBuf.slice 0 table.contentSize))

/-- What is dumped is what is sent. -/
theorem exists_buffer_of_sent {m : Machine} {argv : List Text} {dump : Option Console.Hexdump}
    {s : Udp.Sent m.net} (h : main m argv = .sent dump s) :
    ∃ netBuf size hostname portNum,
      dump = Console.hexdump netBuf size m.hexdumpLine m.chardumpLine ∧
      s = Udp.sendUdp m.net m.world hostname portNum (netBuf.slice 0 size) := by
  unfold main at h
  dsimp only at h
  split at h
  · cases h
  split at h
  · cases h
  split at h
  · cases h
  · obtain ⟨rfl, rfl⟩ := Finish.sent.inj h
    exact ⟨_, _, _, _, rfl, rfl⟩

/-! ## The end of a run -/

/-- The calls of the socket interface. -/
def Finish.events {net : Udp.Network} : Finish net → List (Udp.Event net.AddrInfo)
  | .died | .help _ | .failed _ => []
  | .sent _ s => s.events

/-- The end that goes with a result of the dispatcher. The dump shows the bytes that are
sent. -/
inductive Finishes (m : Machine) (parser : List Dispatch.Parser) (destination : Text × Text) :
    Dispatch.Result → Finish m.net → Prop
  | died : Finishes m parser destination .died .died
  | help : Finishes m parser destination .help (.help parser)
  | failed (printed : List Text) :
      Finishes m parser destination (.failed printed) (.failed printed)
  | sent {bytes : List Byte} {d : Console.Hexdump} : bytes ≠ [] → d.StoresWithin →
      Console.shownBytes d.printed = bytes →
      Finishes m parser destination (.sent bytes)
        (.sent (some d) (Udp.sendUdp m.net m.world (some destination.1) destination.2 bytes))

/-- The result of the dispatcher for some entries. -/
def resultOf (apis : List Dispatch.ParserApi) (collected : List ArgVEntry × Bool) :
    Dispatch.Result :=
  if Dispatch.dies apis collected.1 then .died
  else if collected.2 then .help
  else
    match (Dispatch.run apis collected.1).packet with
    | none => .failed (Dispatch.failureLines apis collected.1)
    | some bytes => .sent bytes

theorem main_eq_resultOf (apis : List Dispatch.ParserApi) (opts : List GetoptResult)
    (nonoptions : List Text) :
    Dispatch.main apis opts nonoptions = resultOf apis (collectOptions opts nonoptions) := rfl

/-- Whatever the command line, `main` ends as the dispatcher does on what was collected. -/
theorem finishes_main (m : Machine) (argv : List Text) :
    let cmd := Collect.collectOptions argv
    Finishes m ((Dispatch.instantiateParsers m.apis).parseOptions cmd.argV).parser cmd.destination
      (resultOf m.apis (cmd.argV, cmd.showHelp)) (main m argv) := by
  unfold main resultOf Dispatch.run Dispatch.CommandData.packet
  dsimp only
  generalize Collect.collectOptions argv = cmd
  cases Dispatch.dies m.apis cmd.argV with
  | true => exact .died
  | false =>
  cases cmd.showHelp with
  | true => exact .help
  | false =>
    simp only [Bool.false_eq_true, if_false]
    generalize ((Dispatch.instantiateParsers m.apis).parseOptions cmd.argV).encode = table
    by_cases hsize : table.contentSize = 0
    · rw [if_pos hsize, if_pos hsize]
      exact .failed _
    · rw [if_neg hsize, if_neg hsize]
      obtain ⟨d, hrun, hwithin, hshown⟩ :=
        Console.shownBytes_hexdump table.netBuf table.contentSize m.hexdumpLine m.chardumpLine
      rw [hrun]
      refine .sent ?_ hwithin hshown
      intro hnil
      have hlen := Mem.length_slice table.netBuf 0 table.contentSize
      rw [hnil] at hlen
      exact hsize hlen.symm

/-- How `main` ends when it does not die and the dispatcher comes to `packet`. -/
structure EndsWith (m : Machine) (argv : List Text) (packet : Option (List Byte)) : Prop where
  help : (Collect.collectOptions argv).showHelp = true → ∃ parser, main m argv = .help parser
  failed : (Collect.collectOptions argv).showHelp = false → packet = none →
    main m argv = .failed (Dispatch.failureLines m.apis (Collect.collectOptions argv).argV)
  sent : (Collect.collectOptions argv).showHelp = false → ∀ bytes, packet = some bytes →
    ∃ d, Console.shownBytes d.printed = bytes ∧ main m argv = .sent (some d)
      (Udp.sendUdp m.net m.world (some (Collect.collectOptions argv).destination.1)
        (Collect.collectOptions argv).destination.2 bytes)

theorem endsWith_packet {m : Machine} {argv : List Text}
    (hlive : Dispatch.dies m.apis (Collect.collectOptions argv).argV = false) :
    EndsWith m argv (Dispatch.run m.apis (Collect.collectOptions argv).argV).packet := by
  have hfinish := finishes_main m argv
  unfold resultOf at hfinish
  dsimp only at hfinish
  rw [if_neg (by simp [hlive])] at hfinish
  generalize hmain : main m argv = f at hfinish
  refine ⟨fun hhelp => ?_, fun hhelp hnone => ?_, fun hhelp bytes hbytes => ?_⟩
  · rw [if_pos hhelp] at hfinish
    rw [hmain]
    cases hfinish with
    | help => exact ⟨_, rfl⟩
  · rw [if_neg (by simp [hhelp]), hnone] at hfinish
    rw [hmain]
    cases hfinish with
    | failed => rfl
  · rw [if_neg (by simp [hhelp]), hbytes] at hfinish
    rw [hmain]
    cases hfinish with
    | sent _ _ hshown => exact ⟨_, hshown, rfl⟩

/-! ## The socket calls -/

/-- What `main` does to the network. -/
structure Sends (argv : List Text) {net : Udp.Network} (f : Finish net) : Prop where
  once : (Udp.sends f.events).length ≤ 1
  shown : ∀ sd packet rc, (sd, packet, rc) ∈ Udp.sends f.events →
    ∃ d s, f = .sent (some d) s ∧ Console.shownBytes d.printed = packet
  destination : ∀ host port result, .getaddrinfo host port result ∈ f.events →
    (host, port) = (Collect.collectOptions argv).destination
  quiet : (Collect.collectOptions argv).showHelp = true → f.events = []

theorem sends_of_no_events {argv : List Text} {net : Udp.Network} {f : Finish net}
    (h : f.events = []) : Sends argv f where
  once := by rw [h]; exact Nat.zero_le 1
  shown _ _ _ hx := by
    rw [h] at hx
    cases hx
  destination _ _ _ hx := by
    rw [h] at hx
    cases hx
  quiet _ := h

/-- Whatever the command line, the encoders and the network: `main` sends one datagram at
most, to the destination that was collected, and that datagram is what the hex dump shows.
When help is asked for it makes no call. -/
theorem sends_main (m : Machine) (argv : List Text) : Sends argv (main m argv) := by
  have hfinish := finishes_main m argv
  dsimp only at hfinish
  generalize hresult : resultOf m.apis _ = result at hfinish
  generalize main m argv = f at hfinish
  cases hfinish with
  | died => exact sends_of_no_events rfl
  | help => exact sends_of_no_events rfl
  | failed printed => exact sends_of_no_events rfl
  | @sent bytes d hne hwithin hshown =>
    have hsends := Udp.sends_sendUdp m.world (some (Collect.collectOptions argv).destination.1)
      (Collect.collectOptions argv).destination.2 bytes
    refine ⟨?_, fun sd packet rc hx => ⟨d, _, rfl, ?_⟩, fun host port result hx => ?_,
      fun hhelp => ?_⟩
    · unfold Finish.events
      dsimp only
      cases hsends with
      | inl hnone => simp [hnone]
      | inr hone =>
        obtain ⟨sd, rc, hone⟩ := hone
        simp [hone]
    · unfold Finish.events at hx
      dsimp only at hx
      cases hsends with
      | inl hnone =>
        rw [hnone] at hx
        cases hx
      | inr hone =>
        obtain ⟨sd', rc', hone⟩ := hone
        rw [hone, List.mem_singleton] at hx
        rw [hshown, (Prod.mk.inj (Prod.mk.inj hx).2).1]
    · obtain ⟨hhost, hport⟩ := Udp.eq_of_getaddrinfo_mem hx
      rw [← Option.some.inj hhost, ← hport]
    · unfold resultOf at hresult
      rw [hhelp] at hresult
      split at hresult <;> cases hresult

/-! ## Command lines -/

/-- How `main` ends on a command line, however it is spelled: as the dispatcher does on its
options and positional words, with the datagram sent to the last host and port. -/
theorem finishes_of_commandLine (m : Machine) {rs : List OptionReport}
    {positional line : List Text} (h : CommandLine optionTable rs positional line) :
    let opts := rs.map Collect.result
    Finishes m ((Dispatch.instantiateParsers m.apis).parseOptions
        (collectOptions opts positional).1).parser (Collect.destinationOf rs)
      (Dispatch.main m.apis opts positional) (main m line) := by
  have hfinish := finishes_main m line
  obtain ⟨hentries, hdestination⟩ := Collect.told_of_commandLine h
  have hargV := congrArg Prod.fst hentries
  dsimp only at hfinish hargV ⊢
  rw [hentries, hdestination, ← main_eq_resultOf] at hfinish
  rwa [hargV] at hfinish

/-- The reset of the usage text, with a positional word in between, is sent. -/
theorem sent_reset :
    ∃ d s, main .loopback [str "-ELE", str "-C2", str "x", str "-A6", str "-n", str "2"] =
        .sent (some d) s ∧
      (3, [0x18, 6, 0xC0, 0, 0, 3, 2, 0x20, 2, 0], 10) ∈ Udp.sends s.events := by
  have hfinish := finishes_of_commandLine .loopback Collect.commandLine_reset
  have hresult : Dispatch.main Machine.loopback.apis (Collect.resetOptions.map Collect.result)
      [str "x"] = .sent [0x18, 6, 0xC0, 0, 0, 3, 2, 0x20, 2, 0] := by decide
  dsimp only at hfinish
  rw [hresult] at hfinish
  generalize main Machine.loopback _ = f at hfinish ⊢
  cases hfinish with
  | sent => exact ⟨_, _, rfl, by decide⟩

/-- `main` does the same on two command lines with the same options and positional words,
which may be spelled and mixed in different ways. -/
theorem main_eq_of_commandLines (m : Machine) {rs : List OptionReport}
    {positional line line' : List Text} (h : CommandLine optionTable rs positional line)
    (h' : CommandLine optionTable rs positional line') : main m line = main m line' := by
  obtain ⟨hentries, hdestination⟩ := Collect.told_of_commandLine h
  obtain ⟨hentries', hdestination'⟩ := Collect.told_of_commandLine h'
  obtain ⟨hargV, hhelp⟩ := Prod.mk.inj (hentries.trans hentries'.symm)
  unfold main
  dsimp only
  rw [hargV, hhelp, hdestination, hdestination']

theorem main_eq_of_commandLines_reset :
    main .loopback [str "-ELE", str "-C2", str "x", str "-A6", str "-n", str "2"] =
      main .loopback [str "--endian=LE", str "--cmdcode", str "2", str "--pkta=6", str "-n2",
        str "--", str "x"] :=
  main_eq_of_commandLines .loopback Collect.commandLine_reset Collect.commandLine_reset_long

/-! ## The build without the EDS encoder -/

theorem packAlone_passThruApi (host : PassThru.Host) (opts : List ArgV) :
    (Dispatch.passThruApi host).packAlone opts =
      PassThru.packAfter host opts fun _ => 0 := rfl

/-- What the dispatcher comes to with the PassThru encoder alone. -/
theorem packet_run_passThruApi {host : PassThru.Host} {entries : List ArgVEntry}
    (hshort : ∀ a ∈ parsedArgs entries, PassThru.ShortString a) :
    (Dispatch.run [Dispatch.passThruApi host] entries).packet =
      PassThru.describe host (parsedArgs entries) := by
  have hown : ∀ api ∈ [Dispatch.passThruApi host], api.OwnObjectOnly :=
    List.forall_mem_singleton.mpr (Dispatch.ownObjectOnly_passThruApi host)
  rw [Dispatch.packet_run hown, ← PassThru.packAfter_eq_describe hshort fun _ => 0,
    ← packAlone_passThruApi, Dispatch.reference, List.findSome?_cons]
  cases (Dispatch.passThruApi host).packAlone (parsedArgs entries) <;> rfl

/-- The encoder alone is not the end of the program when its strings are short. -/
theorem dies_passThruApi_eq_false {host : PassThru.Host} {entries : List ArgVEntry}
    (hshort : ∀ a ∈ parsedArgs entries, PassThru.ShortString a) :
    Dispatch.dies [Dispatch.passThruApi host] entries = false := by
  rw [Dispatch.dies_eq_false_iff, List.forall_mem_singleton]
  exact Dispatch.not_dies_passThruApi host hshort

/-- A command line describes a packet: without the EDS encoder, the program sends and shows
that packet, and fails when the options do not describe one. -/
structure SendsDescribed (m : Machine) (host : PassThru.Host) (rs : List OptionReport)
    (positional : List Text) (f : Finish m.net) : Prop where
  help : (collectOptions (rs.map Collect.result) positional).2 = true → ∃ parser, f = .help parser
  failed : (collectOptions (rs.map Collect.result) positional).2 = false →
    PassThru.describe host (parsedArgs (collectOptions (rs.map Collect.result) positional).1) =
      none → ∃ errors, f = .failed errors
  sent : (collectOptions (rs.map Collect.result) positional).2 = false → ∀ bytes,
    PassThru.describe host (parsedArgs (collectOptions (rs.map Collect.result) positional).1) =
      some bytes →
    ∃ d, Console.shownBytes d.printed = bytes ∧
      f = .sent (some d) (Udp.sendUdp m.net m.world (some (Collect.destinationOf rs).1)
        (Collect.destinationOf rs).2 bytes)

theorem sendsDescribed_main {m : Machine} {host : PassThru.Host}
    (hapis : m.apis = [Dispatch.passThruApi host]) {rs : List OptionReport}
    {positional line : List Text} (h : CommandLine optionTable rs positional line)
    (hshort : ∀ a ∈ parsedArgs (collectOptions (rs.map Collect.result) positional).1,
      PassThru.ShortString a) : SendsDescribed m host rs positional (main m line) := by
  obtain ⟨hentries, hdestination⟩ := Collect.told_of_commandLine h
  have hargV := congrArg Prod.fst hentries
  have hshowHelp := congrArg Prod.snd hentries
  dsimp only at hargV hshowHelp
  have hend := @endsWith_packet m line
  rw [hapis, hargV, packet_run_passThruApi hshort] at hend
  have hend := hend (dies_passThruApi_eq_false hshort)
  constructor
  · exact fun hhelp => hend.help (hshowHelp.trans hhelp)
  · exact fun hhelp hnone => ⟨_, hend.failed (hshowHelp.trans hhelp) hnone⟩
  · exact fun hhelp bytes hbytes => hdestination ▸ hend.sent (hshowHelp.trans hhelp) bytes hbytes

theorem sendsDescribed_main_reset :
    ∃ d, Console.shownBytes d.printed = [0x18, 6, 0xC0, 0, 0, 3, 2, 0x20, 2, 0] ∧
      main .loopback [str "-ELE", str "-C2", str "x", str "-A6", str "-n", str "2"] =
        .sent (some d) (Udp.sendUdp .loopback () (some (Collect.destinationOf
          Collect.resetOptions).1) (Collect.destinationOf Collect.resetOptions).2
          [0x18, 6, 0xC0, 0, 0, 3, 2, 0x20, 2, 0]) :=
  (sendsDescribed_main rfl Collect.commandLine_reset (by decide)).sent (by decide) _ (by decide)

end CmdSend.Program
