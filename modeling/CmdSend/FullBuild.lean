-- SUMMARY: The program cmd_send with both encoders: it sends what the options describe to the EDS encoder, or else what they describe to the other.
import CmdSend.Eds.Help
import CmdSend.Failure

/-!
# The build with the EDS encoder

With `CFE_EDS_ENABLED` the table has both encoders, the EDS encoder first. What the program
sends is read off the options by the two drafts, without an encoder, a table or a buffer.
-/

namespace CmdSend.Program

open CLib

/-! ## The options -/

/-- The words of a command line are strings, and so are the texts of its options. -/
theorem zero_notMem_options {argv : List Text} (h : ∀ w ∈ argv, 0 ∉ w) :
    ∀ a ∈ options argv, 0 ∉ a.text := by
  have hwords : ∀ w ∈ argv, ∀ c ∈ w, c ≠ 0 := fun w hw c hc hzero => h w hw (hzero ▸ hc)
  exact fun a ha hzero => Collect.forall_text_collectOptions hwords a ha 0 hzero rfl

/-! ## The packet -/

/-- The packet that some options describe. -/
def described (edsHost : Eds.Host) (host : PassThru.Host) (opts : List ArgV) :
    Option (List Byte) :=
  (Eds.describe edsHost opts).or (PassThru.describe host opts)

section

variable {edsHost : Eds.Host} {host : PassThru.Host} {opts : List ArgV} {a : ArgV}

/-- Another byte order than `EDS` is not for the EDS encoder. -/
theorem describe_eds_of_endian (hmem : a ∈ opts) (hid : a.optionId = .endian)
    (htext : a.text ≠ str "EDS") : Eds.describe edsHost opts = none := by
  have hrefused : ∀ r : Eds.Request, r.step edsHost a = none := by
    intro r
    unfold Eds.Request.step
    rw [hid]
    exact if_neg htext
  unfold Eds.describe
  rw [foldlM_eq_none_of_mem hmem hrefused]
  split <;> rfl

/-- The byte order `EDS` is for no other encoder. -/
theorem describe_passThru_of_endian (hmem : a ∈ opts) (hid : a.optionId = .endian)
    (htext : a.text = str "EDS") : PassThru.describe host opts = none := by
  have hrefused : ∀ d : PassThru.Draft, d.step host a = none := by
    intro d
    unfold PassThru.Draft.step
    rw [hid, htext]
    rfl
  unfold PassThru.describe
  rw [foldlM_eq_none_of_mem hmem hrefused]
  rfl

/-- A byte order selects the encoder. -/
theorem described_of_endian (hmem : a ∈ opts) (hid : a.optionId = .endian) :
    described edsHost host opts =
      if a.text = str "EDS" then Eds.describe edsHost opts else PassThru.describe host opts := by
  unfold described
  by_cases htext : a.text = str "EDS"
  · rw [if_pos htext, describe_passThru_of_endian hmem hid htext, Option.or_none]
  · rw [if_neg htext, describe_eds_of_endian hmem hid htext, Option.none_or]

/-- What the dispatcher comes to with both encoders. -/
theorem packet_run_parserApis {entries : List ArgVEntry}
    (hown : (Dispatch.edsApi edsHost).OwnObjectOnly)
    (hzero : ∀ a ∈ parsedArgs entries, 0 ∉ a.text)
    (hshort : ∀ a ∈ parsedArgs entries, PassThru.ShortString a) :
    (Dispatch.run (Dispatch.parserApis edsHost host) entries).packet =
      described edsHost host (parsedArgs entries) := by
  have hboth : ∀ api ∈ Dispatch.parserApis edsHost host, api.OwnObjectOnly :=
    List.forall_mem_cons.mpr
      ⟨hown, List.forall_mem_singleton.mpr (Dispatch.ownObjectOnly_passThruApi host)⟩
  unfold described
  rw [Dispatch.packet_run hboth, ← Eds.packAlone_eq_describe edsHost hzero,
    ← PassThru.packAfter_eq_describe hshort fun _ => 0, ← packAlone_passThruApi]
  unfold Dispatch.reference Dispatch.parserApis
  rw [List.findSome?_cons, List.findSome?_cons, List.findSome?_nil]
  cases (Dispatch.edsApi edsHost).packAlone (parsedArgs entries) with
  | some bytes => rfl
  | none => cases (Dispatch.passThruApi host).packAlone (parsedArgs entries) <;> rfl

/-- With short strings, the program dies only when the database has no command header. -/
theorem dies_parserApis_eq_false (hheader : edsHost.HasHeader) {entries : List ArgVEntry}
    (hshort : ∀ a ∈ parsedArgs entries, PassThru.ShortString a) :
    Dispatch.dies (Dispatch.parserApis edsHost host) entries = false := by
  refine Dispatch.dies_eq_false_iff.mpr (List.forall_mem_cons.mpr ⟨?_, ?_⟩)
  · rw [Dispatch.dies_edsApi_iff, not_not]
    exact hheader
  · exact List.forall_mem_singleton.mpr (Dispatch.not_dies_passThruApi host hshort)

end

/-! ## The program -/

/-- Without a command header in the database the program dies. With one, it shows and sends the
packet that the options describe, and otherwise prints the line of each encoder. An option
`--endian` says which encoder they have to describe it to. -/
structure SendsEither (m : Machine) (edsHost : Eds.Host) (host : PassThru.Host)
    (argv : List Text) : Prop where
  died : ¬edsHost.HasHeader → main m argv = .died
  help : edsHost.HasHeader → (Collect.collectOptions argv).showHelp = true →
    ∃ parser, main m argv = .help parser
  failed : edsHost.HasHeader → (Collect.collectOptions argv).showHelp = false →
    described edsHost host (options argv) = none →
    ∃ logged, main m argv = .failed (logged ++
      str "Option parsing failed:\n" :: m.apis.filterMap (·.errorLine (options argv)))
  sent : edsHost.HasHeader → (Collect.collectOptions argv).showHelp = false → ∀ bytes,
    described edsHost host (options argv) = some bytes →
    ∃ d, Console.shownBytes d.printed = bytes ∧ main m argv = .sent (some d)
      (Udp.sendUdp m.net m.world (some (Collect.collectOptions argv).destination.1)
        (Collect.collectOptions argv).destination.2 bytes)
  selected : ∀ a ∈ options argv, a.optionId = .endian → described edsHost host (options argv) =
    if a.text = str "EDS" then Eds.describe edsHost (options argv)
    else PassThru.describe host (options argv)

theorem sendsEither_main {m : Machine} {edsHost : Eds.Host} {host : PassThru.Host}
    (hapis : m.apis = Dispatch.parserApis edsHost host)
    (hown : (Dispatch.edsApi edsHost).OwnObjectOnly) {argv : List Text}
    (hargv : ∀ w ∈ argv, 0 ∉ w) (hshort : ∀ a ∈ options argv, PassThru.ShortString a) :
    SendsEither m edsHost host argv := by
  have hpacket := @packet_run_parserApis edsHost host _ hown (zero_notMem_options hargv) hshort
  have hspeaks : ∀ api ∈ m.apis, api.SpeaksForItself :=
    hapis ▸ Dispatch.speaksForItself_parserApis edsHost host
  have hend : edsHost.HasHeader → EndsWith m argv (described edsHost host (options argv)) := by
    intro hheader
    have hlive := @dies_parserApis_eq_false edsHost host hheader _ hshort
    rw [← hapis] at hpacket hlive
    exact hpacket ▸ endsWith_packet hlive
  rw [← hapis] at hpacket
  constructor
  · -- without a command header `EDS_Instantiate` does not come back
    intro hheader
    refine if_pos ?_
    rw [hapis]
    exact Dispatch.dies_parserApis_iff.mpr (.inl hheader)
  · exact fun hheader => (hend hheader).help
  · intro hheader hhelp hnone
    unfold options
    rw [← Dispatch.errors_run hspeaks (hpacket.trans hnone)]
    exact ⟨_, (hend hheader).failed hhelp hnone⟩
  · exact fun hheader => (hend hheader).sent
  · exact fun a ha hid => described_of_endian ha hid

/-- A command of the database, with a version. -/
theorem sendsEither_main_version :
    ∃ d, Console.shownBytes d.printed = [0, 0, 0x31, 0, 0, 0, 0, 0] ∧
      main .sample [str "--pktid=ES", str "-V1", str "x=1"] =
        .sent (some d) (Udp.sendUdp .loopback () (some (str "127.0.0.1")) (str "1234")
          [0, 0, 0x31, 0, 0, 0, 0, 0]) := by
  have hsends := @sendsEither_main .sample .sample .little rfl
    (Dispatch.ownObjectOnly_sample _ List.mem_cons_self)
    [str "--pktid=ES", str "-V1", str "x=1"] (by decide) (by decide +kernel)
  have hdest : (Collect.collectOptions [str "--pktid=ES", str "-V1", str "x=1"]).destination =
      (str "127.0.0.1", str "1234") := by decide +kernel
  obtain ⟨d, hshown, hsent⟩ :=
    hsends.sent rfl (by decide +kernel) [0, 0, 0x31, 0, 0, 0, 0, 0] (by decide +kernel)
  rw [hdest] at hsent
  exact ⟨d, hshown, hsent⟩

/-! ## Help -/

/-- When help is asked for, the program does not die and the EDS encoder refuses no option, it
ends with an object of that encoder that prints what the options locate. -/
theorem helps_main {m : Machine} {host : Eds.UsageHost} {passThruHost : PassThru.Host}
    (hapis : m.apis = Dispatch.parserApis host.toHost passThruHost)
    (hheader : host.toHost.HasHeader) {argv : List Text} (hargv : ∀ w ∈ argv, 0 ∉ w)
    (hsums : ∀ c ∈ PassThru.calls passThruHost PassThru.instantiate (options argv),
      PassThru.SumsFit c.1 c.2)
    (hhelp : (Collect.collectOptions argv).showHelp = true)
    {u : Eds.Usage} (hu : Eds.usage host.toHost (options argv) = some u) :
    ∃ parser cmd calls, main m argv = .help parser ∧
      ⟨Dispatch.edsApi host.toHost, .good cmd calls⟩ ∈ parser ∧
      ∀ buffer, Eds.printUsage host cmd buffer = some (u.lines host) := by
  obtain ⟨obj, hobj⟩ := Eds.exists_instantiate hheader
  obtain ⟨cmd, hrun, rfl⟩ := Eds.helpUsage_eq_usage hobj (zero_notMem_options hargv) hu
  have hlive : Dispatch.dies m.apis (Collect.collectOptions argv).argV ≠ true := by
    rw [hapis, ne_eq, Dispatch.dies_parserApis_iff, not_or, not_not]
    exact ⟨hheader, fun ⟨c, hc, hwrap⟩ => hwrap (hsums c hc)⟩
  have htable := Dispatch.parser_parseOptions_eq m.apis (Collect.collectOptions argv).argV
  have haccepted : (options argv).foldlM (Dispatch.edsApi host.toHost).accept obj = some cmd := hrun
  obtain ⟨calls, hentry⟩ : ∃ calls, (Dispatch.OptParser.instantiate
      (Dispatch.edsApi host.toHost)).feedAll (options argv) = .good cmd calls := by
    rw [@Dispatch.OptParser.instantiate_of_some (Dispatch.edsApi host.toHost) obj hobj]
    exact ⟨_, Dispatch.OptParser.feedAll_of_some haccepted []⟩
  refine ⟨_, cmd, calls, (if_neg hlive).trans (if_pos hhelp), ?_, Eds.printUsage_eq host cmd⟩
  rw [htable, hapis, Dispatch.parserApis, Dispatch.parsedTable_cons, ← hentry]
  exact List.mem_cons_self

/-- A machine whose database has an interface with two commands. -/
def Machine.commands : Machine :=
  { Machine.loopback with
    apis := Dispatch.parserApis Eds.UsageHost.sample.toHost PassThru.Host.little }

/-- The commands of an interface, on a command line that asks for help first. -/
theorem helps_main_commands :
    ∃ parser cmd calls, main .commands [str "-?", str "--pktid=ES"] = .help parser ∧
      ⟨Dispatch.edsApi Eds.UsageHost.sample.toHost, .good cmd calls⟩ ∈ parser ∧
      ∀ buffer, Eds.printUsage Eds.UsageHost.sample cmd buffer =
        some ((Eds.Usage.commandCodes 1).lines Eds.UsageHost.sample) :=
  @helps_main .commands .sample .little rfl rfl [str "-?", str "--pktid=ES"] (by decide)
    (PassThru.sumsFit_of_payloadSafe (PassThru.payloadSafe_of_no_string (by decide +kernel)))
    (by decide +kernel) (.commandCodes 1) (by decide +kernel)

/-- The lines are a heading and one for each command. -/
example : (Eds.Usage.commandCodes 1).lines Eds.UsageHost.sample =
    [str "\nAvailable Command Codes:\n", Eds.commandLine (str "NOOP") (str "0"),
      Eds.commandLine (str "RESET") (str "2")] := by decide +kernel

end CmdSend.Program
