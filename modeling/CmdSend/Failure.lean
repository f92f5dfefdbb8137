-- SUMMARY: What cmd_send prints when it sends nothing: what its encoders log, one line for each of them, and what the line says about the failure.
import CmdSend.Eds.Errors
import CmdSend.PassThru.Errors
import CmdSend.Program

/-!
# Failures

When no encoder builds a packet, `main` prints a line for each encoder that has an object,
behind a heading and what the encoders have logged. All of that is what they log and say when
each is run on its own over the options.
-/

namespace CmdSend.Program

open CLib

/-- The options that the encoders get to see. -/
def options (argv : List Text) : List ArgV := parsedArgs (Collect.collectOptions argv).argV

section

variable {m : Machine} {argv : List Text} {printed : List Text}

/-- Behind a failure is a run of the dispatcher that sends nothing. -/
theorem run_of_failed (h : main m argv = .failed printed) :
    let entries := (Collect.collectOptions argv).argV
    Dispatch.dies m.apis entries = false ∧ (Dispatch.run m.apis entries).packet = none ∧
      printed = Dispatch.failureLines m.apis entries := by
  have hfinish := finishes_main m argv
  dsimp only at hfinish ⊢
  rw [h] at hfinish
  generalize hresult : resultOf m.apis _ = result at hfinish
  cases hfinish
  unfold resultOf at hresult
  dsimp only at hresult
  split at hresult
  · cases hresult
  rename_i hlive
  split at hresult
  · cases hresult
  split at hresult
  · rename_i hpacket
    exact ⟨Bool.eq_false_iff.mpr hlive, hpacket, (Dispatch.Result.failed.inj hresult).symm⟩
  · cases hresult

/-- A command line fails as the dispatcher does on what it says. -/
theorem failed_of_commandLine {rs : List OptionReport} {positional : List Text}
    (h : CommandLine optionTable rs positional argv)
    (hmain : Dispatch.main m.apis (rs.map Collect.result) positional = .failed printed) :
    main m argv = .failed printed := by
  have hfinish := finishes_of_commandLine m h
  dsimp only at hfinish
  rw [hmain] at hfinish
  generalize main m argv = f at hfinish ⊢
  cases hfinish
  rfl

/-- Whatever the command line and the encoders: a failure prints what the encoders log when
each is run on its own, a heading, and the line of each of them, in table order. -/
theorem errors_main (hspeaks : ∀ api ∈ m.apis, api.SpeaksForItself)
    (hlogs : ∀ api ∈ m.apis, api.LogsForItself) (h : main m argv = .failed printed) :
    printed = Dispatch.linesAlone m.apis (options argv) := by
  obtain ⟨-, hpacket, rfl⟩ := run_of_failed h
  exact Dispatch.failureLines_eq hspeaks hlogs hpacket

end

/-- A machine with both encoders. -/
def Machine.sample : Machine :=
  { Machine.loopback with apis := Dispatch.parserApis Eds.Host.sample PassThru.Host.little }

/-- What is printed about a protocol that no encoder knows. -/
def protocolLines : List Text :=
  [str "ERROR: Invalid protocol: x\n", str "ERROR: Invalid protocol: x\n",
    str "Option parsing failed:\n", str "EDS: \n", str "PassThrough: \n"]

theorem failed_protocol : main .sample [str "--protocol=x", str "--"] = .failed protocolLines :=
  failed_of_commandLine (@Collect.commandLine_longForm [(.protocol, str "x")]
    (by decide) []) (by decide)

theorem errors_main_protocol :
    protocolLines =
      Dispatch.linesAlone Machine.sample.apis (options [str "--protocol=x", str "--"]) :=
  errors_main (Dispatch.speaksForItself_parserApis _ _)
    (List.forall_mem_cons.mpr ⟨Dispatch.logsForItself_edsApi fun _ _ _ _ _ => rfl,
      List.forall_mem_singleton.mpr (Dispatch.logsForItself_passThruApi _)⟩)
    failed_protocol

/-! ## The PassThru encoder -/

/-- The line of the PassThru encoder says why its run has come to nothing. -/
theorem failure_passThruApi {host : PassThru.Host} {opts : List ArgV}
    (h : (Dispatch.passThruApi host).packAlone opts = none) :
    ∃ text, PassThru.Failure host opts text ∧
      (Dispatch.passThruApi host).errorLine opts =
        some (str "PassThrough: " ++ text ++ str "\n") := by
  refine ⟨((Dispatch.passThruApi host).final PassThru.instantiate opts).lastErrorText, ?_, rfl⟩
  unfold Dispatch.ParserApi.final
  cases hends : ends (Dispatch.passThruApi host).accept PassThru.instantiate opts with
  | error c => exact PassThru.failure_of_error hends
  | ok cmd =>
    exact PassThru.failure_of_not_packed (ends_eq_ok_iff.mp hends)
      (Dispatch.ParserApi.not_packed_of_ok rfl hends h)

/-- Whatever the command line and the other encoders: when `main` fails, the line of the
PassThru encoder tells the first option that it refuses, unless that is `--protocol`, or
nothing when it refuses none and its packet is too long. -/
theorem explained_passThru {m : Machine} {host : PassThru.Host}
    (hmem : Dispatch.passThruApi host ∈ m.apis) {argv printed : List Text}
    (h : main m argv = .failed printed) :
    ∃ text, PassThru.Failure host (options argv) text ∧
      str "PassThrough: " ++ text ++ str "\n" ∈ printed := by
  obtain ⟨-, hpacket, rfl⟩ := run_of_failed h
  obtain ⟨text, hfailure, hline⟩ := failure_passThruApi
    (Dispatch.packAlone_eq_none hpacket hmem (Dispatch.ownObjectOnly_passThruApi host))
  exact ⟨text, hfailure,
    Dispatch.errorLine_mem hpacket hmem (Dispatch.speaksForItself_passThruApi host) hline⟩

/-- A byte that is no number. -/
theorem explained_passThru_byte :
    ∃ text, PassThru.Failure .little (options [str "--int8=x", str "--"]) text ∧
      str "PassThrough: " ++ text ++ str "\n" ∈ [str "Option parsing failed:\n",
        str ("PassThrough: ERROR " ++
          "PassThru_ParseOption:457 - Parameter not int8: 'x' -> 0\n\n")] :=
  explained_passThru (m := Machine.loopback) List.mem_cons_self
    (failed_of_commandLine (@Collect.commandLine_longForm [(.int8, str "x")]
      (by decide) []) (by decide))

/-! ## The EDS encoder -/

/-- Whatever the command line and the other encoders: when `main` fails, the line of the EDS
encoder has a text, but for the failures in `Silent`. -/
theorem explained_eds {m : Machine} {host : Eds.Host} (hmem : Dispatch.edsApi host ∈ m.apis)
    (hown : (Dispatch.edsApi host).OwnObjectOnly) {argv printed : List Text}
    (h : main m argv = .failed printed) :
    ∃ obj text, Eds.instantiate host = some obj ∧
      (text = [] → Eds.Silent host obj (options argv)) ∧
      str "EDS: " ++ text ++ str "\n" ∈ printed := by
  obtain ⟨hlive, hpacket, rfl⟩ := run_of_failed h
  -- a program that is alive has the object of the encoder
  have hreturns := Dispatch.dies_eq_false_iff.mp hlive _ hmem
  rw [Dispatch.dies_edsApi_iff, not_not] at hreturns
  obtain ⟨obj, hobj⟩ := Eds.exists_instantiate hreturns
  have hline : (Dispatch.edsApi host).errorLine (options argv) = some (str "EDS: " ++
      ((Dispatch.edsApi host).final obj (options argv)).lastErrorText ++ str "\n") := by
    have hinstantiate : (Dispatch.edsApi host).instantiate = some obj := hobj
    unfold Dispatch.ParserApi.errorLine
    rw [hinstantiate]
    rfl
  exact ⟨obj, _, hobj, Eds.silent_of_nil hobj (Dispatch.packAlone_eq_none hpacket hmem hown),
    Dispatch.errorLine_mem hpacket hmem (Dispatch.speaksForItself_edsApi host) hline⟩

theorem explained_eds_protocol :
    ∃ obj text, Eds.instantiate .sample = some obj ∧
      (text = [] → Eds.Silent .sample obj (options [str "--protocol=x", str "--"])) ∧
      str "EDS: " ++ text ++ str "\n" ∈ protocolLines :=
  explained_eds (m := Machine.sample) List.mem_cons_self
    (Dispatch.ownObjectOnly_sample _ List.mem_cons_self) failed_protocol

end CmdSend.Program
