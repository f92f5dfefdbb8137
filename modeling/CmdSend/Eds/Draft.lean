-- SUMMARY: The packet that a list of options describes to the EDS encoder: the target of a request, and the writes into its object.
import CmdSend.Dispatch.Reference
import CmdSend.Eds.Request

/-!
# The draft of a command

The encoder looks its command up once, when it first has to, keeps what it has found in its
state and goes on with it. On paper there is no state: the first positional argument fixes the
request, and what comes behind it only writes. The encoder packs what `describe` says.
-/

namespace CmdSend.Eds

open CLib

/-! ## Drafts -/

/-- The packet of an object. -/
def packet (host : Host) (arg : EdsId) (buf : Mem) : Option (List Byte) :=
  let packed := packObject host arg buf (fun _ => 0) Dispatch.netBufSize
  if packed.1 = true ∧ packed.2.2 ≠ 0 then some (packed.2.1.slice 0 packed.2.2) else none

/-- The packet that some options describe. The first positional argument fixes the command;
what comes behind it is refused as before, but only writes. -/
def describe (host : Host) (opts : List ArgV) : Option (List Byte) :=
  if host.getTypeInfo host.commandHeader = host.edsSuccess then do
    let _ ← opts.foldlM (Request.step host) (.empty host)
    let r ← (early opts).foldlM (Request.step host) (.empty host)
    let t ← r.target host
    packet host t.arg ((late opts).foldl (write host t.info) t.buf)
  else none

/-! ## The stored name -/

/-- The stored name has a colon when it had one before. -/
def KeepsColon (cmd cmd' : CommandData) : Prop :=
  ch ':' ∈ cmd'.destIntfText ↔ ch ':' ∈ cmd.destIntfText

theorem KeepsColon.of_eq {cmd cmd' : CommandData} (h : cmd'.destIntf = cmd.destIntf) :
    KeepsColon cmd cmd' := by
  unfold KeepsColon CommandData.destIntfText
  rw [h]

section

variable (host : Host) (cmd : CommandData)

/-- The implicit component has no colon. -/
theorem keepsColon_findInterface : KeepsColon cmd (cmd.findInterface host).2 := by
  have hname := cstr_insertComponent cmd.destIntf
  unfold CommandData.findInterface
  dsimp only
  split
  · cases hinserted : CommandData.insertComponent cmd.destIntf with
    | none => exact .of_eq rfl
    | some destIntf =>
      rw [hinserted, Option.map_some] at hname
      exact colon_mem_implicitName hname.symm
  · exact .of_eq rfl

theorem destIntf_processNumericDest (msgId : BitVec 64) :
    (cmd.processNumericDest host msgId).2.destIntf = cmd.destIntf := by
  unfold CommandData.processNumericDest
  dsimp only
  split
  · exact destIntf_rejectIntf _
  · exact destIntf_findArgument host _

theorem keepsColon_processDestIntf : KeepsColon cmd (cmd.processDestIntf host).2 := by
  unfold CommandData.processDestIntf
  dsimp only
  split
  · exact .of_eq (destIntf_processNumericDest host cmd _)
  · have hname := destIntf_processNamedDest host cmd
    exact (KeepsColon.of_eq hname).trans (keepsColon_findInterface host cmd)

theorem destIntf_processCmdCode : (cmd.processCmdCode host).2.destIntf = cmd.destIntf := by
  unfold CommandData.processCmdCode
  dsimp only
  split
  · split
    · split <;> rfl
    · rfl
  · split <;> rfl

theorem destIntf_lookupPayloadDetail :
    (cmd.lookupPayloadDetail host).2.destIntf = cmd.destIntf := by
  unfold CommandData.lookupPayloadDetail
  split
  · rfl
  · split <;> rfl

theorem keepsColon_checkValidIntf : KeepsColon cmd (cmd.checkValidIntf host).cmd := by
  have hdest := keepsColon_processDestIntf host cmd
  have hcode := destIntf_processCmdCode host (cmd.processDestIntf host).2
  unfold CommandData.checkValidIntf
  dsimp only
  split
  · split
    · exact hdest
    · split <;> exact (KeepsColon.of_eq hcode).trans hdest
  · exact .of_eq rfl

theorem keepsColon_checkValidPayload : KeepsColon cmd (cmd.checkValidPayload host).cmd := by
  have hintf := keepsColon_checkValidIntf host cmd
  have hdetail := destIntf_lookupPayloadDetail host (cmd.checkValidIntf host).cmd
  unfold CommandData.checkValidPayload
  dsimp only
  split
  · split
    · exact hintf
    · split
      · exact (KeepsColon.of_eq hdetail).trans hintf
      · split <;> exact (KeepsColon.of_eq hdetail).trans hintf
  · exact .of_eq rfl

theorem destIntf_processParameterArgument (optarg : Text) :
    (cmd.processParameterArgument host optarg).1.destIntf = cmd.destIntf := by
  unfold CommandData.processParameterArgument
  split
  · rfl
  dsimp only
  split
  · rfl
  split <;> rfl

theorem keepsColon_parseParameter (text : Text) :
    KeepsColon cmd (cmd.parseParameter host text).cmd := by
  have hpayload := keepsColon_checkValidPayload host cmd
  rw [cmd_parseParameter]
  split
  · exact (KeepsColon.of_eq (destIntf_processParameterArgument host _ text)).trans hpayload
  · exact hpayload

end

/-! ## Runs -/

/-- The encoder refuses the destinations that the request refuses, and has its command name. -/
structure Agrees (r : Request) (cmd : CommandData) : Prop extends Named r cmd where
  colon : ch ':' ∈ cmd.destIntfText ↔ ch ':' ∈ r.intf

section

variable {host : Host} {r : Request} {cmd : CommandData} {a : ArgV} {opts : List ArgV}

theorem Asks.agrees (h : Asks r cmd) : Agrees r cmd :=
  { h with colon := by rw [h.intf] }

theorem Agrees.withDest (h : Agrees r cmd) {text : Text} (hzero : 0 ∉ text) :
    Agrees (r.withDest text) (cmd.withDest text) := by
  obtain ⟨hintf, hnamed⟩ := h.toNamed.withDest hzero
  exact { hnamed with colon := by rw [hintf] }

/-- The lookups leave the name of the command alone, and so do the parameters. -/
theorem Agrees.parseParameter (h : Agrees r cmd) (text : Text) :
    Agrees r (cmd.parseParameter host text).cmd := by
  have hname := cmdName_parseParameter host cmd text
  refine { name := ?_, terminated := ?_, colon := ?_ }
  · exact (congrArg (Mem.cstr · optargSize) hname).trans h.name
  · exact (congrFun hname _).trans h.terminated
  · exact (keepsColon_parseParameter host cmd text).trans h.colon

/-- Also behind the first positional argument, the encoder refuses what the request does. -/
theorem Agrees.step (h : Agrees r cmd) (hzero : 0 ∉ a.text) :
    Option.Rel Agrees (r.step host a) (accept host cmd a) := by
  unfold accept
  obtain ⟨id, text⟩ := a
  cases id with
  | none =>
    have hnext : (cmd.parseParameter host text).next = some (cmd.parseParameter host text).cmd := by
      unfold CommandData.parseParameter
      dsimp only
      split <;> rfl
    change Option.Rel Agrees (some r) (cmd.parseParameter host text).next
    rw [hnext]
    exact .some (h.parseParameter text)
  | endian =>
    simp only [Request.step, parseOption, CommandData.parseEndian]
    split
    · exact .some h
    · exact .none
  | protocol =>
    simp only [Request.step, parseOption, CommandData.parseProtocol, Outcome.next,
      CommandData.answer]
    split
    · exact .none
    · exact .some { h with name := h.name, terminated := h.terminated, colon := h.colon }
  | pktedsver | pktid => exact rel_askFor h.colon (h.withDest hzero) true
  | pktapid => exact rel_askFor h.colon (h.withDest hzero) false
  | cmdcode | pktfc =>
    have hnamed := cmd_parseOption_cmdcode host cmd text
    exact .some (hnamed ▸ { h.toNamed.withName hzero with colon := h.colon })
  | pktpb | pktseqflg | pktseqcnt | pktendian | pktsubsys | pktver | pktsys =>
    simp only [parseOption, next_parseHeader]
    exact .some { h with name := h.name, terminated := h.terminated, colon := h.colon }
  | _ => exact .some h

/-- An encoder that accepts all options ends where the run does. -/
theorem run_of_foldlM {cmd' : CommandData}
    (h : opts.foldlM (accept host) cmd = some cmd') : run host cmd opts = cmd' := by
  refine foldlM_invariant (I := fun opts cmd' => run host cmd opts = cmd') rfl ?_ h
  intro opts cmd₁ a cmd₂ hrun haccept
  unfold accept Outcome.next at haccept
  split at haccept
  · cases haccept
  · have hcmd := Option.some.inj haccept
    unfold run at hrun ⊢
    rw [List.foldl_append, hrun]
    exact hcmd

/-- What the encoder packs behind the request of the options before the first positional
argument. -/
theorem packed_run {obj : CommandData} (h : Asks r (run host obj (early opts))) :
    (Dispatch.edsApi host).packed (run host obj opts) = (r.target host).bind fun t =>
      packet host t.arg ((late opts).foldl (write host t.info) t.buf) := by
  have hresult := result_run host obj opts (fun _ => 0) Dispatch.netBufSize
  have htarget := @Asks.target host _ _ h
  have hok := ok_checkValidPayload host (run host obj (early opts))
  change (let p := (getPackedObject host (run host obj opts) (fun _ => 0)
      Dispatch.netBufSize).result
    if p.1 = true ∧ p.2.2 ≠ 0 then some (p.2.1.slice 0 p.2.2) else none) = _
  unfold lookedUp at hresult
  unfold Checked.target at htarget
  dsimp only at hresult ⊢
  rw [hresult, ← htarget]
  by_cases hsuccess :
      ((run host obj (early opts)).checkValidPayload host).cmd.payloadState = .success
  · rw [if_pos hsuccess, if_pos (hok.mpr hsuccess)]
    rfl
  · rw [if_neg hsuccess, if_neg (mt hok.mp hsuccess)]
    simp

/-- Until the first positional argument the encoder is at the requests, and it refuses what
they refuse. -/
theorem requests_run {obj : CommandData} (h : Asks r obj) (hzero : ∀ a ∈ opts, 0 ∉ a.text) :
    Option.Rel Asks ((early opts).foldlM (Request.step host) r)
        ((early opts).foldlM (accept host) obj) ∧
      Option.Rel Agrees (opts.foldlM (Request.step host) r)
        (opts.foldlM (accept host) obj) := by
  refine ⟨foldlM_rel (fun a ha _ _ hasks => hasks.step ?_ (ne_none_of_mem_early ha)) h,
    foldlM_rel (fun a ha _ _ hagrees => hagrees.step (hzero a ha)) h.agrees⟩
  exact hzero a ((List.takeWhile_prefix _).subset ha)

/-- The encoder packs what the options describe. -/
theorem packAlone_eq_describe (host : Host) (hzero : ∀ a ∈ opts, 0 ∉ a.text) :
    (Dispatch.edsApi host).packAlone opts = describe host opts := by
  have hsplit : opts = early opts ++ late opts := List.takeWhile_append_dropWhile.symm
  change ((instantiate host).bind fun obj => opts.foldlM (accept host) obj).bind
    (Dispatch.edsApi host).packed = _
  unfold describe
  by_cases hheader : host.getTypeInfo host.commandHeader = host.edsSuccess
  · obtain ⟨obj, hobj⟩ := exists_instantiate hheader
    obtain ⟨hearly, hall⟩ := @requests_run host _ _ _ (asks_instantiate hobj) hzero
    rw [if_pos hheader, hobj, Option.bind_some]
    generalize opts.foldlM (Request.step host) (.empty host) = od at hall ⊢
    cases hrun : opts.foldlM (accept host) obj with
    | none =>
      rw [hrun] at hall
      cases hall
      rfl
    | some cmd =>
      rw [hrun] at hall
      cases hall
      rw [hsplit] at hrun
      obtain ⟨cmd₁, hrun₁, -⟩ := foldlM_append_some.mp hrun
      rw [hrun₁] at hearly
      generalize (early opts).foldlM (Request.step host) (.empty host) = oe at hearly ⊢
      cases hearly with
      | some hasks =>
        rw [← run_of_foldlM hrun₁] at hasks
        rw [← run_of_foldlM hrun, ← hsplit]
        exact packed_run hasks
  · rw [(instantiate_eq_none_iff host).mpr hheader, if_neg hheader]
    rfl

/-- The encoder refines the requests: it goes through the same texts and buffers up to the
first positional argument, finds what the database has for the last of them, refuses an option
exactly when the request does, and packs what is described. -/
structure RefinesRequest (host : Host) (opts : List ArgV) : Prop where
  states : ∀ obj, instantiate host = some obj →
    Option.Rel Asks ((early opts).foldlM (Request.step host) (.empty host))
      ((early opts).foldlM (accept host) obj)
  target : ∀ obj r, instantiate host = some obj →
    (early opts).foldlM (Request.step host) (.empty host) = some r →
    ((run host obj (early opts)).checkValidPayload host).target = r.target host
  refusals : ∀ obj, instantiate host = some obj →
    Option.Rel Agrees (opts.foldlM (Request.step host) (.empty host))
      (opts.foldlM (accept host) obj)
  packet : (Dispatch.edsApi host).packAlone opts = describe host opts

theorem refinesRequest (host : Host) (hzero : ∀ a ∈ opts, 0 ∉ a.text) :
    RefinesRequest host opts where
  states obj hobj := (@requests_run host _ _ _ (asks_instantiate hobj) hzero).1
  target obj r hobj hr := by
    obtain ⟨hearly, -⟩ := @requests_run host _ _ _ (asks_instantiate hobj) hzero
    rw [hr] at hearly
    generalize hrun : (early opts).foldlM (accept host) obj = o at hearly
    cases hearly with
    | some hasks =>
      rw [run_of_foldlM hrun]
      exact hasks.target
  refusals obj hobj := (@requests_run host _ _ _ (asks_instantiate hobj) hzero).2
  packet := packAlone_eq_describe host hzero

end

/-- A command with a version, and a parameter that it does not have. -/
theorem refinesRequest_version :
    (Dispatch.edsApi .sample).packAlone
        [⟨.pktid, str "ES:1"⟩, ⟨.pktver, str "1"⟩, ⟨.none, str "x=1"⟩] =
      some [0, 0, 0x31, 0, 0, 0, 0, 0] :=
  (refinesRequest .sample (by decide)).packet.trans (by decide)

end CmdSend.Eds
