-- SUMMARY: Sessions with the EDS encoder: its lookups happen once and in order, whatever the order of the calls.
import CmdSend.Eds.Lookup

/-!
# Sessions with the EDS encoder

A session is a sequence of calls of the three functions that look something up, in any
order. The two lookup states make the lookups happen once: the steps of a session are a
word of the automaton `Stage.next`, which says the order that they are meant to have
(`follows_session`).
-/

namespace CmdSend.Eds

open CLib

/-! ## Calls -/

/-- A call of the interface of the encoder. -/
inductive Call
  | parseOption (argV : ArgV)
  | helpUsage
  | getPackedObject (out : Mem) (sz : Nat)

namespace Call

/-- What a call leaves behind. -/
def cmd (host : Host) (cmd : CommandData) : Call → CommandData
  | parseOption argV => (Eds.parseOption host cmd argV).cmd
  | helpUsage => (Eds.helpUsage host cmd).2.1
  | getPackedObject out sz => (Eds.getPackedObject host cmd out sz).cmd

/-- The steps that a call executes. -/
def steps (host : Host) (cmd : CommandData) : Call → List Step
  | parseOption argV => (Eds.parseOption host cmd argV).steps
  | helpUsage => (Eds.helpUsage host cmd).2.2
  | getPackedObject out sz => (Eds.getPackedObject host cmd out sz).steps

end Call

/-- The state after a sequence of calls. -/
def session (host : Host) (cmd : CommandData) (calls : List Call) : CommandData :=
  calls.foldl (fun cmd call => call.cmd host cmd) cmd

/-- The steps that a sequence of calls executes. -/
def sessionSteps (host : Host) (cmd : CommandData) (calls : List Call) : List Step :=
  (visited (fun cmd call => call.cmd host cmd) cmd calls).flatMap fun c => c.2.steps host c.1

/-! ## The order of the steps -/

/-- How far the lookups have come. -/
inductive Stage
  | idle
  | addressed
  | coded
  | initialized
deriving DecidableEq, Repr

namespace Stage

/-- The interface, the command, the buffer, and then any number of parameters. -/
def next : Stage → Step → Option Stage
  | idle, .processDestIntf => some addressed
  | addressed, .processCmdCode => some coded
  | coded, .initializeNativeObject => some initialized
  | initialized, .writeParameter => some initialized
  | _, _ => none

def rank : Stage → Nat
  | idle => 0
  | addressed => 1
  | coded => 2
  | initialized => 3

theorem rank_next (s : Stage) (step : Step) (s' : Stage) (h : s.next step = some s') :
    s.rank ≤ s'.rank := by
  cases s <;> cases step <;> cases h <;> decide

end Stage

/-- The rank of the stage that takes a step. -/
def Step.rank : Step → Nat
  | .processDestIntf => 0
  | .processCmdCode => 1
  | .initializeNativeObject => 2
  | .writeParameter => 3

/-- A step of a lookup is in a word of the automaton once. -/
theorem count_le_one {steps : List Step} {s s' : Stage} (h : steps.foldlM Stage.next s = some s')
    {step : Step} (hstep : step ≠ .writeParameter) : steps.count step ≤ 1 := by
  have hpast : ∀ s s' : Stage, s.next step = some s' →
      s.rank ≤ step.rank ∧ step.rank < s'.rank := by
    intro s s' hs
    cases step with
    | writeParameter => exact absurd rfl hstep
    | _ =>
      cases s <;> cases hs
      decide
  exact count_le_one_of_rank Stage.rank_next hpast h

/-- A parameter comes after the initialisation of the buffer. -/
theorem mem_initializeNativeObject {l r : List Step} {s' : Stage}
    (h : (l ++ .writeParameter :: r).foldlM Stage.next .idle = some s') :
    .initializeNativeObject ∈ l := by
  refine mem_of_needs (Q := (· = Stage.initialized)) (fun s s' hs => ?_) (fun s step s' hs hQ => ?_)
    Stage.noConfusion h
  · cases s <;> cases hs
    rfl
  · subst hQ
    cases s <;> cases step <;> cases hs
    · exact Or.inr rfl
    · exact Or.inl rfl

/-- The initialisation is not repeated after a parameter. -/
theorem initialized_before {l r : List Step} {s' : Stage}
    (h : (l ++ .writeParameter :: r).foldlM Stage.next .idle = some s') :
    .initializeNativeObject ∈ l ∧ .initializeNativeObject ∉ r := by
  have honce : (l ++ .writeParameter :: r).count .initializeNativeObject ≤ 1 :=
    count_le_one h Step.noConfusion
  have hmem := mem_initializeNativeObject h
  refine ⟨hmem, fun hagain => ?_⟩
  have hbefore := List.one_le_count_iff.mpr hmem
  have hafter := List.one_le_count_iff.mpr hagain
  rw [List.count_append, List.count_cons_of_ne Step.noConfusion] at honce
  omega

/-! ## The checks -/

section

variable (host : Host) (cmd : CommandData)

theorem checkValidIntf_of_known (h : cmd.intfState ≠ .unknown) :
    cmd.checkValidIntf host = ⟨cmd.intfState = .success, cmd, []⟩ := by
  unfold CommandData.checkValidIntf
  simp only [if_neg h]

theorem ok_checkValidIntf :
    (cmd.checkValidIntf host).ok = true ↔ (cmd.checkValidIntf host).cmd.intfState = .success :=
  decide_eq_true_iff

/-- The first check of the interface: its steps and the states it can end in. -/
theorem checkValidIntf_of_unknown (h : cmd.intfState = .unknown) :
    ((cmd.checkValidIntf host).steps = [.processDestIntf] ∧
        (cmd.checkValidIntf host).cmd.intfState = .failed) ∨
      ((cmd.checkValidIntf host).steps = [.processDestIntf, .processCmdCode] ∧
        (cmd.checkValidIntf host).cmd.intfState ≠ .unknown) := by
  unfold CommandData.checkValidIntf
  simp only [if_pos h]
  split
  · exact Or.inl ⟨rfl, rfl⟩
  · split
    · exact Or.inr ⟨rfl, LookupState.noConfusion⟩
    · exact Or.inr ⟨rfl, LookupState.noConfusion⟩

theorem checkValidIntf_known : (cmd.checkValidIntf host).cmd.intfState ≠ .unknown := by
  by_cases h : cmd.intfState = .unknown
  · cases checkValidIntf_of_unknown host cmd h with
    | inl hfailed =>
      rw [hfailed.2]
      exact LookupState.noConfusion
    | inr hcoded => exact hcoded.2
  · rw [checkValidIntf_of_known host cmd h]
    exact h

theorem intfState_lookupPayloadDetail :
    (cmd.lookupPayloadDetail host).2.intfState = cmd.intfState := by
  unfold CommandData.lookupPayloadDetail
  split
  · rfl
  · split <;> rfl

/-- The first check of the payload, after a check of the interface. -/
theorem checkValidPayload_of_unknown (h : cmd.payloadState = .unknown) :
    (cmd.checkValidPayload host).cmd.intfState = (cmd.checkValidIntf host).cmd.intfState ∧
      (((cmd.checkValidPayload host).steps = (cmd.checkValidIntf host).steps ∧
          (cmd.checkValidPayload host).cmd.payloadState = .failed) ∨
        ((cmd.checkValidIntf host).ok = true ∧
          (cmd.checkValidPayload host).steps =
            (cmd.checkValidIntf host).steps ++ [.initializeNativeObject] ∧
          (cmd.checkValidPayload host).cmd.payloadState ≠ .unknown)) := by
  have hdetail := intfState_lookupPayloadDetail host (cmd.checkValidIntf host).cmd
  unfold CommandData.checkValidPayload
  simp only [if_pos h]
  split
  · exact ⟨rfl, Or.inl ⟨rfl, rfl⟩⟩
  · rename_i hok
    rw [Bool.not_eq_true, Bool.not_eq_false'] at hok
    split
    · exact ⟨hdetail, Or.inl ⟨rfl, rfl⟩⟩
    · split
      · exact ⟨hdetail, Or.inr ⟨hok, rfl, LookupState.noConfusion⟩⟩
      · exact ⟨hdetail, Or.inr ⟨hok, rfl, LookupState.noConfusion⟩⟩

theorem intfState_checkValidPayload (h : cmd.intfState ≠ .unknown) :
    (cmd.checkValidPayload host).cmd.intfState = cmd.intfState := by
  by_cases hpayload : cmd.payloadState = .unknown
  · rw [(checkValidPayload_of_unknown host cmd hpayload).1, checkValidIntf_of_known host cmd h]
  · rw [checkValidPayload_of_known host cmd hpayload]

theorem not_written_checkValidIntf : .writeParameter ∉ (cmd.checkValidIntf host).steps := by
  by_cases h : cmd.intfState = .unknown
  · cases checkValidIntf_of_unknown host cmd h with
    | inl hfailed => simp [hfailed.1]
    | inr hcoded => simp [hcoded.1]
  · simp [checkValidIntf_of_known host cmd h]

theorem not_written_checkValidPayload : .writeParameter ∉ (cmd.checkValidPayload host).steps := by
  have hintf := not_written_checkValidIntf host cmd
  by_cases h : cmd.payloadState = .unknown
  · cases (checkValidPayload_of_unknown host cmd h).2 with
    | inl hfailed => simpa [hfailed.1] using hintf
    | inr hinit => simpa [hinit.2.1] using hintf
  · simp [checkValidPayload_of_known host cmd h]

/-! ## What options leave alone -/

/-- The two states agree on the lookup states and on what the lookups have found. -/
structure SameLookups (cmd cmd' : CommandData) : Prop where
  intfState : cmd'.intfState = cmd.intfState
  payloadState : cmd'.payloadState = cmd.payloadState
  actualArg : cmd'.actualArg = cmd.actualArg
  edsPayloadInfo : cmd'.edsPayloadInfo = cmd.edsPayloadInfo

/-- The call does nothing to the lookups. -/
def NoLookup (o : Outcome) : Prop := SameLookups cmd o.cmd ∧ o.steps = []

theorem noLookup_parseDest (sep1 : Text) (allowCmd : Bool) :
    NoLookup cmd (cmd.parseDest sep1 allowCmd) := by
  unfold CommandData.parseDest
  simp only
  split
  · split <;> exact ⟨⟨rfl, rfl, rfl, rfl⟩, rfl⟩
  · exact ⟨⟨rfl, rfl, rfl, rfl⟩, rfl⟩

theorem noLookup_parseDestFullImpl (argV : ArgV) (allowInst allowCmd : Bool) :
    NoLookup cmd (cmd.parseDestFullImpl host argV allowInst allowCmd) := by
  obtain ⟨params, hcases⟩ := parseDestFullImpl_cases host cmd argV allowInst allowCmd
  cases hcases with
  | inl hrej =>
    rw [hrej]
    exact ⟨⟨rfl, rfl, rfl, rfl⟩, rfl⟩
  | inr hdest =>
    obtain ⟨sep1, hdest⟩ := hdest
    obtain ⟨⟨hintf, hpayload, harg, hinfo⟩, hsteps⟩ :=
      noLookup_parseDest { cmd with params := params } sep1 allowCmd
    rw [hdest]
    exact ⟨⟨hintf, hpayload, harg, hinfo⟩, hsteps⟩

theorem noLookup_parseEndian (text : Text) : NoLookup cmd (cmd.parseEndian text) := by
  unfold CommandData.parseEndian
  split <;> exact ⟨⟨rfl, rfl, rfl, rfl⟩, rfl⟩

theorem sameLookups_processParameterArgument (optarg : Text) :
    SameLookups cmd (cmd.processParameterArgument host optarg).1 := by
  unfold CommandData.processParameterArgument
  split
  · exact ⟨rfl, rfl, rfl, rfl⟩
  · simp only
    split
    · exact ⟨rfl, rfl, rfl, rfl⟩
    · split <;> exact ⟨rfl, rfl, rfl, rfl⟩

theorem steps_processParameterArgument (optarg : Text) :
    (cmd.processParameterArgument host optarg).2 = [] ∨
      (cmd.processParameterArgument host optarg).2 = [.writeParameter] := by
  unfold CommandData.processParameterArgument
  split
  · exact Or.inl rfl
  · simp only
    split
    · exact Or.inl rfl
    · split <;> exact Or.inr rfl

theorem buf_processParameterArgument (optarg : Text) :
    (cmd.processParameterArgument host optarg).1.buf = cmd.buf ∨
      ∃ id offset value, (cmd.processParameterArgument host optarg).1.buf =
        (host.scalarFromString id offset cmd.buf value).2 := by
  unfold CommandData.processParameterArgument
  split
  · exact Or.inl rfl
  · simp only
    split
    · exact Or.inl rfl
    · split <;> exact Or.inr ⟨_, _, _, rfl⟩

/-- An option that is not a positional argument has nothing to do with the lookups. -/
theorem noLookup_parseOption {a : ArgV} (h : a.optionId ≠ .none) :
    NoLookup cmd (parseOption host cmd a) := by
  obtain ⟨id, text⟩ := a
  cases id with
  | none => exact absurd rfl h
  | endian => exact noLookup_parseEndian cmd text
  | pktedsver | pktid | pktapid => exact noLookup_parseDestFullImpl host cmd _ _ _
  | _ => exact ⟨⟨rfl, rfl, rfl, rfl⟩, rfl⟩

theorem steps_parseParameter (text : Text) :
    (cmd.parseParameter host text).steps = (cmd.checkValidPayload host).steps ∨
      (cmd.checkValidPayload host).cmd.payloadState = .success ∧
        (cmd.parseParameter host text).steps =
          (cmd.checkValidPayload host).steps ++ [.writeParameter] := by
  unfold CommandData.parseParameter
  cases hok : (cmd.checkValidPayload host).ok with
  | false => exact Or.inl (by simp [hok])
  | true =>
    cases steps_processParameterArgument host (cmd.checkValidPayload host).cmd text with
    | inl hnone => exact Or.inl (by simp [hok, hnone])
    | inr hwrite => exact Or.inr ⟨(ok_checkValidPayload host cmd).mp hok, by simp [hok, hwrite]⟩

/-- A positional argument does nothing to the lookups but check the payload. -/
theorem sameLookups_parseParameter (text : Text) :
    SameLookups (cmd.checkValidPayload host).cmd (cmd.parseParameter host text).cmd := by
  rw [cmd_parseParameter]
  split
  · exact sameLookups_processParameterArgument host _ text
  · exact ⟨rfl, rfl, rfl, rfl⟩

end

/-! ## Calls of the packer -/

/-- `ActualArg` after a call of the packer with a state that knows the payload. -/
def packedArg (host : Host) (cmd : CommandData) (out : Mem) (sz : Nat) : EdsId :=
  if cmd.payloadState = .success then
    (host.packCompleteObjectVarSize cmd.actualArg out cmd.buf sz).2.1
  else cmd.actualArg

/-- The packer checks the payload, and changes nothing else than `ActualArg`. -/
theorem getPackedObject_spec (host : Host) (cmd : CommandData) (out : Mem) (sz : Nat) :
    (getPackedObject host cmd out sz).cmd = { (cmd.checkValidPayload host).cmd with
        actualArg := packedArg host (cmd.checkValidPayload host).cmd out sz } ∧
      (getPackedObject host cmd out sz).steps = (cmd.checkValidPayload host).steps ∧
      ((getPackedObject host cmd out sz).ok = true →
        (cmd.checkValidPayload host).cmd.payloadState = .success) := by
  have hok := ok_checkValidPayload host cmd
  unfold getPackedObject packedArg
  cases hcheck : (cmd.checkValidPayload host).ok with
  | false =>
    rw [hcheck] at hok
    simp [hcheck, ← hok]
  | true =>
    have hsuccess := hok.mp hcheck
    simp only [hcheck, hsuccess, Bool.not_true, Bool.false_eq_true, if_false, if_true]
    split <;> exact ⟨rfl, rfl, fun _ => trivial⟩

/-! ## The states follow the steps -/

/-- The lookup states say how far the lookups have come. -/
structure Follows (cmd : CommandData) (s : Stage) : Prop where
  idle : cmd.intfState = .unknown → s = .idle
  coded : cmd.intfState = .success → s = .coded ∨ s = .initialized
  waiting : cmd.payloadState = .unknown → s ≠ .initialized
  initialized : cmd.payloadState = .success → s = .initialized ∧ cmd.intfState = .success
  known : cmd.payloadState ≠ .unknown → cmd.intfState ≠ .unknown

section

variable (host : Host) {cmd cmd' : CommandData} {s : Stage}

theorem Follows.congr (h : Follows cmd s) (hintf : cmd'.intfState = cmd.intfState)
    (hpayload : cmd'.payloadState = cmd.payloadState) : Follows cmd' s := by
  obtain ⟨hidle, hcoded, hwaiting, hinit, hknown⟩ := h
  rw [← hintf] at hidle hcoded hinit hknown
  rw [← hpayload] at hwaiting hinit hknown
  exact ⟨hidle, hcoded, hwaiting, hinit, hknown⟩

theorem Follows.unknown (h : Follows cmd s) (hintf : cmd.intfState = .unknown) :
    cmd.payloadState = .unknown := by
  by_contra hknown
  exact h.known hknown hintf

theorem follows_checkValidIntf (h : Follows cmd s) :
    ∃ s', (cmd.checkValidIntf host).steps.foldlM Stage.next s = some s' ∧
      Follows (cmd.checkValidIntf host).cmd s' := by
  by_cases hintf : cmd.intfState = .unknown
  · have hpayload : (cmd.checkValidIntf host).cmd.payloadState = .unknown :=
      (frame_checkValidIntf host cmd).payloadState.trans (h.unknown hintf)
    have hknown := checkValidIntf_known host cmd
    obtain rfl := h.idle hintf
    cases checkValidIntf_of_unknown host cmd hintf with
    | inl hfailed =>
      refine ⟨.addressed, by rw [hfailed.1]; rfl, ?_⟩
      exact {
        idle := fun h => absurd h hknown
        coded := by rw [hfailed.2]; exact LookupState.noConfusion
        waiting := fun _ => Stage.noConfusion
        initialized := by rw [hpayload]; exact LookupState.noConfusion
        known := fun _ => hknown }
    | inr hcoded =>
      refine ⟨.coded, by rw [hcoded.1]; rfl, ?_⟩
      exact {
        idle := fun h => absurd h hknown
        coded := fun _ => Or.inl rfl
        waiting := fun _ => Stage.noConfusion
        initialized := by rw [hpayload]; exact LookupState.noConfusion
        known := fun _ => hknown }
  · rw [checkValidIntf_of_known host cmd hintf]
    exact ⟨s, rfl, h⟩

theorem follows_checkValidPayload (h : Follows cmd s) :
    ∃ s', (cmd.checkValidPayload host).steps.foldlM Stage.next s = some s' ∧
      Follows (cmd.checkValidPayload host).cmd s' := by
  by_cases hpayload : cmd.payloadState = .unknown
  · obtain ⟨hintf, hcases⟩ := checkValidPayload_of_unknown host cmd hpayload
    obtain ⟨s', hsteps, h'⟩ := follows_checkValidIntf host h
    have hknown : (cmd.checkValidPayload host).cmd.intfState ≠ .unknown := by
      rw [hintf]
      exact checkValidIntf_known host cmd
    have hpayload' := (checkValidPayload_spec host cmd).1
    cases hcases with
    | inl hfailed =>
      refine ⟨s', by rw [hfailed.1, hsteps], ?_⟩
      exact {
        idle := fun h => absurd h hknown
        coded := by rw [hintf]; exact h'.coded
        waiting := fun h => absurd h hpayload'
        initialized := by rw [hfailed.2]; exact LookupState.noConfusion
        known := fun _ => hknown }
    | inr hinit =>
      obtain ⟨hok, hinit, -⟩ := hinit
      have hsuccess := (ok_checkValidIntf host cmd).mp hok
      have hwaiting := h'.waiting
        ((frame_checkValidIntf host cmd).payloadState.trans hpayload)
      -- an interface that is valid leaves the lookups at the stage before the buffer
      obtain rfl : s' = .coded := (h'.coded hsuccess).resolve_right hwaiting
      refine ⟨.initialized, by rw [hinit, List.foldlM_append, hsteps]; rfl, ?_⟩
      exact {
        idle := fun h => absurd h hknown
        coded := fun _ => Or.inr rfl
        waiting := fun h => absurd h hpayload'
        initialized := fun _ => ⟨rfl, hintf.trans hsuccess⟩
        known := fun _ => hknown }
  · rw [checkValidPayload_of_known host cmd hpayload]
    exact ⟨s, rfl, h⟩

/-- The steps of a call go on from the stage that the state stands for. -/
theorem follows_call (h : Follows cmd s) (call : Call) :
    ∃ s', (call.steps host cmd).foldlM Stage.next s = some s' ∧ Follows (call.cmd host cmd) s' := by
  cases call with
  | parseOption a =>
    by_cases hid : a.optionId = .none
    · obtain ⟨id, text⟩ := a
      obtain rfl : id = .none := hid
      obtain ⟨s', hsteps, h'⟩ := follows_checkValidPayload host h
      have hsame := sameLookups_parseParameter host cmd text
      have hfollows := h'.congr hsame.intfState hsame.payloadState
      refine ⟨s', ?_, hfollows⟩
      change (cmd.parseParameter host text).steps.foldlM Stage.next s = some s'
      cases steps_parseParameter host cmd text with
      | inl hnone => rw [hnone, hsteps]
      | inr hwrite =>
        -- a parameter is written for a valid payload only, that is, at the last stage
        obtain ⟨rfl, -⟩ := h'.initialized hwrite.1
        rw [hwrite.2, List.foldlM_append, hsteps]
        rfl
    · obtain ⟨hsame, hsteps⟩ := noLookup_parseOption host cmd hid
      exact ⟨s, by rw [Call.steps, hsteps]; rfl, h.congr hsame.intfState hsame.payloadState⟩
  | helpUsage =>
    obtain ⟨s₁, hintf, h₁⟩ := follows_checkValidIntf host h
    obtain ⟨s₂, hpayload, h₂⟩ := follows_checkValidPayload host h₁
    refine ⟨s₂, ?_, h₂⟩
    rw [Call.steps, helpUsage]
    simp only [List.foldlM_append, hintf]
    exact hpayload
  | getPackedObject out sz =>
    obtain ⟨s', hsteps, h'⟩ := follows_checkValidPayload host h
    obtain ⟨hcmd, hpack, -⟩ := getPackedObject_spec host cmd out sz
    refine ⟨s', by rw [Call.steps, hpack, hsteps], ?_⟩
    rw [Call.cmd, hcmd]
    exact h'.congr rfl rfl

end

/-! ## Sessions -/

theorem session_append (host : Host) (cmd : CommandData) (calls more : List Call) :
    session host cmd (calls ++ more) = session host (session host cmd calls) more :=
  List.foldl_append

/-- A session is a word of the automaton, up to the stage that its state stands for. -/
theorem follows_session (host : Host) {cmd : CommandData} {s : Stage} (h : Follows cmd s)
    (calls : List Call) :
    ∃ s', (sessionSteps host cmd calls).foldlM Stage.next s = some s' ∧
      Follows (session host cmd calls) s' := by
  induction calls generalizing cmd s with
  | nil => exact ⟨s, rfl, h⟩
  | cons call calls ih =>
    obtain ⟨s₁, hcall, h₁⟩ := follows_call host h call
    obtain ⟨s₂, hcalls, h₂⟩ := ih h₁
    refine ⟨s₂, ?_, h₂⟩
    unfold sessionSteps
    rw [visited, List.flatMap_cons, List.foldlM_append, hcall]
    exact hcalls

theorem follows_instantiate {host : Host} {obj : CommandData} (h : instantiate host = some obj) :
    Follows obj .idle := by
  unfold instantiate at h
  split at h
  · cases h
  · obtain rfl := Option.some.inj h
    exact ⟨fun _ => rfl, LookupState.noConfusion, fun _ => Stage.noConfusion,
      LookupState.noConfusion, fun h => absurd rfl h⟩

/-! ## Settled states -/

/-- `ActualArg` after a call with a state that knows the payload. -/
def argAfter (host : Host) (cmd : CommandData) : Call → EdsId
  | .getPackedObject out sz => packedArg host cmd out sz
  | _ => cmd.actualArg

section

variable (host : Host) {cmd : CommandData}

theorem intfState_call (h : cmd.intfState ≠ .unknown) (call : Call) :
    (call.cmd host cmd).intfState = cmd.intfState := by
  cases call with
  | parseOption a =>
    by_cases hid : a.optionId = .none
    · obtain ⟨id, text⟩ := a
      obtain rfl : id = .none := hid
      exact (sameLookups_parseParameter host cmd text).intfState.trans
        (intfState_checkValidPayload host cmd h)
    · exact (noLookup_parseOption host cmd hid).1.intfState
  | helpUsage =>
    change ((cmd.checkValidIntf host).cmd.checkValidPayload host).cmd.intfState = _
    rw [checkValidIntf_of_known host cmd h]
    exact intfState_checkValidPayload host cmd h
  | getPackedObject out sz =>
    rw [Call.cmd, (getPackedObject_spec host cmd out sz).1]
    exact intfState_checkValidPayload host cmd h

/-- A call with a state that knows the payload leaves what the lookups have found, what
the packer does to `ActualArg` apart. -/
theorem settled_call (hintf : cmd.intfState ≠ .unknown) (hpayload : cmd.payloadState ≠ .unknown)
    (call : Call) :
    (call.cmd host cmd).payloadState = cmd.payloadState ∧
      (call.cmd host cmd).edsPayloadInfo = cmd.edsPayloadInfo ∧
      (call.cmd host cmd).actualArg = argAfter host cmd call := by
  have hcheck := checkValidPayload_of_known host cmd hpayload
  cases call with
  | parseOption a =>
    by_cases hid : a.optionId = .none
    · obtain ⟨id, text⟩ := a
      obtain rfl : id = .none := hid
      have hsame := sameLookups_parseParameter host cmd text
      rw [hcheck] at hsame
      exact ⟨hsame.payloadState, hsame.edsPayloadInfo, hsame.actualArg⟩
    · have hsame := (noLookup_parseOption host cmd hid).1
      exact ⟨hsame.payloadState, hsame.edsPayloadInfo, hsame.actualArg⟩
  | helpUsage =>
    have hsame : (Call.helpUsage.cmd host cmd) = cmd := by
      change ((cmd.checkValidIntf host).cmd.checkValidPayload host).cmd = cmd
      rw [checkValidIntf_of_known host cmd hintf, hcheck]
    rw [hsame]
    exact ⟨rfl, rfl, rfl⟩
  | getPackedObject out sz =>
    rw [Call.cmd, (getPackedObject_spec host cmd out sz).1, hcheck]
    exact ⟨rfl, rfl, rfl⟩

theorem intfState_session (h : cmd.intfState ≠ .unknown) (calls : List Call) :
    (session host cmd calls).intfState = cmd.intfState := by
  refine foldl_invariant (I := fun s : CommandData => s.intfState = cmd.intfState)
    (fun s call hs => ?_) calls rfl
  have hknown : s.intfState ≠ .unknown := hs ▸ h
  exact (intfState_call host hknown call).trans hs

theorem settled_session (hintf : cmd.intfState ≠ .unknown)
    (hpayload : cmd.payloadState ≠ .unknown) (calls : List Call) :
    (session host cmd calls).payloadState = cmd.payloadState ∧
      (session host cmd calls).edsPayloadInfo = cmd.edsPayloadInfo := by
  refine (foldl_invariant (I := fun s : CommandData => s.intfState ≠ .unknown ∧
    s.payloadState = cmd.payloadState ∧ s.edsPayloadInfo = cmd.edsPayloadInfo)
    (fun s call hs => ?_) calls ⟨hintf, rfl, rfl⟩).2
  obtain ⟨hknown, hstate, hinfo⟩ := hs
  obtain ⟨hstate', hinfo', -⟩ := settled_call host hknown (by rwa [hstate]) call
  have hknown' := intfState_call host hknown call
  exact ⟨by rwa [hknown'], hstate'.trans hstate, hinfo'.trans hinfo⟩

/-- A positional argument changes the buffer by the conversion of its value, if at
all. -/
theorem buf_parseParameter (hpayload : cmd.payloadState ≠ .unknown) (text : Text) :
    (cmd.parseParameter host text).cmd.buf = cmd.buf ∨
      cmd.payloadState = .success ∧ ∃ id offset value, (cmd.parseParameter host text).cmd.buf =
        (host.scalarFromString id offset cmd.buf value).2 := by
  rw [cmd_parseParameter, checkValidPayload_of_known host cmd hpayload]
  by_cases hsuccess : cmd.payloadState = .success
  · rw [if_pos (decide_eq_true hsuccess)]
    exact (buf_processParameterArgument host cmd text).imp_right (⟨hsuccess, ·⟩)
  · rw [if_neg (by simpa using hsuccess)]
    exact Or.inl rfl

end

/-- The lookups as a state machine, over every session with `obj`. -/
structure LookupMachine (host : Host) (obj : CommandData) : Prop where
  intfState : ∀ calls more, (session host obj calls).intfState ≠ .unknown →
    (session host obj (calls ++ more)).intfState = (session host obj calls).intfState
  payloadState : ∀ calls more, (session host obj calls).payloadState ≠ .unknown →
    (session host obj (calls ++ more)).payloadState = (session host obj calls).payloadState
  success : ∀ calls, (session host obj calls).payloadState = .success →
    (session host obj calls).intfState = .success
  once : ∀ calls step, step ≠ .writeParameter → (sessionSteps host obj calls).count step ≤ 1
  edsPayloadInfo : ∀ calls more, (session host obj calls).payloadState ≠ .unknown →
    (session host obj (calls ++ more)).edsPayloadInfo = (session host obj calls).edsPayloadInfo
  /-- A positional argument is written for a valid payload. -/
  written : ∀ calls call, .writeParameter ∈ call.steps host (session host obj calls) →
    (session host obj (calls ++ [call])).payloadState = .success
  /-- The buffer is initialised before it is written, and not again. -/
  initialized : ∀ calls l r, sessionSteps host obj calls = l ++ .writeParameter :: r →
    .initializeNativeObject ∈ l ∧ .initializeNativeObject ∉ r
  /-- A later positional argument changes the buffer by the conversion of its value. -/
  buf : ∀ calls text, (session host obj calls).payloadState ≠ .unknown →
    (session host obj (calls ++ [.parseOption ⟨.none, text⟩])).buf =
        (session host obj calls).buf ∨
      (session host obj calls).payloadState = .success ∧ ∃ id offset value,
        (session host obj (calls ++ [.parseOption ⟨.none, text⟩])).buf =
          (host.scalarFromString id offset (session host obj calls).buf value).2
  packed : ∀ calls out sz, (getPackedObject host (session host obj calls) out sz).ok = true →
    (getPackedObject host (session host obj calls) out sz).cmd.payloadState = .success

/-- `ActualArg` is settled with the payload. -/
def ArgSettled (host : Host) (obj : CommandData) : Prop :=
  ∀ calls more, (session host obj calls).payloadState ≠ .unknown →
    (session host obj (calls ++ more)).actualArg = (session host obj calls).actualArg

/-- `ActualArg` is settled with the payload, but for the calls that pack it. -/
def ArgLeftToPacker (host : Host) (obj : CommandData) : Prop :=
  ∀ calls call, (session host obj calls).payloadState ≠ .unknown →
    (session host obj (calls ++ [call])).actualArg = argAfter host (session host obj calls) call

/-- A call writes a parameter when it knows that the payload is valid. -/
theorem payloadState_of_written {host : Host} {cmd : CommandData} {call : Call}
    (h : .writeParameter ∈ call.steps host cmd) :
    (call.cmd host cmd).payloadState = .success := by
  cases call with
  | parseOption a =>
    by_cases hid : a.optionId = .none
    · obtain ⟨id, text⟩ := a
      obtain rfl : id = .none := hid
      cases steps_parseParameter host cmd text with
      | inl hnone => exact absurd (hnone ▸ h) (not_written_checkValidPayload host cmd)
      | inr hwrite => exact (sameLookups_parseParameter host cmd text).payloadState.trans hwrite.1
    · rw [Call.steps, (noLookup_parseOption host cmd hid).2] at h
      exact absurd h List.not_mem_nil
  | helpUsage =>
    cases List.mem_append.mp h with
    | inl hintf => exact absurd hintf (not_written_checkValidIntf host cmd)
    | inr hpayload => exact absurd hpayload (not_written_checkValidPayload host _)
  | getPackedObject out sz =>
    rw [Call.steps, (getPackedObject_spec host cmd out sz).2.1] at h
    exact absurd h (not_written_checkValidPayload host cmd)

/-- The lookups of a session, with an object that `EDS_Instantiate` returns. -/
theorem lookupMachine {host : Host} {obj : CommandData} (h : instantiate host = some obj) :
    LookupMachine host obj ∧ ArgLeftToPacker host obj := by
  have hfollows := follows_session host (follows_instantiate h)
  have hknown : ∀ calls, (session host obj calls).payloadState ≠ .unknown →
      (session host obj calls).intfState ≠ .unknown := by
    intro calls
    obtain ⟨s, -, hs⟩ := hfollows calls
    exact hs.known
  constructor
  · constructor
    case intfState =>
      intro calls more hintf
      rw [session_append]
      exact intfState_session host hintf more
    case payloadState =>
      intro calls more hpayload
      rw [session_append]
      exact (settled_session host (hknown calls hpayload) hpayload more).1
    case success =>
      intro calls hsuccess
      obtain ⟨s, -, hs⟩ := hfollows calls
      exact (hs.initialized hsuccess).2
    case once =>
      intro calls step hstep
      obtain ⟨s, hsteps, -⟩ := hfollows calls
      exact count_le_one hsteps hstep
    case edsPayloadInfo =>
      intro calls more hpayload
      rw [session_append]
      exact (settled_session host (hknown calls hpayload) hpayload more).2
    case written =>
      intro calls call hwrite
      rw [session_append]
      exact payloadState_of_written hwrite
    case initialized =>
      intro calls l r hsplit
      obtain ⟨s, hsteps, -⟩ := hfollows calls
      rw [hsplit] at hsteps
      exact initialized_before hsteps
    case buf =>
      intro calls text hpayload
      rw [session_append]
      exact buf_parseParameter host hpayload text
    case packed =>
      intro calls out sz hok
      obtain ⟨hcmd, -, hsuccess⟩ := getPackedObject_spec host (session host obj calls) out sz
      rw [hcmd]
      exact hsuccess hok
  · intro calls call hpayload
    rw [session_append]
    exact (settled_call host (hknown calls hpayload) hpayload call).2.2

/-- The packer reports the type that it has packed through `ActualArg`. -/
theorem argSettled_fails_on_pack :
    let host : Host := { Host.sample with
      packCompleteObjectVarSize := fun arg out buf _ =>
        (0, arg + 1, out.copy 0 (buf.slice 0 8), 8) }
    ∃ obj, instantiate host = some obj ∧ ¬(LookupMachine host obj ∧ ArgSettled host obj) := by
  refine ⟨_, rfl, fun h => ?_⟩
  have hsame := h.2 [.helpUsage] [.getPackedObject (fun _ => 0) 8] (by decide)
  exact absurd hsame (by decide)

theorem lookupMachine_sample :
    ∃ obj, instantiate Host.sample = some obj ∧ LookupMachine Host.sample obj ∧
      ArgLeftToPacker Host.sample obj :=
  ⟨_, rfl, lookupMachine rfl⟩

end CmdSend.Eds
