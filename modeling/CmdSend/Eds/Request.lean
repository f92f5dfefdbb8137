-- SUMMARY: A request to the EDS encoder: what the options before the first positional argument ask for, and what the database has for it.
import CmdSend.Eds.Component
import CmdSend.Eds.Usage
import CmdSend.Eds.Writes
import Mathlib.Data.List.TakeWhile

/-!
# Requests

A `Request` is what the options ask for: two texts and a native buffer, with no arrays and no
lookup states. `Request.target` is what the database has for it, as a function that fails in
one way. The encoder goes through the requests option by option, and its lookups find the
target of the request that it is at.
-/

namespace CmdSend.Eds

open CLib

/-! ## Requests -/

instance (text : Text) : Decidable (IsNumeral text) := decidable_of_iff _ (isNumeral_iff text)

/-- What the options so far ask for: the names of the interface and of the command, and the
header of the message. -/
structure Request where
  intf : Text
  cmd : Text
  buf : Mem

namespace Request

/-- The request before the first option. -/
def empty (host : Host) : Request := ⟨[], [], host.setSeqFlag (fun _ => 0) 3⟩

/-- The request for a destination. -/
def withDest (r : Request) (text : Text) : Request :=
  let d := names none text
  { r with
    intf := d.intf.take (optargSize - 1)
    cmd := if d.cmd = [] then r.cmd else d.cmd.take (optargSize - 1) }

/-- Ask for a destination. Behind one with a colon, every other one is refused. -/
def askFor (r : Request) (text : Text) (allowCmd : Bool) : Option Request :=
  if strchr r.intf (ch ':') ≠ none ∨ ((names none text).cmd ≠ [] ∧ allowCmd = false) then none
  else some (r.withDest text)

/-- What an option adds to a request, unless it is refused. The writes of positional
arguments are not part of the request. -/
def step (host : Host) (r : Request) (a : ArgV) : Option Request :=
  match a.optionId with
  | .endian => if a.text = str "EDS" then some r else none
  | .protocol => if getProtocolFromString a.text = .undefined then none else some r
  | .pktedsver | .pktid => r.askFor a.text true
  | .pktapid => r.askFor a.text false
  | .cmdcode | .pktfc => some { r with cmd := a.text.take (optargSize - 1) }
  | .none => some r
  | _ => some { r with buf := write host ⟨0, 0⟩ r.buf a }

end Request

/-! ## Targets -/

/-- What a request finds: the type of the command, its payload, and the object in the native
buffer. -/
structure Target where
  arg : EdsId
  info : EntityInfo
  buf : Mem

/-- The name with the implicit component, where there is a place and room for it. -/
def implicitName (intf : Text) : Option Text :=
  (strrchr intf (ch '/')).bind fun i =>
    if intf.length + 12 < optargSize then some (withComponent (intf.take i) (intf.drop (i + 1)))
    else none

namespace Host

variable (host : Host)

/-- The interface of a message id, with the parameters of its messages. -/
def numbered (msgId : BitVec 64) : Option (EdsId × PubSub) :=
  let info := host.getTopicInfo (host.unmapListenerComponent ⟨0, 1⟩ ⟨msgId⟩).topicId
  if info.1 = host.missionSuccess then some (info.2, ⟨msgId⟩) else none

/-- The lookup of an interface, by its name or with the implicit component. -/
def lookupName (intf : Text) : Int × EdsId :=
  let found := host.findComponentInterfaceByFullName intf 0
  if found.1 = host.edsSuccess then found
  else (implicitName intf).elim found (host.findComponentInterfaceByFullName · found.2)

/-- The topic of an interface, behind the lookup of it. -/
def topicOf (found : Int × EdsId) : Int × Nat :=
  if found.1 = host.edsSuccess then host.findTopicIdFromIntfId found.2 0 else (found.1, 0)

/-- The interface of a name, with the parameters of its messages. -/
def named (intf : Text) : Option (EdsId × PubSub) :=
  let found := host.lookupName intf
  let topic := host.topicOf found
  if topic.1 = host.missionSuccess ∧
      host.getComponentInterfaceInfo found.2 = host.edsSuccess then
    some (found.2, host.mapListenerComponent ⟨0⟩ ⟨topic.2, 1⟩)
  else none

/-- The argument of an interface, with the parameters in the buffer. -/
def argument (buf : Mem) (intf : EdsId × PubSub) : Option (EdsId × Mem) :=
  let found := host.findAllArgumentTypes intf.1 0
  if found.1 = host.edsSuccess then some (found.2, host.setPubSubParameters buf intf.2) else none

/-- The types derived from an argument, from an index on. -/
def derivedTypes (arg : EdsId) : Nat → BitVec 16 → List EdsId
  | 0, _ => []
  | fuel + 1, idx =>
    match host.getDerivedTypeById arg idx with
    | none => []
    | some id => id :: derivedTypes arg fuel (idx + 1)

/-- The command of an argument with a name: the first of its derived types that has it, or
the argument itself where there are none. -/
def command (arg : EdsId) (name : Text) : Option EdsId :=
  if host.getDerivedInfo arg = host.edsSuccess then
    ((host.derivedTypes arg (2 ^ 16) 0).find? (examine host arg name (strtoul name) false)).filter
      (· ≠ arg)
  else if name = [] then some arg
  else none

/-- The payload of a command, if it has one. -/
def payloadInfo (arg : EdsId) : EntityInfo :=
  (host.getIndexByName arg (str "Payload")).elim ⟨0, 0⟩ (host.getMemberByIndex arg · ⟨0, 0⟩)

/-- The object of a command. -/
def object (arg : EdsId) (buf : Mem) : Option Target :=
  let init := host.initializeNativeObject arg buf
  if host.getTypeInfo arg = host.edsSuccess ∧ init.1 = host.edsSuccess then
    some ⟨arg, host.payloadInfo arg, init.2⟩
  else none

end Host

/-- The interface that is asked for. -/
def Request.interface (host : Host) (r : Request) : Option (EdsId × PubSub) :=
  if IsNumeral r.intf then host.numbered (strtoul r.intf).value else host.named r.intf

/-- The argument of the interface that is asked for. -/
def Request.argument (host : Host) (r : Request) : Option (EdsId × Mem) :=
  (r.interface host).bind (host.argument r.buf)

/-- What the database has for a request. -/
def Request.target (host : Host) (r : Request) : Option Target :=
  (r.argument host).bind fun p => (host.command p.1 r.cmd).bind (host.object · p.2)

/-! ## The encoder and the request -/

/-- The encoder has looked nothing up. -/
structure Fresh (cmd : CommandData) : Prop where
  intfState : cmd.intfState = .unknown
  payloadState : cmd.payloadState = .unknown
  intfEdsId : cmd.intfEdsId = 0
  intfArg : cmd.intfArg = 0
  params : cmd.params = ⟨0, 1⟩
  pubSub : cmd.pubSub = ⟨0⟩
  edsPayloadInfo : cmd.edsPayloadInfo = ⟨0, 0⟩

/-- The name of the command is that of the request. -/
structure Named (r : Request) (cmd : CommandData) : Prop where
  name : cmd.cmdNameText = r.cmd
  terminated : CmdNameTerminated cmd

/-- The encoder is at a request, and has looked nothing up. -/
structure Asks (r : Request) (cmd : CommandData) : Prop extends Fresh cmd, Named r cmd where
  intf : cmd.destIntfText = r.intf
  buf : cmd.buf = r.buf

/-- The state after an option, unless it is refused. -/
def Outcome.next (o : Outcome) : Option CommandData :=
  if o.retcode = .invalid then none else some o.cmd

/-- The encoder takes an option, unless it refuses it. -/
def accept (host : Host) (cmd : CommandData) (a : ArgV) : Option CommandData :=
  (parseOption host cmd a).next

theorem asks_instantiate {host : Host} {obj : CommandData} (h : instantiate host = some obj) :
    Asks (.empty host) obj := by
  unfold instantiate at h
  split at h
  · cases h
  · obtain rfl := Option.some.inj h
    exact { intfState := rfl, payloadState := rfl, intfEdsId := rfl, intfArg := rfl, params := rfl,
            pubSub := rfl, edsPayloadInfo := rfl, intf := rfl, name := rfl, buf := rfl,
            terminated := rfl }

section

variable {host : Host} {r : Request} {cmd : CommandData} {a : ArgV}

/-- No instance is ever taken from a destination. -/
theorem next_parseDestFullImpl (host : Host) (cmd : CommandData) (a : ArgV) (allowCmd : Bool) :
    (cmd.parseDestFullImpl host a true allowCmd).next =
      if ch ':' ∈ cmd.destIntfText then none else (cmd.parseDest a.text allowCmd).next := by
  unfold CommandData.parseDestFullImpl
  cases hcolon : strchr cmd.destIntfText (ch ':') with
  | none => rw [if_neg (strchr_eq_none_iff.mp hcolon)]
  | some i =>
    have hmem : ch ':' ∈ cmd.destIntfText := by
      by_contra hno
      rw [strchr_eq_none_iff.mpr hno] at hcolon
      cases hcolon
    rw [if_pos hmem]
    rfl

/-- A destination in the arrays. -/
def CommandData.withDest (cmd : CommandData) (text : Text) : CommandData :=
  let d := names none text
  { cmd with
    destIntf := cmd.destIntf.setText (d.intf.take (optargSize - 1))
    cmdName :=
      if d.cmd = [] then cmd.cmdName else cmd.cmdName.setText (d.cmd.take (optargSize - 1)) }

theorem next_parseDest (cmd : CommandData) (text : Text) (allowCmd : Bool) :
    (cmd.parseDest text allowCmd).next =
      if (names none text).cmd ≠ [] ∧ allowCmd = false then none else some (cmd.withDest text) := by
  unfold CommandData.parseDest CommandData.withDest
  dsimp only
  split
  · rename_i hpos
    have hcmd : (names none text).cmd ≠ [] := List.ne_nil_of_length_pos hpos
    rw [if_neg hcmd]
    cases allowCmd with
    | true =>
      rw [if_pos rfl, if_neg fun hrefused => absurd hrefused.2.symm Bool.false_ne_true]
      rfl
    | false =>
      rw [if_neg Bool.false_ne_true, if_pos ⟨hcmd, rfl⟩]
      rfl
  · rename_i hpos
    have hcmd : (names none text).cmd = [] :=
      List.eq_nil_of_length_eq_zero (Nat.eq_zero_of_not_pos hpos)
    rw [if_pos hcmd, if_neg fun hrefused => hrefused.1 hcmd]
    rfl

theorem Named.withDest (h : Named r cmd) {text : Text} (hzero : 0 ∉ text) :
    (cmd.withDest text).destIntfText = (r.withDest text).intf ∧
      Named (r.withDest text) (cmd.withDest text) := by
  obtain ⟨hintf, hcmd⟩ := zero_notMem_names none hzero (optargSize - 1)
  refine ⟨Mem.cstr_setText _ hintf (length_take_lt _), ?_, ?_⟩
  · unfold CommandData.cmdNameText CommandData.withDest Request.withDest
    dsimp only
    split
    · exact h.name
    · exact Mem.cstr_setText _ hcmd (length_take_lt _)
  · unfold CmdNameTerminated CommandData.withDest
    dsimp only
    split
    · exact h.terminated
    · exact setText_last h.terminated _

theorem Named.withName (h : Named r cmd) {text : Text} (hzero : 0 ∉ text) :
    Named { r with cmd := text.take (optargSize - 1) }
      (cmd.named (cmd.cmdName.strncpy text (optargSize - 1))) := by
  have hall : ∀ x ∈ text.take (optargSize - 1), decide (x ≠ 0) = true :=
    fun x hx => decide_eq_true fun hnul => hzero (hnul ▸ List.mem_of_mem_take hx)
  exact ⟨(Mem.cstr_strncpy h.terminated text).trans (List.takeWhile_eq_self_iff.mpr hall),
    (Mem.strncpy_beyond _ text (Nat.le_refl _)).trans h.terminated⟩

/-- The encoder takes a destination when the request does. -/
theorem rel_askFor {R : Request → CommandData → Prop}
    (hcolon : ch ':' ∈ cmd.destIntfText ↔ ch ':' ∈ r.intf)
    (hR : R (r.withDest a.text) (cmd.withDest a.text)) (allowCmd : Bool) :
    Option.Rel R (r.askFor a.text allowCmd) (cmd.parseDestFullImpl host a true allowCmd).next := by
  have hfound : strchr r.intf (ch ':') ≠ none ↔ ch ':' ∈ r.intf := by
    rw [Ne, strchr_eq_none_iff, not_not]
  rw [next_parseDestFullImpl, next_parseDest]
  unfold Request.askFor
  simp only [hfound]
  by_cases hmem : ch ':' ∈ r.intf
  · rw [if_pos (hcolon.mpr hmem), if_pos (Or.inl hmem)]
    exact .none
  · rw [if_neg (mt hcolon.mp hmem)]
    by_cases hrefused : (names none a.text).cmd ≠ [] ∧ allowCmd = false
    · rw [if_pos hrefused, if_pos (Or.inr hrefused)]
      exact .none
    · rw [if_neg hrefused, if_neg (not_or.mpr ⟨hmem, hrefused⟩)]
      exact .some hR

theorem Asks.withDest (h : Asks r cmd) {text : Text} (hzero : 0 ∉ text) :
    Asks (r.withDest text) (cmd.withDest text) := by
  obtain ⟨hintf, hnamed⟩ := h.toNamed.withDest hzero
  exact { h with intf := hintf, buf := h.buf, name := hnamed.name, terminated := hnamed.terminated }

theorem Asks.withName (h : Asks r cmd) {text : Text} (hzero : 0 ∉ text) :
    Asks { r with cmd := text.take (optargSize - 1) }
      (cmd.named (cmd.cmdName.strncpy text (optargSize - 1))) := by
  obtain ⟨hname, hterminated⟩ := h.toNamed.withName hzero
  exact { h with intf := h.intf, buf := h.buf, name := hname, terminated := hterminated }

theorem next_parseHeader (host : Host) (cmd : CommandData) (type : HeaderType)
    (member : HeaderMember) (text : Text) :
    (cmd.parseHeader host type member text).next = some { cmd with
      buf := (host.scalarFromString (host.headerType type) (host.headerOffset member) cmd.buf
        text).2 } := by
  unfold CommandData.parseHeader Outcome.next CommandData.answer
  dsimp only
  split <;> rfl

/-- Until the first positional argument, the encoder goes through the requests. -/
theorem Asks.step (h : Asks r cmd) (hzero : 0 ∉ a.text) (hid : a.optionId ≠ .none) :
    Option.Rel Asks (r.step host a) (accept host cmd a) := by
  have hcolon : ch ':' ∈ cmd.destIntfText ↔ ch ':' ∈ r.intf := by rw [h.intf]
  unfold accept
  obtain ⟨id, text⟩ := a
  cases id with
  | none => exact absurd rfl hid
  | endian =>
    simp only [Request.step, parseOption, CommandData.parseEndian]
    split
    · exact .some h
    · exact .none
  | protocol =>
    simp only [Request.step, parseOption, CommandData.parseProtocol, Outcome.next,
      CommandData.answer]
    split
    · exact .none
    · exact .some { h with intf := h.intf, name := h.name, buf := h.buf }
  | pktedsver | pktid => exact rel_askFor hcolon (h.withDest hzero) true
  | pktapid => exact rel_askFor hcolon (h.withDest hzero) false
  | cmdcode | pktfc =>
    have hnamed := cmd_parseOption_cmdcode host cmd text
    exact .some (hnamed ▸ h.withName hzero)
  | pktpb | pktseqflg | pktseqcnt | pktendian | pktsubsys | pktver | pktsys =>
    simp only [parseOption, next_parseHeader, h.buf]
    exact .some { h with intf := h.intf, name := h.name, buf := rfl }
  | _ => exact .some h

end

/-! ## The interface -/

theorem implicitName_append (before : Text) {after : Text} (h : ch '/' ∉ after) :
    implicitName (before ++ ch '/' :: after) =
      if (before ++ ch '/' :: after).length + 12 < optargSize then some (withComponent before after)
      else none := by
  unfold implicitName
  rw [strrchr_append before h, Option.bind_some, List.take_left, List.drop_length_add_append]
  rfl

/-- The insertion into the array is that into the name. -/
theorem cstr_insertComponent (destIntf : Mem) :
    (CommandData.insertComponent destIntf).map (·.cstr optargSize) =
      implicitName (destIntf.cstr optargSize) := by
  have hsize : DEFAULT_COMPONENT.length + 1 = 12 := by decide
  by_cases hmem : ch '/' ∈ destIntf.cstr optargSize
  · obtain ⟨before, after, hsplit, hlast⟩ := exists_split_last hmem
    have hgetD := getD_insertComponent destIntf
    have hname := implicitName_append before hlast
    rw [← hsplit] at hname
    rw [hname]
    unfold CommandData.insertComponent at hgetD ⊢
    dsimp only at hgetD ⊢
    rw [hsplit, strrchr_append before hlast, ← hsplit, hsize] at hgetD ⊢
    dsimp only at hgetD ⊢
    by_cases hroom : (destIntf.cstr optargSize).length + 12 < optargSize
    · rw [if_pos hroom, Option.getD_some] at hgetD
      rw [if_pos hroom, if_pos hroom, Option.map_some, hgetD,
        (cstr_applyAll_insertion hsplit hlast hroom).2.1]
    · rw [if_neg hroom, if_neg hroom]
      rfl
  · unfold CommandData.insertComponent implicitName
    rw [strrchr_eq_none_iff.mpr hmem]
    rfl

theorem colon_mem_implicitName {intf name : Text} (h : implicitName intf = some name) :
    ch ':' ∈ name ↔ ch ':' ∈ intf := by
  by_cases hmem : ch '/' ∈ intf
  · obtain ⟨before, after, rfl, hlast⟩ := exists_split_last hmem
    have hcomp : ch ':' ∉ str "/Application" := by decide
    rw [implicitName_append before hlast] at h
    split at h
    · obtain rfl := Option.some.inj h
      simp [withComponent, hcomp]
    · cases h
  · unfold implicitName at h
    rw [strrchr_eq_none_iff.mpr hmem] at h
    cases h

/-- The lookup of the interface in the array, from a state without one. -/
theorem findInterface_eq {host : Host} {cmd : CommandData} (h : cmd.intfEdsId = 0) :
    ∃ destIntf : Mem,
      (ch ':' ∈ destIntf.cstr optargSize ↔ ch ':' ∈ cmd.destIntfText) ∧
      cmd.findInterface host = ((host.lookupName cmd.destIntfText).1,
        { cmd with destIntf := destIntf, intfEdsId := (host.lookupName cmd.destIntfText).2 }) := by
  have hname := cstr_insertComponent cmd.destIntf
  unfold CommandData.findInterface Host.lookupName
  dsimp only
  rw [h]
  by_cases hfound :
      (host.findComponentInterfaceByFullName cmd.destIntfText 0).1 = host.edsSuccess
  · rw [if_neg (not_not.mpr hfound), if_pos hfound]
    exact ⟨cmd.destIntf, Iff.rfl, rfl⟩
  · rw [if_pos hfound, if_neg hfound]
    unfold CommandData.destIntfText at hfound ⊢
    cases hinserted : CommandData.insertComponent cmd.destIntf with
    | none =>
      rw [hinserted, Option.map_none] at hname
      rw [← hname]
      exact ⟨cmd.destIntf, Iff.rfl, rfl⟩
    | some destIntf =>
      rw [hinserted, Option.map_some] at hname
      rw [← hname]
      exact ⟨destIntf, colon_mem_implicitName hname.symm, rfl⟩

/-- The state that a lookup leaves, unless it fails. -/
def found (result : Bool × CommandData) : Option CommandData :=
  if result.1 = true then some result.2 else none

/-- The lookup of an argument leaves the argument and the buffer. -/
structure AtArgument (cmd : CommandData) (p : EdsId × Mem) (cmd' : CommandData) : Prop where
  intfArg : cmd'.intfArg = p.1
  actualArg : cmd'.actualArg = p.1
  buf : cmd'.buf = p.2
  cmdName : cmd'.cmdName = cmd.cmdName
  edsPayloadInfo : cmd'.edsPayloadInfo = cmd.edsPayloadInfo

section

variable {host : Host} {r : Request} {cmd : CommandData}

/-- The argument of an interface, for a state that has the name and the payload of `cmd`. -/
theorem atArgument_findArgument {cmd₁ : CommandData} (harg : cmd₁.intfArg = 0)
    (hname : cmd₁.cmdName = cmd.cmdName) (hinfo : cmd₁.edsPayloadInfo = cmd.edsPayloadInfo) :
    Option.Rel (AtArgument cmd) (host.argument cmd₁.buf (cmd₁.intfEdsId, cmd₁.pubSub))
      (found (cmd₁.findArgument host)) := by
  unfold CommandData.findArgument Host.argument
  dsimp only
  rw [harg]
  by_cases hfound : (host.findAllArgumentTypes cmd₁.intfEdsId 0).1 = host.edsSuccess
  · rw [if_pos hfound, if_neg (not_not.mpr hfound)]
    exact .some ⟨rfl, rfl, rfl, hname, hinfo⟩
  · rw [if_neg hfound, if_pos hfound]
    exact .none

theorem atArgument_processNumericDest (h : Fresh cmd) (msgId : BitVec 64) :
    Option.Rel (AtArgument cmd) ((host.numbered msgId).bind (host.argument cmd.buf))
      (found (cmd.processNumericDest host msgId)) := by
  unfold CommandData.processNumericDest Host.numbered
  dsimp only
  rw [h.params]
  generalize host.unmapListenerComponent ⟨0, 1⟩ ⟨msgId⟩ = params
  by_cases htopic : (host.getTopicInfo params.topicId).1 = host.missionSuccess
  · rw [if_pos htopic, if_neg (not_not.mpr htopic), Option.bind_some]
    exact @atArgument_findArgument host cmd { cmd with
      params := params, pubSub := ⟨msgId⟩, intfEdsId := (host.getTopicInfo params.topicId).2 }
      h.intfArg rfl rfl
  · rw [if_neg htopic, if_pos htopic]
    exact .none

theorem findTopic_eq (h : cmd.params = ⟨0, 1⟩) (rc : Int) :
    cmd.findTopic host rc = ((host.topicOf (rc, cmd.intfEdsId)).1,
      { cmd with params := ⟨(host.topicOf (rc, cmd.intfEdsId)).2, 1⟩ }) := by
  unfold CommandData.findTopic Host.topicOf
  dsimp only
  split
  · rw [h]
  · rw [← h]

theorem atArgument_processNamedDest (h : Fresh cmd) :
    Option.Rel (AtArgument cmd) ((host.named cmd.destIntfText).bind (host.argument cmd.buf))
      (found (cmd.processNamedDest host)) := by
  obtain ⟨destIntf, -, hfound⟩ := @findInterface_eq host cmd h.intfEdsId
  unfold CommandData.processNamedDest Host.named
  rw [hfound]
  generalize host.lookupName cmd.destIntfText = intf
  dsimp only
  rw [@findTopic_eq host { cmd with destIntf := destIntf, intfEdsId := intf.2 } h.params]
  change Option.Rel _ _ (found (if (host.topicOf intf).1 ≠ _ then _ else _))
  generalize host.topicOf intf = topic
  dsimp only
  by_cases hok : topic.1 = host.missionSuccess
  · rw [if_neg (not_not.mpr hok)]
    by_cases hinfo : host.getComponentInterfaceInfo intf.2 = host.edsSuccess
    · rw [if_neg (not_not.mpr hinfo), if_pos ⟨hok, hinfo⟩, Option.bind_some, h.pubSub]
      exact @atArgument_findArgument host cmd { cmd with
        destIntf := destIntf, intfEdsId := intf.2, params := ⟨topic.2, 1⟩
        pubSub := host.mapListenerComponent ⟨0⟩ ⟨topic.2, 1⟩ } h.intfArg rfl rfl
    · rw [if_pos hinfo, if_neg fun hboth => hinfo hboth.2]
      exact .none
  · rw [if_pos hok, if_neg fun hboth => hok hboth.1]
    exact .none

/-- The encoder finds the argument that is asked for. -/
theorem Asks.argument (h : Asks r cmd) :
    Option.Rel (AtArgument cmd) (r.argument host) (found (cmd.processDestIntf host)) := by
  unfold CommandData.processDestIntf Request.argument Request.interface
  dsimp only
  rw [← h.intf, ← h.buf]
  by_cases hnum : IsNumeral cmd.destIntfText
  · rw [if_pos hnum, if_pos ((isNumeral_iff _).mpr hnum)]
    exact atArgument_processNumericDest h.toFresh _
  · rw [if_neg hnum, if_neg (mt (isNumeral_iff _).mp hnum)]
    exact atArgument_processNamedDest h.toFresh

/-! ## The command -/

/-- The search with its match record is a search through a list. -/
theorem findDerived_eq_find? (host : Host) (arg : EdsId) (name : Text) (fuel : Nat)
    (idx : BitVec 16) :
    CommandData.findDerived host arg name (strtoul name) fuel idx false =
      (host.derivedTypes arg fuel idx).find? (examine host arg name (strtoul name) false) := by
  induction fuel generalizing idx with
  | zero => rfl
  | succ fuel ih =>
    unfold CommandData.findDerived Host.derivedTypes
    cases host.getDerivedTypeById arg idx with
    | none => rfl
    | some id =>
      change (if examine host arg name (strtoul name) false id = true then _ else _) = _
      dsimp only
      rw [List.find?_cons]
      cases hmatch : examine host arg name (strtoul name) false id with
      | true => rfl
      | false =>
        rw [if_neg Bool.false_ne_true]
        unfold examine at hmatch
        rw [hmatch]
        exact ih (idx + 1)

/-- The encoder selects the command of its name. -/
theorem found_processCmdCode (h : cmd.actualArg = cmd.intfArg) :
    found (cmd.processCmdCode host) =
      (host.command cmd.intfArg cmd.cmdNameText).map ({ cmd with actualArg := · }) := by
  have hempty : cmd.cmdNameText = [] ↔ cmd.cmdName 0 = 0 := cmd.cmdName.cstr_eq_nil_iff (by decide)
  unfold CommandData.processCmdCode Host.command
  dsimp only
  by_cases hderived : host.getDerivedInfo cmd.intfArg = host.edsSuccess
  · rw [if_pos hderived, if_pos hderived, findDerived_eq_find?, h]
    generalize List.find? _ (host.derivedTypes cmd.intfArg (2 ^ 16) 0) = selected
    cases selected with
    | none =>
      rw [Option.getD_none, if_pos rfl]
      split <;> rfl
    | some id =>
      by_cases hid : id = cmd.intfArg
      · rw [Option.getD_some, if_pos hid, Option.filter_some_neg (by simp [hid])]
        split <;> rfl
      · rw [Option.getD_some, if_neg hid, Option.filter_some_pos (by simp [hid])]
        rfl
  · rw [if_neg hderived, if_neg hderived]
    by_cases hname : cmd.cmdName 0 = 0
    · have hsame : cmd = { cmd with actualArg := cmd.intfArg } := by
        cases cmd
        cases h
        rfl
      rw [if_pos (hempty.mpr hname), if_neg (not_not.mpr hname)]
      exact congrArg some hsame
    · rw [if_neg (mt hempty.mp hname), if_pos hname]
      rfl

/-! ## The target -/

/-- What a check has found, as far as it goes. -/
def Checked.target (c : Checked) : Option Target :=
  if c.ok = true then some ⟨c.cmd.actualArg, c.cmd.edsPayloadInfo, c.cmd.buf⟩ else none

theorem Asks.target_checkValidIntf (h : Asks r cmd) :
    (cmd.checkValidIntf host).target = (r.argument host).bind fun p =>
      (host.command p.1 r.cmd).map (⟨·, ⟨0, 0⟩, p.2⟩) := by
  have hargument := @Asks.argument host _ _ h
  unfold CommandData.checkValidIntf Checked.target
  dsimp only
  rw [if_pos h.intfState]
  generalize r.argument host = o at hargument
  generalize cmd.processDestIntf host = result at hargument ⊢
  obtain ⟨ok, cmd₁⟩ := result
  cases ok with
  | false =>
    change Option.Rel _ o none at hargument
    cases hargument
    rfl
  | true =>
    change Option.Rel _ o (some cmd₁) at hargument
    cases hargument with
    | @some p _ hat =>
      have hselected := @found_processCmdCode host cmd₁ (hat.actualArg.trans hat.intfArg.symm)
      have hname : cmd₁.cmdNameText = r.cmd :=
        (congrArg (Mem.cstr · optargSize) hat.cmdName).trans h.name
      rw [hat.intfArg, hname] at hselected
      rw [Option.bind_some]
      dsimp only
      generalize host.command p.1 r.cmd = selected at hselected ⊢
      generalize cmd₁.processCmdCode host = result at hselected ⊢
      obtain ⟨ok, cmd₂⟩ := result
      cases ok with
      | false =>
        cases selected with
        | none => rfl
        | some id => cases hselected
      | true =>
        cases selected with
        | none => cases hselected
        | some id =>
          obtain rfl := Option.some.inj hselected
          rw [← hat.buf, ← h.edsPayloadInfo, ← hat.edsPayloadInfo]
          rfl

theorem found_lookupPayloadDetail (h : cmd.edsPayloadInfo = ⟨0, 0⟩) :
    found (cmd.lookupPayloadDetail host) =
      if host.getTypeInfo cmd.actualArg = host.edsSuccess then
        some { cmd with edsPayloadInfo := host.payloadInfo cmd.actualArg }
      else none := by
  unfold CommandData.lookupPayloadDetail Host.payloadInfo
  by_cases hinfo : host.getTypeInfo cmd.actualArg = host.edsSuccess
  · rw [if_neg (not_not.mpr hinfo), if_pos hinfo]
    cases host.getIndexByName cmd.actualArg (str "Payload") with
    | none =>
      rw [Option.elim_none, ← h]
      rfl
    | some idx =>
      rw [Option.elim_some, ← h]
      rfl
  · rw [if_pos hinfo, if_neg hinfo]
    rfl

/-- Behind the check of the interface, the check of the payload looks at the object. -/
theorem target_checkValidPayload (h : cmd.payloadState = .unknown)
    (hinfo : (cmd.checkValidIntf host).ok = true →
      (cmd.checkValidIntf host).cmd.edsPayloadInfo = ⟨0, 0⟩) :
    (cmd.checkValidPayload host).target =
      (cmd.checkValidIntf host).target.bind fun t => host.object t.arg t.buf := by
  unfold CommandData.checkValidPayload Checked.target
  dsimp only
  rw [if_pos h]
  generalize cmd.checkValidIntf host = intf at hinfo ⊢
  obtain ⟨ok, cmd₁, steps⟩ := intf
  cases ok with
  | false => rfl
  | true =>
    have hdetail := @found_lookupPayloadDetail host cmd₁ (hinfo rfl)
    dsimp only
    rw [if_pos rfl, Option.bind_some]
    unfold Host.object
    generalize cmd₁.lookupPayloadDetail host = result at hdetail ⊢
    obtain ⟨ok, cmd₂⟩ := result
    by_cases htype : host.getTypeInfo cmd₁.actualArg = host.edsSuccess
    · rw [if_pos htype] at hdetail
      cases ok with
      | false => cases hdetail
      | true =>
        obtain rfl := Option.some.inj hdetail
        by_cases hinit :
            (host.initializeNativeObject cmd₁.actualArg cmd₁.buf).1 = host.edsSuccess
        · simp [hinit, htype]
        · simp [hinit]
    · rw [if_neg htype] at hdetail
      cases ok with
      | false => simp [htype]
      | true => cases hdetail

/-- The encoder finds the target of its request. -/
theorem Asks.target (h : Asks r cmd) : (cmd.checkValidPayload host).target = r.target host := by
  have hintf := @Asks.target_checkValidIntf host _ _ h
  have hinfo : ∀ t, (cmd.checkValidIntf host).target = some t → t.info = ⟨0, 0⟩ := by
    intro t ht
    rw [hintf] at ht
    obtain ⟨p, -, hp⟩ := Option.bind_eq_some_iff.mp ht
    obtain ⟨id, -, rfl⟩ := Option.map_eq_some_iff.mp hp
    rfl
  rw [target_checkValidPayload h.payloadState fun hok => hinfo _ (if_pos hok), hintf,
    Option.bind_assoc]
  unfold Request.target
  refine congrArg _ (funext fun p => ?_)
  rw [Option.bind_map]
  rfl

end

end CmdSend.Eds
