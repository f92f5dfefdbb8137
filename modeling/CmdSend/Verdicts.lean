-- SUMMARY: Verdicts: which options an encoder neither accepts nor refuses.
import CmdSend.PassThru.Step
import CmdSend.Eds.Lookup

/-!
# Verdicts

`CmdSend_OptParse_UNDEFINED` is the verdict of an encoder that does nothing with an
option. The PassThru encoder gives it to positional arguments and to ids that `main`
never passes on. The EDS encoder also gives it to the options it has no case for,
and to header fields whose text EdsLib cannot convert.
-/

namespace CmdSend

open CLib

/-! ## The PassThru encoder -/

namespace PassThru

/-- The option was accepted or refused. -/
def Outcome.Decided (o : Outcome) : Prop := o.retcode ≠ .undefined

section

variable (host : Host) (cmd : CommandData)

theorem decided_of_payloadResponse {a : ArgV} {o : Outcome} (h : PayloadResponse cmd a o) :
    o.Decided := by
  cases h with
  | padded _ _ _ hcopied _ hpadded =>
    subst hcopied hpadded
    exact OptParse.noConfusion
  | _ => exact OptParse.noConfusion

theorem kind_ne_ignored {id : OptionId} (h : id.Collected) : kind id ≠ .ignored := by
  cases id <;> first | exact absurd h (by decide) | exact Kind.noConfusion

/-- The PassThru encoder decides on every option but positional arguments and the ids
that are not collected. -/
theorem decided_parseOption {a : ArgV} (hid : a.optionId ≠ .none) (hcoll : a.optionId.Collected) :
    (parseOption host cmd a).Decided := by
  have hresp := response_parseOption host cmd a
  generalize parseOption host cmd a = o at hresp
  cases hresp with
  | positional hk => exact absurd (optionId_of_kind .none (by decide) hk) hid
  | ignored hk => exact absurd hk (kind_ne_ignored hcoll)
  | protocol p => cases p <;> exact OptParse.noConfusion
  | payload _ hpay => exact decided_of_payloadResponse cmd hpay
  | _ => exact OptParse.noConfusion

end

end PassThru

/-! ## The EDS encoder -/

namespace Eds

/-- The datatype of a header option and the member that it sets. -/
def headerOption : OptionId → Option (HeaderType × HeaderMember)
  | .pktpb => some (.singleBitFlag, .playback)
  | .pktseqflg => some (.secHdrFlags, .seqFlag)
  | .pktseqcnt => some (.seqCount, .sequence)
  | .pktendian => some (.singleBitFlag, .endian)
  | .pktsubsys => some (.subsystemId, .subsystemId)
  | .pktver => some (.versionId, .versionId)
  | .pktsys => some (.subsystemId, .systemId)
  | _ => none

/-- The other options that the encoder has a case for. -/
def otherOptions : List OptionId :=
  [.endian, .protocol, .pktedsver, .pktid, .pktapid, .cmdcode, .pktfc]

/-- The encoder has a case for the option, and if this is a header option, then EdsLib
can convert its text. -/
def Handles (host : Host) (cmd : CommandData) (a : ArgV) : Prop :=
  match headerOption a.optionId with
  | some (type, member) =>
    (host.scalarFromString (host.headerType type) (host.headerOffset member) cmd.buf a.text).1 =
      host.edsSuccess
  | none => a.optionId ∈ otherOptions

section

variable (host : Host) (cmd : CommandData)

theorem handles_iff_of_no_header {id : OptionId} (h : headerOption id = none) (text : Text) :
    Handles host cmd ⟨id, text⟩ ↔ id ∈ otherOptions := by
  unfold Handles
  rw [h]

theorem retcode_parseHeader (type : HeaderType) (member : HeaderMember) (text : Text) :
    (cmd.parseHeader host type member text).retcode = .accepted ↔
      (host.scalarFromString (host.headerType type) (host.headerOffset member) cmd.buf text).1 =
        host.edsSuccess := by
  unfold CommandData.parseHeader
  generalize host.scalarFromString _ _ _ _ = scalar
  by_cases h : scalar.1 = host.edsSuccess
  · simp [CommandData.answer, h]
  · simp [CommandData.answer, h]

theorem retcode_parseDest (sep1 : Text) (allowCmd : Bool) :
    (cmd.parseDest sep1 allowCmd).retcode ≠ .undefined := by
  unfold CommandData.parseDest
  dsimp only
  split
  · split <;> exact OptParse.noConfusion
  · exact OptParse.noConfusion

theorem retcode_parseDestFullImpl (argV : ArgV) (allowInst allowCmd : Bool) :
    (cmd.parseDestFullImpl host argV allowInst allowCmd).retcode ≠ .undefined := by
  obtain ⟨params, hcases⟩ := parseDestFullImpl_cases host cmd argV allowInst allowCmd
  cases hcases with
  | inl hrej =>
    rw [hrej]
    exact OptParse.noConfusion
  | inr hdest =>
    obtain ⟨sep1, hdest⟩ := hdest
    rw [hdest]
    exact retcode_parseDest _ _ _

theorem retcode_parseEndian (text : Text) : (cmd.parseEndian text).retcode ≠ .undefined := by
  unfold CommandData.parseEndian
  split <;> exact OptParse.noConfusion

theorem retcode_parseProtocol (text : Text) : (cmd.parseProtocol text).retcode ≠ .undefined := by
  unfold CommandData.parseProtocol CommandData.answer
  dsimp only
  split <;> exact OptParse.noConfusion

/-- An option that the EDS encoder does not refuse is accepted exactly when the
encoder handles it. -/
theorem retcode_parseOption {a : ArgV} (hid : a.optionId ≠ .none)
    (hvalid : (parseOption host cmd a).retcode ≠ .invalid) :
    (parseOption host cmd a).retcode = .accepted ↔ Handles host cmd a := by
  have hdecided : (parseOption host cmd a).retcode ≠ .undefined →
      (parseOption host cmd a).retcode = .accepted := by
    intro hundefined
    cases hret : (parseOption host cmd a).retcode with
    | invalid => exact absurd hret hvalid
    | undefined => exact absurd hret hundefined
    | accepted => rfl
  obtain ⟨id, text⟩ := a
  have hother := fun h : headerOption id = none => handles_iff_of_no_header host cmd h text
  cases id with
  | none => exact absurd rfl hid
  | endian =>
    exact iff_of_true (hdecided (retcode_parseEndian cmd text)) ((hother rfl).mpr (by decide))
  | protocol =>
    exact iff_of_true (hdecided (retcode_parseProtocol cmd text)) ((hother rfl).mpr (by decide))
  | pktedsver | pktid | pktapid =>
    exact iff_of_true (hdecided (retcode_parseDestFullImpl host cmd _ _ _))
      ((hother rfl).mpr (by decide))
  | cmdcode | pktfc => exact iff_of_true rfl ((hother rfl).mpr (by decide))
  | pktpb | pktseqflg | pktseqcnt | pktendian | pktsubsys | pktver | pktsys =>
    exact retcode_parseHeader host cmd _ _ text
  | _ => exact iff_of_false OptParse.noConfusion fun h => absurd ((hother rfl).mp h) (by decide)

end

end Eds

end CmdSend
