-- SUMMARY: What a refused option leaves behind in the PassThru encoder.
import CmdSend.PassThru.Safety

/-!
# Refused options

A call that returns `CmdSend_OptParse_INVALID` leaves more behind than its error text when
it has changed the state before its last check: the flag that a field is overridden, the
cleared protocol, and the text of a string that cannot be padded. Nothing takes these
changes back, since the encoder is not used again.
-/

namespace CmdSend.PassThru

open CLib

/-- Another error text. -/
def CommandData.withError (cmd : CommandData) (error : Text) : CommandData :=
  { cmd with lastErrorText := error }

/-- The state that a refused option leaves behind, but for the error text. -/
def CommandData.refused (cmd : CommandData) (a : ArgV) : CommandData :=
  match kind a.optionId with
  | .field f => f.setOverride cmd
  | .protocol => cmd.withProtocol .undefined
  | .string =>
    match stringParts a.text with
    | none => cmd
    | some (s, _) =>
      let len := BitVec.ofNat 32 s.length
      if cmd.HasRoom len then (cmd.appended (s.take len.toNat) len).cmd else cmd
  | _ => cmd

/-- A refused option changes nothing but the error text. -/
def RefusalChangesNothing (host : Host) (cmd : CommandData) (a : ArgV) : Prop :=
  (parseOption host cmd a).retcode = .invalid →
    ∃ error, (parseOption host cmd a).cmd = cmd.withError error

theorem RefusalChangesNothing.read_eq {host : Host} {cmd : CommandData} {a : ArgV} {β : Type}
    {r : CommandData → β} (h : RefusalChangesNothing host cmd a)
    (hret : (parseOption host cmd a).retcode = .invalid)
    (hread : ∀ error, r (cmd.withError error) = r cmd) :
    r (parseOption host cmd a).cmd = r cmd := by
  obtain ⟨error, herr⟩ := h hret
  rw [herr, hread]

/-! ## Refused calls -/

section

variable (cmd : CommandData)

theorem withError_setOverride (f : Field) (error : Text) :
    f.setOverride (cmd.withError error) = (f.setOverride cmd).withError error := by
  cases f <;> rfl

theorem refused_of_payload {a : ArgV} (hpay : (kind a.optionId).isPayload)
    (hstring : kind a.optionId ≠ .string) : cmd.refused a = cmd := by
  unfold CommandData.refused
  cases hk : kind a.optionId with
  | string => exact absurd hk hstring
  | field | protocol => simp [hk, Kind.isPayload] at hpay
  | _ => rfl

/-- The text of a string is in the payload when there was room for it. -/
theorem refused_string {a : ArgV} (hk : kind a.optionId = .string) {s : Text} {n : Nat}
    (hparts : stringParts a.text = some (s, n))
    (hroom : cmd.HasRoom (BitVec.ofNat 32 s.length)) :
    cmd.refused a =
      (cmd.appended (s.take (BitVec.ofNat 32 s.length).toNat) (BitVec.ofNat 32 s.length)).cmd := by
  unfold CommandData.refused
  simp only [hk, hparts, if_pos hroom]

theorem refused_of_payloadResponse {a : ArgV} {o : Outcome} (hpay : (kind a.optionId).isPayload)
    (hresp : PayloadResponse cmd a o) (h : o.retcode = .invalid) :
    ∃ error, o.cmd = (cmd.refused a).withError error := by
  cases hresp with
  | appended => cases h
  | padded _ _ _ hcopied _ hpadded =>
    subst hcopied hpadded
    cases h
  | padRefused error hk hparts hroom hcopied =>
    subst hcopied
    rw [refused_string cmd hk hparts hroom]
    exact ⟨_, rfl⟩
  | refused error hfull =>
    have hsame : cmd.refused a = cmd := by
      by_cases hk : kind a.optionId = .string
      · unfold CommandData.refused
        simp only [hk]
        cases hparts : stringParts a.text with
        | none => rfl
        | some parts => exact if_neg (hfull parts.1 parts.2 hk hparts)
      · exact refused_of_payload cmd hpay hk
    rw [hsame]
    exact ⟨_, rfl⟩

end

/-- What a refused option leaves behind: the override flag of its field, no protocol, or
the text of its string. -/
theorem refused_parseOption (host : Host) (cmd : CommandData) (a : ArgV)
    (h : (parseOption host cmd a).retcode = .invalid) :
    ∃ error, (parseOption host cmd a).cmd = (cmd.refused a).withError error := by
  have hresp := response_parseOption host cmd a
  generalize parseOption host cmd a = o at h hresp ⊢
  unfold CommandData.refused
  cases hresp with
  | positional | ignored | field | endian => cases h
  | fieldRefused f error hk =>
    rw [hk]
    exact ⟨_, withError_setOverride cmd f _⟩
  | endianRefused error hk =>
    rw [hk]
    exact ⟨_, rfl⟩
  | protocol p hk =>
    rw [hk]
    by_cases hp : p = .undefined
    · rw [hp]
      exact ⟨cmd.lastErrorText, rfl⟩
    · rw [if_neg hp] at h
      cases h
  | payload hpay hresp => exact refused_of_payloadResponse cmd hpay hresp h

/-- A field that is overridden, the protocol, and a string that is copied before its
padding is refused. -/
theorem refusalChangesNothing_fails :
    ¬RefusalChangesNothing Host.little instantiate ⟨.pktlen, str "x"⟩ ∧
      ¬RefusalChangesNothing Host.little instantiate ⟨.protocol, str "x"⟩ ∧
      ¬RefusalChangesNothing Host.little { instantiate with payloadBytes := 2047 }
        ⟨.string, str "2:a"⟩ := by
  refine ⟨fun h => ?_, fun h => ?_, fun h => ?_⟩
  · have hflag := h.read_eq (r := CommandData.overridePktLen) (by decide) fun _ => rfl
    exact absurd hflag (by decide)
  · have hflag := h.read_eq (r := CommandData.includeCCSDSPri) (by decide) fun _ => rfl
    exact absurd hflag (by decide)
  · have hbytes := h.read_eq (r := CommandData.payloadBytes) (by decide) fun _ => rfl
    exact absurd hbytes (by decide)

/-- A length that is not a number. -/
theorem refused_parseOption_length :
    ∃ error, (parseOption Host.little instantiate ⟨.pktlen, str "x"⟩).cmd =
      (instantiate.refused ⟨.pktlen, str "x"⟩).withError error :=
  refused_parseOption Host.little instantiate ⟨.pktlen, str "x"⟩ (by decide)

end CmdSend.PassThru
