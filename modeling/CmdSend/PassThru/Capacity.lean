-- SUMMARY: Whether an accepted command line can be packed: the payload that its options announce, and the headers of its protocol.
import CmdSend.PassThru.Repack
import CmdSend.PassThru.Strings

/-!
# The capacity of a packet

The parser compares the payload with the size of `Payload`, and `main` packs into a
buffer of the same size, which the headers have to fit in as well. What the options
of a run announce decides whether the program gets to the packer and that succeeds
(`packs_iff`).
-/

namespace CmdSend.PassThru

open CLib

/-- The bytes that an option announces for the payload. -/
def announcedSize (a : ArgV) : Nat :=
  match kind a.optionId with
  | .int o => o.width / 8
  | .double => 8
  | .float => 4
  | .string => ((stringParts a.text).map Prod.snd).getD 0
  | _ => 0

/-- The bytes that the options announce together, in an `unsigned int`. -/
def announcedTotal (opts : List ArgV) : Nat := (opts.map announcedSize).sum % 2 ^ 32

/-- The program gets behind the options, and what they leave can be packed, as `main` packs
it. -/
def Packs (host : Host) (opts : List ArgV) : Prop :=
  ∃ cmd, runOptions host instantiate opts = .accepted cmd ∧
    ∀ out, (getPackedObject host cmd out maxPacketSize).ok = true

section

variable {host : Host} {opts : List ArgV} {cmd cmd' : CommandData} {a : ArgV}

/-! ## The payload of a run -/

theorem announcedSize_of_number {x : (w : Nat) × BitVec w} (h : number host a = some x) :
    announcedSize a = x.1 / 8 := by
  unfold number at h
  unfold announcedSize
  cases hk : kind a.optionId with
  | int o | double | float =>
    simp only [hk] at h ⊢
    split at h
    · cases h
    · obtain rfl := Option.some.inj h
      simp
  | _ =>
    simp only [hk] at h
    cases h

/-- An accepted option moves the end of the payload by what it announces. -/
theorem payloadBytes_of_accept (hin : cmd.InBounds) (hacc : accept host cmd a = some cmd') :
    cmd'.payloadBytes = cmd.payloadBytes + BitVec.ofNat 32 (announcedSize a) := by
  by_cases hpay : (kind a.optionId).isPayload = true
  · by_cases hstring : kind a.optionId = .string
    · obtain ⟨s, n, hparts, hparse⟩ := stringParts_of_accept hstring hacc
      obtain ⟨hret, rfl⟩ := accept_eq_some_iff.mp hacc
      obtain ⟨_, _, _, _, hle⟩ := stringParts_eq_some_iff.mp hparts
      rw [hparse] at hret ⊢
      rw [payloadBytes_copyAndPad hle hret]
      simp only [announcedSize, hstring, hparts, Option.map_some, Option.getD_some]
    · obtain ⟨x, hx, -, rfl⟩ := append_of_accept_number hin hpay hstring hacc
      rw [announcedSize_of_number hx, CommandData.append, ByteOrder.length_bytes]
      rfl
  · have hsize : announcedSize a = 0 := by
      unfold announcedSize
      cases hk : kind a.optionId <;> simp [hk, Kind.isPayload] at hpay ⊢
    rw [hsize, BitVec.add_zero]
    exact (payload_of_accept hpay hacc).2

/-- The payload of a run has the size that its options announce. -/
theorem payloadBytes_of_acceptAll (hrun : acceptAll host instantiate opts = some cmd) :
    cmd.payloadBytes.toNat = announcedTotal opts := by
  have hsum : cmd.InBounds ∧ cmd.payloadBytes = BitVec.ofNat 32 (opts.map announcedSize).sum := by
    refine foldlM_invariant (I := fun opts cmd => cmd.InBounds ∧
      cmd.payloadBytes = BitVec.ofNat 32 (opts.map announcedSize).sum)
      ⟨inBounds_instantiate, rfl⟩ ?_ hrun
    rintro opts cmd a cmd' ⟨hin, hbytes⟩ hacc
    refine ⟨inBounds_of_accept hin hacc, ?_⟩
    rw [payloadBytes_of_accept hin hacc, hbytes, ← BitVec.ofNat_add, List.map_append,
      List.sum_append]
    rfl
  rw [hsum.2, BitVec.toNat_ofNat]
  rfl

/-! ## Packing -/

/-- The size of the packet of a run. -/
theorem packedSize_of_acceptAll (hrun : acceptAll host instantiate opts = some cmd) :
    cmd.packedSize = headerLength (protocolInForce opts) + announcedTotal opts := by
  rw [packedSize_of_includes host (tracks_of_acceptAll hrun).includes,
    CommandData.length_payloadSlice, payloadBytes_of_acceptAll hrun]

/-- A command line of which no option is refused can be packed exactly when no write leaves
`Payload`, and the headers of its protocol and what its options announce fit together. -/
theorem packs_iff (h : runOptions host instantiate opts ≠ .refused) :
    Packs host opts ↔
      (∀ c ∈ calls host instantiate opts, SumsFit c.1 c.2) ∧
        headerLength (protocolInForce opts) + announcedTotal opts ≤ maxPacketSize := by
  constructor
  · rintro ⟨cmd, hrun, hpacks⟩
    obtain ⟨hacc, hsafe⟩ := runOptions_eq_accepted_iff.mp hrun
    refine ⟨sumsFit_of_payloadSafe hsafe, ?_⟩
    rw [← packedSize_of_acceptAll hacc]
    exact ok_getPackedObject_iff.mp (hpacks fun _ => 0)
  · rintro ⟨hsums, hfits⟩
    have hrun := runOptions_of_sumsFit inBounds_instantiate hsums
    cases hacc : acceptAll host instantiate opts with
    | none =>
      rw [hacc] at hrun
      exact absurd hrun h
    | some cmd =>
      rw [hacc] at hrun
      rw [← packedSize_of_acceptAll hacc] at hfits
      exact ⟨cmd, hrun, fun out => ok_getPackedObject_iff.mpr hfits⟩

end

/-- A string that leaves room for the headers of the default protocol. -/
theorem packs_iff_with_room : Packs Host.little [⟨.string, str "2040:a"⟩] := by
  refine (packs_iff ?_).mpr ⟨?_, by decide⟩
  · have hrun : ∃ cmd, runOptions Host.little instantiate [⟨.string, str "2040:a"⟩] =
        .accepted cmd := ⟨_, rfl⟩
    obtain ⟨cmd, hrun⟩ := hrun
    rw [hrun]
    exact RunEnd.noConfusion
  · intro c hc _ s n hparts
    obtain rfl := List.mem_singleton.mp hc
    obtain ⟨rfl, rfl⟩ := Prod.mk.inj (Option.some.inj
      (hparts.symm.trans (by decide : stringParts (str "2040:a") = some (str "a", 2040))))
    decide

/-- A string that fills `Payload` is not refused, and leaves no room for the headers. -/
theorem packs_fails_on_full_payload :
    (∃ cmd, runOptions Host.little instantiate [⟨.string, str "2048:a"⟩] = .accepted cmd) ∧
      ¬Packs Host.little [⟨.string, str "2048:a"⟩] := by
  refine ⟨⟨_, rfl⟩, ?_⟩
  rintro ⟨cmd, hrun, hpacks⟩
  have hfits := ok_getPackedObject_iff.mp (hpacks fun _ => 0)
  rw [packedSize_of_acceptAll (runOptions_eq_accepted_iff.mp hrun).1] at hfits
  revert hfits
  decide

end CmdSend.PassThru
