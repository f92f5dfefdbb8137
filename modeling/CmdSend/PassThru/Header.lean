-- SUMMARY: The header fields of a packet: what the options of a run leave in the words, and what a decoder reads back.
import CmdSend.PassThru.Pack
import CmdSend.PassThru.Safety

/-!
# The headers of a run

`Tracks` and `field_of_acceptAll` say how the state of the encoder follows from
the options so far. `decodeField` is a decoder for the CCSDS layout. What it reads
from a packed packet follows from the two, and from `sentWord`.
-/

namespace CmdSend.PassThru

open CLib

/-! ## Selections along a run -/

section

variable {opts : List ArgV} {a : ArgV}

theorem protocolOf_eq_none (h : kind a.optionId ≠ .protocol) : protocolOf a = none :=
  if_neg fun hid => h (by rw [hid]; rfl)

theorem endianOf_eq_none (h : kind a.optionId ≠ .endian) : endianOf a = none :=
  if_neg fun hid => h (by rw [hid]; rfl)

theorem fieldValueOf_eq_none {f : Field} (h : kind a.optionId ≠ .field f) :
    fieldValueOf f a = none := if_neg h

theorem protocolInForce_append : protocolInForce (opts ++ [a]) =
    (protocolOf a).getD (protocolInForce opts) := by
  unfold protocolInForce
  rw [lastOf_append_singleton]
  cases protocolOf a <;> rfl

theorem endianInForce_append : endianInForce (opts ++ [a]) =
    (endianOf a).getD (endianInForce opts) := by
  unfold endianInForce
  rw [lastOf_append_singleton]
  cases endianOf a <;> rfl

end

/-! ## The flags of a run -/

namespace Field

/-- The fields whose options set an override flag. -/
def hasOverride : Field → Bool
  | .type | .secHdr | .seqFlags | .length | .endian | .checksum => true
  | _ => false

/-- The override flag of a field. -/
def overridden (cmd : CommandData) : Field → Bool
  | .type => cmd.overridePktType
  | .secHdr => cmd.overridePktSec
  | .seqFlags => cmd.overridePktSeqFlg
  | .length => cmd.overridePktLen
  | .endian => cmd.overridePktEndian
  | .checksum => cmd.overridePktCksum
  | _ => false

theorem overridden_setOverride_same {f : Field} (h : f.hasOverride) (cmd : CommandData) :
    f.overridden (f.setOverride cmd) = true := by
  cases f <;> first | rfl | cases h

theorem overridden_setOverride_ne {f g : Field} (h : f ≠ g) (cmd : CommandData) :
    f.overridden (g.setOverride cmd) = f.overridden cmd := by
  revert h
  cases f <;> cases g <;> first | exact fun h => absurd rfl h | exact fun _ => rfl

end Field

section

variable {host : Host} {cmd cmd' : CommandData} {a : ArgV}

/-- Only `--protocol` changes the selection of headers. -/
theorem Accepted.includes (h : Accepted host cmd a cmd') (hdr : Header) :
    cmd'.includes hdr = (protocolOf a).elim (cmd.includes hdr) (protocolIncludes · hdr) := by
  cases h with
  | protocol p _ hp _ =>
    rw [hp, CommandData.includes_withProtocol]
    rfl
  | field f hk _ =>
    rw [protocolOf_eq_none (by simp [hk]), CommandData.includes_setOverride]
    cases hdr <;> rfl
  | endian _ hk _ | positional hk | ignored hk =>
    rw [protocolOf_eq_none (by simp [hk])]
    cases hdr <;> rfl
  | payload _ _ _ hpay =>
    rw [protocolOf_eq_none (by rintro hk; simp [hk, Kind.isPayload] at hpay)]
    cases hdr <;> rfl

/-- Only `--endian` changes the endian selection. -/
theorem Accepted.bigEndian (h : Accepted host cmd a cmd') :
    cmd'.bigEndian = (endianOf a).elim cmd.bigEndian fun o => decide (o = .big) := by
  cases h with
  | endian o _ ho =>
    rw [ho]
    rfl
  | field f hk _ =>
    rw [endianOf_eq_none (by simp [hk])]
    cases f <;> rfl
  | protocol _ hk _ _ | positional hk | ignored hk =>
    rw [endianOf_eq_none (by simp [hk])]
    rfl
  | payload _ _ _ hpay =>
    rw [endianOf_eq_none (by rintro hk; simp [hk, Kind.isPayload] at hpay)]
    rfl

/-- Only the option of a field sets the override flag of the field. -/
theorem Accepted.overridden (h : Accepted host cmd a cmd') {f : Field} (hf : f.hasOverride) :
    f.overridden cmd' = ((fieldValueOf f a).isSome || f.overridden cmd) := by
  cases h with
  | field g hk _ =>
    by_cases hfg : f = g
    · subst hfg
      rw [Field.overridden_setOverride_same hf, fieldValueOf, if_pos hk]
      rfl
    · have hne : kind a.optionId ≠ .field f := by simp [hk, Ne.symm hfg]
      rw [Field.overridden_setOverride_ne hfg, fieldValueOf_eq_none hne]
      cases f <;> rfl
  | endian _ hk _ | protocol _ hk _ _ | positional hk | ignored hk =>
    rw [fieldValueOf_eq_none (by simp [hk])]
    cases f <;> rfl
  | payload _ _ _ hpay =>
    rw [fieldValueOf_eq_none (by rintro hk; simp [hk, Kind.isPayload] at hpay)]
    cases f <;> rfl

end

/-- The flags of the encoder follow the options so far. -/
structure Tracks (opts : List ArgV) (cmd : CommandData) : Prop where
  includes : ∀ h, cmd.includes h = protocolIncludes (protocolInForce opts) h
  bigEndian : cmd.bigEndian = decide (endianInForce opts = .big)
  overridden : ∀ f : Field, f.hasOverride →
    f.overridden cmd = (lastOf (fieldValueOf f) opts).isSome

theorem tracks_instantiate : Tracks [] instantiate where
  includes := by intro h; cases h <;> rfl
  bigEndian := rfl
  overridden := by intro f _; cases f <;> rfl

theorem Tracks.step {host : Host} {opts : List ArgV} {cmd cmd' : CommandData} {a : ArgV}
    (h : Tracks opts cmd) (hacc : Accepted host cmd a cmd') : Tracks (opts ++ [a]) cmd' where
  includes := by
    intro hdr
    rw [hacc.includes, protocolInForce_append]
    cases protocolOf a with
    | none => exact h.includes hdr
    | some p => rfl
  bigEndian := by
    rw [hacc.bigEndian, endianInForce_append]
    cases endianOf a with
    | none => exact h.bigEndian
    | some o => rfl
  overridden := by
    intro f hf
    rw [hacc.overridden hf, lastOf_append_singleton, h.overridden f hf]
    cases fieldValueOf f a <;> simp

theorem tracks_of_acceptAll {host : Host} {opts : List ArgV} {cmd : CommandData}
    (hrun : acceptAll host instantiate opts = some cmd) : Tracks opts cmd :=
  foldlM_invariant tracks_instantiate (fun _ _ _ _ h hacc => h.step (accepted_of_accept hacc)) hrun

/-! ## The fields of a run -/

/-- Assigning one field leaves the others alone, `--pktid` apart. -/
theorem field_assignWord_ne (host : Host) (cmd : CommandData) {f g : Field} (hne : f ≠ g)
    (hf : f ≠ .pktid) (hg : f.word = g.word → g ≠ .pktid) (bits : BitVec 16) :
    (cmd.assignWord host g.word g.mask bits).field host f = cmd.field host f := by
  unfold CommandData.field CommandData.assignWord
  by_cases hw : f.word = g.word
  · rw [hw, CommandData.word_setWord_same]
    exact BitField.read_assign_avoided (Field.avoided_mask hne hw hf (hg hw)) _ _
  · rw [CommandData.word_setWord_ne hw]

theorem field_assignWord_same (host : Host) (cmd : CommandData) (f : Field) (text : Text) :
    (cmd.assignWord host f.word f.mask (fieldBits f text)).field host f =
      BitVec.ofNat f.bits.len (strtoul text).value.toNat := by
  unfold CommandData.field CommandData.assignWord
  rw [CommandData.word_setWord_same, BitField.read_assign_covered f.covered_mask, fieldBits,
    BitField.read_setWidth_shiftLeft f.bits_le (by decide), BitVec.ofNat_toNat]

theorem word_instantiate (host : Host) (w : HdrWord) : instantiate.word host w = 0 := by
  have hzero : ∀ o : ByteOrder, betoh o (0 : BitVec 16) = 0 := by
    intro o
    cases o <;> decide
  exact hzero host.order

/-- A field holds the number of the last option for it, or zero. The exception is
the first word of the primary header when `--pktid` writes all of it. -/
theorem field_of_acceptAll {host : Host} {opts : List ArgV} {cmd : CommandData} {f : Field}
    (hf : f ≠ .pktid) (hpktid : ∀ a ∈ opts, f.word = Field.pktid.word → a.optionId ≠ .pktid)
    (hrun : acceptAll host instantiate opts = some cmd) :
    cmd.field host f = BitVec.ofNat f.bits.len ((lastOf (fieldValueOf f) opts).getD 0) := by
  let I : List ArgV → CommandData → Prop := fun opts cmd =>
    (∀ a ∈ opts, f.word = Field.pktid.word → a.optionId ≠ .pktid) →
      cmd.field host f = BitVec.ofNat f.bits.len ((lastOf (fieldValueOf f) opts).getD 0)
  refine foldlM_invariant (I := I) ?_ ?_ hrun hpktid
  · intro _
    unfold CommandData.field
    rw [word_instantiate]
    exact BitField.read_zero f.bits
  · intro opts cmd a cmd' ih hacc hid
    have hprev := ih fun b hb => hid b (List.mem_append_left _ hb)
    rw [lastOf_append_singleton]
    cases accepted_of_accept hacc with
    | field g hk _ =>
      unfold CommandData.field
      rw [CommandData.word_setOverride]
      by_cases hfg : f = g
      · subst hfg
        rw [fieldValueOf, if_pos hk]
        exact field_assignWord_same host cmd f a.text
      · rw [fieldValueOf_eq_none (by simp [hk, Ne.symm hfg])]
        refine (field_assignWord_ne host cmd hfg hf ?_ _).trans hprev
        rintro hw rfl
        exact hid a (by simp) hw (optionId_of_kind .pktid (by decide) hk)
    | endian _ hk _ | protocol _ hk _ _ | positional hk | ignored hk =>
      rw [fieldValueOf_eq_none (by simp [hk])]
      exact hprev
    | payload _ _ _ hpay =>
      rw [fieldValueOf_eq_none (by rintro hk; simp [hk, Kind.isPayload] at hpay)]
      exact hprev

/-! ## The fields that are sent -/

section

variable (host : Host) (cmd : CommandData)

theorem word_orWhen (c : Bool) (g : Field) (w : HdrWord) :
    (cmd.orWhen host c g).word host w =
      if c = true ∧ w = g.word then cmd.word host w ||| g.mask else cmd.word host w := by
  cases c with
  | false => rfl
  | true =>
    by_cases hw : w = g.word
    · subst hw
      rw [if_pos ⟨rfl, rfl⟩, CommandData.word, CommandData.word, ← betoh_or_htobe16]
      simp [CommandData.orWhen, CommandData.orWord, CommandData.setWord]
    · rw [if_neg fun h => hw h.2]
      exact CommandData.word_setWord_ne hw host cmd _

theorem field_orWhen (c : Bool) {f g : Field} (hf : f ≠ .pktid) (hg : g ≠ .pktid) :
    (cmd.orWhen host c g).field host f =
      if c = true ∧ f = g then BitVec.allOnes f.bits.len else cmd.field host f := by
  unfold CommandData.field
  rw [word_orWhen]
  by_cases hfg : f = g
  · subst hfg
    cases c with
    | false => rfl
    | true =>
      rw [if_pos ⟨rfl, rfl⟩, if_pos ⟨rfl, rfl⟩]
      exact BitField.read_or_covered f.covered_mask _
  · rw [if_neg fun h : c = true ∧ f = g => hfg h.2]
    split
    · rename_i hw
      exact BitField.read_or_avoided (Field.avoided_mask hfg hw.2 hf hg) _
    · rfl

theorem word_lengthWhen_ne (c : Bool) (nbytes : Nat) {w : HdrWord} (h : w ≠ .ccsdsPri 2) :
    (cmd.lengthWhen host c nbytes).word host w = cmd.word host w := by
  cases c with
  | false => rfl
  | true => exact CommandData.word_setWord_ne h host cmd _

/-- The fields after the defaults: some are all ones, the others are unchanged. -/
theorem field_setDefaults (nbytes : Nat) {f : Field} (hid : f ≠ .pktid) (hlen : f ≠ .length) :
    (cmd.setDefaults host nbytes).field host f =
      if cmd.defaultsTo1 f then BitVec.allOnes f.bits.len else cmd.field host f := by
  have hword : f.word ≠ .ccsdsPri 2 := by
    revert hlen
    cases f <;> decide
  rw [CommandData.setDefaults_eq, field_orWhen host _ _ hid (by decide)]
  unfold CommandData.field
  rw [word_lengthWhen_ne host _ _ _ hword]
  change (if _ then _ else CommandData.field host _ f) = _
  rw [field_orWhen host _ _ hid (by decide), field_orWhen host _ _ hid (by decide),
    field_orWhen host _ _ hid (by decide)]
  cases f <;> simp [CommandData.defaultsTo1, CommandData.field]

theorem length_setDefaults (h : cmd.overridePktLen = false) (nbytes : Nat) :
    (cmd.setDefaults host nbytes).word host (.ccsdsPri 2) =
      (BitVec.ofNat 64 nbytes - 7).setWidth 16 := by
  rw [CommandData.setDefaults_eq, word_orWhen, if_neg (by simp [Field.word]), h]
  exact CommandData.word_setWord_same host _ _ _

/-- A length that an option has set is kept. -/
theorem length_setDefaults_of_override (h : cmd.overridePktLen = true) (nbytes : Nat) :
    (cmd.setDefaults host nbytes).word host (.ccsdsPri 2) = cmd.word host (.ccsdsPri 2) := by
  rw [CommandData.setDefaults_eq, word_orWhen, if_neg (by simp [Field.word]), h]
  change (CommandData.orWhen host _ _ _).word host _ = _
  rw [word_orWhen, if_neg (by simp [Field.word]), word_orWhen, if_neg (by simp [Field.word]),
    word_orWhen, if_neg (by simp [Field.word])]

/-- The checksum is the only field that the packer changes in the sent words. -/
theorem read_sentWord {f : Field} (hid : f ≠ .pktid)
    (h : f = .checksum → cmd.overridePktCksum = true) :
    f.bits.read (cmd.sentWord host f.word) = cmd.field host f := by
  unfold CommandData.sentWord CommandData.field
  split
  · rename_i hsent
    have hne : f ≠ .checksum := by
      intro heq
      rw [h heq] at hsent
      exact absurd hsent.2 (by decide)
    exact BitField.read_assign_avoided (Field.avoided_mask hne hsent.1 hid (by decide)) _ _
  · rfl

end

end CmdSend.PassThru
