-- SUMMARY: The value that processField assigns: for every mask that is a run of bits, when the assignment is that of the text.
import CmdSend.PassThru.Safety

/-!
# Header values

`processField` shifts the value to the place of its field before it compares it
with the mask. The bits that the shift moves out of the 64 bits are not compared,
so that the check accepts some values that do not fit, and assigns what is left of
them.
-/

namespace CmdSend.PassThru

open CLib

/-! ## The shift -/

theorem shiftRight_and_one_eq_zero_iff (mask : BitVec 16) (shift : Nat) :
    (mask >>> shift) &&& 1 = 0 ↔ mask.getLsbD shift = false := by
  have hone : ∀ x : BitVec 16, x &&& 1 = 0 ↔ x.getLsbD 0 = false := by
    intro x
    rw [← BitVec.toNat_inj]
    simp [BitVec.getLsbD, Nat.testBit_zero]
  rw [hone, BitVec.getLsbD_ushiftRight, Nat.add_zero]

/-- The loop stops at the lowest bit of the mask. -/
theorem findShift_eq {mask : BitVec 16} {lo : Nat} (hlow : mask.getLsbD lo = true)
    {fuel shift : Nat} (hle : shift ≤ lo) (hfuel : lo - shift < fuel)
    (hzero : ∀ i, shift ≤ i → i < lo → mask.getLsbD i = false) :
    CommandData.findShift mask fuel shift = lo := by
  induction fuel generalizing shift with
  | zero => exact absurd hfuel (Nat.not_lt_zero _)
  | succ fuel ih =>
    rw [CommandData.findShift]
    by_cases heq : shift = lo
    · subst heq
      rw [if_neg]
      rw [shiftRight_and_one_eq_zero_iff, hlow]
      exact fun h => Bool.false_ne_true h.symm
    · have hlt : shift < lo := Nat.lt_of_le_of_ne hle heq
      rw [if_pos ((shiftRight_and_one_eq_zero_iff ..).mpr (hzero shift (Nat.le_refl _) hlt))]
      exact ih hlt (by omega) fun i hi => hzero i (by omega)

/-- The shift of a run of bits is the place of its lowest bit. -/
theorem shiftOf_run {f : BitField} (hlen : 0 < f.len) (hle : f.lo + f.len ≤ 16) :
    CommandData.shiftOf (f.run 16) = f.lo := by
  apply findShift_eq
  · rw [BitField.getLsbD_run]
    exact decide_eq_true ⟨by omega, by omega, by omega⟩
  · exact Nat.zero_le _
  · omega
  · intro i _ hi
    rw [BitField.getLsbD_run]
    exact decide_eq_false fun h => absurd h.2.1 (by omega)

/-- Every mask that `parseOption` passes is the run of bits of its field. -/
theorem run_bits (f : Field) : f.bits.run 16 = f.mask := by
  cases f <;> decide

/-! ## The comparison -/

/-- The promoted complement has ones above the 16 bits of the mask. -/
theorem notMask_eq (mask : BitVec 16) : CommandData.notMask mask = ~~~(mask.setWidth 64) := by
  apply BitVec.eq_of_getLsbD_eq
  intro i hi
  simp only [CommandData.notMask, BitVec.getLsbD_signExtend, BitVec.getLsbD_not,
    BitVec.getLsbD_setWidth, BitVec.msb_eq_getLsbD_last]
  by_cases h32 : i < 32
  · simp [hi, h32]
  · have : mask.getLsbD i = false := BitVec.getLsbD_of_ge _ _ (by omega)
    simp [hi, h32, this]

theorem setWidth_run (f : BitField) (hle : f.lo + f.len ≤ 16) :
    (f.run 16).setWidth 64 = f.run 64 := by
  apply BitVec.eq_of_getLsbD_eq
  intro i hi
  rw [BitVec.getLsbD_setWidth, BitField.getLsbD_run, BitField.getLsbD_run]
  grind

/-! ## Exactness -/

/-- The whole text is a numeral in the range of `strtoul`. -/
def WholeText (text : Text) : Prop :=
  (∃ n, scanNumeral text = some n ∧ n.tail = []) ∧ (strtoul text).errno = .ok

/-- What `processField` is meant to do for a field of a word. -/
structure ExactField (host : Host) (cmd : CommandData) (orig : HdrWord) (text : Text)
    (f : BitField) : Prop where
  accepted_iff : (cmd.processField host orig text (f.run 16) true).retcode = .accepted ↔
    WholeText text ∧ (strtoul text).value.toNat ≤ (f.run 16 >>> f.lo).toNat
  /-- The field gets the value, and the other bits of the word stay as they are. -/
  assigned : (cmd.processField host orig text (f.run 16) true).retcode = .accepted →
    let cmd' := (cmd.processField host orig text (f.run 16) true).cmd
    (f.read (cmd'.word host orig)).toNat = (strtoul text).value.toNat ∧
      cmd'.word host orig &&& ~~~(f.run 16) = cmd.word host orig &&& ~~~(f.run 16)
  refused : (cmd.processField host orig text (f.run 16) true).retcode ≠ .accepted →
    (cmd.processField host orig text (f.run 16) true).cmd.hdr = cmd.hdr
  absent : (cmd.processField host orig text (f.run 16) false).retcode = .invalid ∧
    (cmd.processField host orig text (f.run 16) false).cmd.hdr = cmd.hdr

/-- The value is too large for the field, and what the shift leaves of it is not. -/
def ShiftedOut (text : Text) (f : BitField) : Prop :=
  WholeText text ∧ 2 ^ f.len ≤ (strtoul text).value.toNat ∧
    (strtoul text).value.toNat % 2 ^ (64 - f.lo) < 2 ^ f.len

section

variable {host : Host} {cmd : CommandData} {orig : HdrWord} {text : Text} {f : BitField}

theorem wholeText_iff : WholeText text ↔
    (strtoul text).errno = .ok ∧ (strtoul text).tail ≠ text ∧ (strtoul text).tail = [] := by
  unfold WholeText strtoul
  cases hscan : scanNumeral text with
  | none =>
    rw [strtoull_of_none hscan]
    simp
  | some n =>
    have hne := scanNumeral_tail_ne hscan
    rw [strtoull_tail hscan]
    constructor
    · rintro ⟨⟨n', hn', htail⟩, herr⟩
      obtain rfl := Option.some.inj hn'
      exact ⟨herr, hne, htail⟩
    · rintro ⟨herr, -, htail⟩
      exact ⟨⟨n, rfl, htail⟩, herr⟩

/-- `processField` accepts a whole numeral whose shifted value has no bit outside the
mask, and rejects everything else. -/
theorem processField_cases (host : Host) (cmd : CommandData) (orig : HdrWord) (text : Text)
    (hlen : 0 < f.len) (hle : f.lo + f.len ≤ 16) :
    (∃ error, cmd.processField host orig text (f.run 16) true = cmd.reject error ∧
      ¬(WholeText text ∧ (strtoul text).value.toNat % 2 ^ (64 - f.lo) < 2 ^ f.len)) ∨
    (WholeText text ∧ (strtoul text).value.toNat % 2 ^ (64 - f.lo) < 2 ^ f.len ∧
      cmd.processField host orig text (f.run 16) true =
        (cmd.assignWord host orig (f.run 16)
          (((strtoul text).value <<< f.lo).setWidth 16)).answer .accepted) := by
  have hfits := f.shiftLeft_and_not_run (by omega) (strtoul text).value
  rw [wholeText_iff, ← hfits]
  unfold CommandData.processField
  simp only [Bool.not_true, Bool.false_eq_true, if_false, shiftOf_run hlen hle, notMask_eq,
    setWidth_run f hle]
  split
  · rename_i hconv
    exact Or.inl ⟨_, rfl, fun h => hconv.elim (absurd h.1.1) h.1.2.1⟩
  · rename_i hconv
    simp only [not_or, not_not] at hconv
    split
    · rename_i htail
      exact Or.inl ⟨_, rfl, fun h => htail h.1.2.2⟩
    · rename_i htail
      split
      · rename_i hmask
        exact Or.inl ⟨_, rfl, fun h => hmask h.2⟩
      · rename_i hmask
        exact Or.inr ⟨⟨hconv.1, hconv.2, not_not.mp htail⟩, not_not.mp hmask, rfl⟩

theorem toNat_run_shiftRight (hle : f.lo + f.len ≤ 16) :
    (f.run 16 >>> f.lo).toNat = 2 ^ f.len - 1 := by
  have hpos : 0 < 2 ^ f.len := Nat.two_pow_pos _
  have hmul : (2 ^ f.len - 1) * 2 ^ f.lo < 2 ^ 16 := by
    calc (2 ^ f.len - 1) * 2 ^ f.lo < 2 ^ f.len * 2 ^ f.lo :=
          Nat.mul_lt_mul_of_pos_right (by omega) (Nat.two_pow_pos _)
      _ = 2 ^ (f.lo + f.len) := by rw [← Nat.pow_add, Nat.add_comm]
      _ ≤ 2 ^ 16 := Nat.pow_le_pow_right (by decide) hle
  rw [BitVec.toNat_ushiftRight, BitField.run, BitVec.toNat_ofNat, Nat.shiftLeft_eq,
    Nat.mod_eq_of_lt hmul, Nat.shiftRight_eq_div_pow, Nat.mul_div_cancel _ (Nat.two_pow_pos _)]

/-- A masked assignment leaves the other bits alone. -/
theorem assign_and_not (mask x bits : BitVec 16) :
    assign mask x bits &&& ~~~mask = x &&& ~~~mask := by
  apply BitVec.eq_of_getLsbD_eq
  intro i hi
  simp only [assign, BitVec.getLsbD_and, BitVec.getLsbD_or, BitVec.getLsbD_not]
  cases mask.getLsbD i <;> simp [hi]

/-- The verdict on a field of the protocol. -/
theorem accepted_processField_iff (host : Host) (cmd : CommandData) (orig : HdrWord) (text : Text)
    (hlen : 0 < f.len) (hle : f.lo + f.len ≤ 16) :
    (cmd.processField host orig text (f.run 16) true).retcode = .accepted ↔
      WholeText text ∧ (strtoul text).value.toNat % 2 ^ (64 - f.lo) < 2 ^ f.len := by
  cases processField_cases host cmd orig text hlen hle with
  | inl hrej =>
    obtain ⟨error, hrej, hno⟩ := hrej
    rw [hrej]
    exact iff_of_false OptParse.noConfusion hno
  | inr hacc =>
    obtain ⟨hwhole, hrest, hacc⟩ := hacc
    rw [hacc]
    exact iff_of_true rfl ⟨hwhole, hrest⟩

/-- A field that is not accepted leaves the headers alone. -/
theorem hdr_processField (host : Host) (cmd : CommandData) (orig : HdrWord) (text : Text)
    (hlen : 0 < f.len) (hle : f.lo + f.len ≤ 16)
    (h : (cmd.processField host orig text (f.run 16) true).retcode ≠ .accepted) :
    (cmd.processField host orig text (f.run 16) true).cmd.hdr = cmd.hdr := by
  cases processField_cases host cmd orig text hlen hle with
  | inl hrej =>
    obtain ⟨error, hrej, -⟩ := hrej
    rw [hrej]
    rfl
  | inr hacc =>
    rw [hacc.2.2] at h
    exact absurd rfl h

/-- A value that fits is the one that an accepted field has in the word. -/
theorem word_processField (host : Host) (cmd : CommandData) (orig : HdrWord) (text : Text)
    (hlen : 0 < f.len) (hle : f.lo + f.len ≤ 16)
    (h : (cmd.processField host orig text (f.run 16) true).retcode = .accepted)
    (hv : (strtoul text).value.toNat < 2 ^ f.len) :
    let cmd' := (cmd.processField host orig text (f.run 16) true).cmd
    (f.read (cmd'.word host orig)).toNat = (strtoul text).value.toNat ∧
      cmd'.word host orig &&& ~~~(f.run 16) = cmd.word host orig &&& ~~~(f.run 16) := by
  cases processField_cases host cmd orig text hlen hle with
  | inl hrej =>
    obtain ⟨error, hrej, -⟩ := hrej
    rw [hrej] at h
    cases h
  | inr hacc =>
    rw [hacc.2.2]
    simp only [CommandData.answer, CommandData.assignWord, CommandData.word_setWord_same]
    refine ⟨?_, assign_and_not _ _ _⟩
    rw [BitField.read_assign_covered (BitField.covered_run hle),
      BitField.read_setWidth_shiftLeft hle (by decide), BitVec.toNat_setWidth]
    exact Nat.mod_eq_of_lt hv

/-- The parsing of a field is exact, for every run of bits, unless the shift moves
bits of the value out. -/
theorem exactField_iff (host : Host) (cmd : CommandData) (orig : HdrWord) (text : Text)
    (hlen : 0 < f.len) (hle : f.lo + f.len ≤ 16) :
    ExactField host cmd orig text f ↔ ¬ShiftedOut text f := by
  have hmax := toNat_run_shiftRight hle
  have hpos : 0 < 2 ^ f.len := Nat.two_pow_pos _
  have haccepted := accepted_processField_iff host cmd orig text hlen hle
  constructor
  · rintro hexact ⟨hwhole, hbig, hrest⟩
    obtain ⟨-, hv⟩ := hexact.accepted_iff.mp (haccepted.mpr ⟨hwhole, hrest⟩)
    omega
  · intro hno
    have hfits : WholeText text → (strtoul text).value.toNat % 2 ^ (64 - f.lo) < 2 ^ f.len →
        (strtoul text).value.toNat < 2 ^ f.len := by
      intro hwhole hrest
      by_contra hbig
      exact hno ⟨hwhole, Nat.not_lt.mp hbig, hrest⟩
    constructor
    case accepted_iff =>
      rw [haccepted]
      constructor
      · rintro ⟨hwhole, hrest⟩
        have hv := hfits hwhole hrest
        exact ⟨hwhole, by omega⟩
      · rintro ⟨hwhole, hv⟩
        -- the shift loses no bit of a value that fits
        exact ⟨hwhole, Nat.lt_of_le_of_lt (Nat.mod_le _ _) (by omega)⟩
    case assigned =>
      intro hret
      obtain ⟨hwhole, hrest⟩ := haccepted.mp hret
      exact word_processField host cmd orig text hlen hle hret (hfits hwhole hrest)
    case refused => exact hdr_processField host cmd orig text hlen hle
    case absent => exact ⟨rfl, rfl⟩

end

/-- A value of 2^52 + 1 is taken for 1 in the field of the packet type. -/
theorem exactField_fails_on_shifted_out :
    ¬ExactField Host.little instantiate (.ccsdsPri 0) (str "0x10000000000001") ⟨12, 1⟩ := by
  intro hexact
  have hfits := (hexact.accepted_iff.mp (by decide)).2
  revert hfits
  decide

/-- The greatest value of the packet version. -/
theorem exactField_iff_version :
    ExactField Host.little instantiate (.ccsdsPri 0) (str "7") ⟨13, 3⟩ ↔
      ¬ShiftedOut (str "7") ⟨13, 3⟩ :=
  exactField_iff Host.little instantiate _ _ (by decide) (by decide)

end CmdSend.PassThru
