-- SUMMARY: Bit fields of a machine word: reading a field, and what a masked assignment or an OR does to it.
import Mathlib.Data.BitVec

/-!
# Bit fields

A field is a run of bits of a word. Code sets it through a mask, by a masked
assignment or by an OR. A mask that covers the field sets all of it, and a mask
that avoids the field leaves it alone.
-/

namespace CLib

/-- A run of `len` bits from bit `lo` on. -/
structure BitField where
  lo : Nat
  len : Nat
deriving DecidableEq, Repr

namespace BitField

variable {w : Nat}

/-- The bits of the field. -/
def read (f : BitField) (x : BitVec w) : BitVec f.len := x.extractLsb' f.lo f.len

/-- Every bit of the field is set in the mask. -/
def CoveredBy (f : BitField) (mask : BitVec w) : Prop :=
  ∀ i < f.len, mask.getLsbD (f.lo + i) = true

/-- No bit of the field is set in the mask. -/
def AvoidedBy (f : BitField) (mask : BitVec w) : Prop :=
  ∀ i < f.len, mask.getLsbD (f.lo + i) = false

instance (f : BitField) (mask : BitVec w) : Decidable (f.CoveredBy mask) :=
  inferInstanceAs (Decidable (∀ i < f.len, mask.getLsbD (f.lo + i) = true))

instance (f : BitField) (mask : BitVec w) : Decidable (f.AvoidedBy mask) :=
  inferInstanceAs (Decidable (∀ i < f.len, mask.getLsbD (f.lo + i) = false))

theorem read_zero (f : BitField) : f.read (0 : BitVec w) = 0 := by
  apply BitVec.eq_of_getLsbD_eq
  intro i hi
  simp [read]

end BitField

/-- The masked assignment `(x & ~mask) | (bits & mask)`. -/
def assign {w : Nat} (mask x bits : BitVec w) : BitVec w :=
  (x &&& ~~~mask) ||| (bits &&& mask)

namespace BitField

variable {w : Nat} {f : BitField} {mask : BitVec w}

theorem read_assign_covered (h : f.CoveredBy mask) (x bits : BitVec w) :
    f.read (assign mask x bits) = f.read bits := by
  apply BitVec.eq_of_getLsbD_eq
  intro i hi
  simp only [read, assign, BitVec.getLsbD_extractLsb', hi, decide_true, Bool.true_and,
    BitVec.getLsbD_or, BitVec.getLsbD_and, BitVec.getLsbD_not, h i hi]
  simp

theorem read_assign_avoided (h : f.AvoidedBy mask) (x bits : BitVec w) :
    f.read (assign mask x bits) = f.read x := by
  apply BitVec.eq_of_getLsbD_eq
  intro i hi
  simp only [read, assign, BitVec.getLsbD_extractLsb', hi, decide_true, Bool.true_and,
    BitVec.getLsbD_or, BitVec.getLsbD_and, BitVec.getLsbD_not, h i hi]
  cases hx : x.getLsbD (f.lo + i) with
  | false => simp
  | true => simp [BitVec.lt_of_getLsbD hx]

/-- Assignments through masks that share no bit can change places. -/
theorem assign_comm {mask mask' : BitVec w} (h : mask &&& mask' = 0) (x bits bits' : BitVec w) :
    assign mask' (assign mask x bits) bits' = assign mask (assign mask' x bits') bits := by
  apply BitVec.eq_of_getLsbD_eq
  intro i hi
  have hbit : (mask.getLsbD i && mask'.getLsbD i) = false := by
    rw [← BitVec.getLsbD_and, h]
    exact BitVec.getLsbD_zero
  simp only [assign, BitVec.getLsbD_and, BitVec.getLsbD_or, BitVec.getLsbD_not]
  revert hbit
  cases mask.getLsbD i <;> cases mask'.getLsbD i <;> simp [hi]

theorem read_or (f : BitField) (x y : BitVec w) : f.read (x ||| y) = f.read x ||| f.read y := by
  apply BitVec.eq_of_getLsbD_eq
  intro i hi
  simp [read, hi]

theorem read_or_covered (h : f.CoveredBy mask) (x : BitVec w) :
    f.read (x ||| mask) = BitVec.allOnes f.len := by
  apply BitVec.eq_of_getLsbD_eq
  intro i hi
  simp [read, hi, h i hi]

theorem read_or_avoided (h : f.AvoidedBy mask) (x : BitVec w) :
    f.read (x ||| mask) = f.read x := by
  apply BitVec.eq_of_getLsbD_eq
  intro i hi
  simp [read, hi, h i hi]

/-- A value that is shifted to the place of the field is read back, as far as it
fits. -/
theorem read_setWidth_shiftLeft {v : BitVec w} {n : Nat} (hn : f.lo + f.len ≤ n) (hw : n ≤ w) :
    f.read ((v <<< f.lo).setWidth n) = v.setWidth f.len := by
  apply BitVec.eq_of_getLsbD_eq
  intro i hi
  have h₁ : f.lo + i < n := by omega
  have h₂ : f.lo + i < w := by omega
  have h₃ : ¬f.lo + i < f.lo := by omega
  simp only [read, BitVec.getLsbD_extractLsb', BitVec.getLsbD_setWidth, BitVec.getLsbD_shiftLeft,
    hi, h₁, h₂, h₃, Nat.add_sub_cancel_left]
  simp

/-! ## The mask of a field -/

/-- The mask with the bits of the field and no others. -/
def run (w : Nat) (f : BitField) : BitVec w := BitVec.ofNat w ((2 ^ f.len - 1) <<< f.lo)

theorem getLsbD_run (f : BitField) (w i : Nat) :
    (f.run w).getLsbD i = decide (i < w ∧ f.lo ≤ i ∧ i < f.lo + f.len) := by
  rw [run, BitVec.getLsbD_ofNat, Nat.testBit_shiftLeft, Nat.testBit_two_pow_sub_one]
  grind

theorem covered_run (h : f.lo + f.len ≤ w) : f.CoveredBy (f.run w) := by
  intro i hi
  rw [getLsbD_run]
  exact decide_eq_true ⟨by omega, by omega, by omega⟩

/-- A value that is shifted to the place of a field has no bit outside the field
exactly when it fits, without the bits that the shift has moved out. -/
theorem shiftLeft_and_not_run (f : BitField) (hf : f.lo + f.len ≤ w) (v : BitVec w) :
    (v <<< f.lo) &&& ~~~(f.run w) = 0 ↔ v.toNat % 2 ^ (w - f.lo) < 2 ^ f.len := by
  have hbit : ∀ i, ((v <<< f.lo) &&& ~~~(f.run w)).getLsbD i =
      decide (f.lo + f.len ≤ i ∧ i < w ∧ v.getLsbD (i - f.lo) = true) := by
    intro i
    simp only [BitVec.getLsbD_and, BitVec.getLsbD_shiftLeft, BitVec.getLsbD_not, getLsbD_run]
    grind
  have hzero : ∀ i, (0 : BitVec w).getLsbD i = false := fun _ => BitVec.getLsbD_zero
  constructor
  · intro h
    apply Nat.lt_pow_two_of_testBit
    intro i hi
    rw [Nat.testBit_mod_two_pow]
    have hno := of_decide_eq_false ((hbit (f.lo + i)).symm.trans (h ▸ hzero _))
    rw [Nat.add_sub_cancel_left, BitVec.getLsbD] at hno
    grind
  · intro h
    apply BitVec.eq_of_getLsbD_eq
    intro i _
    rw [hbit, hzero]
    apply decide_eq_false
    rintro ⟨hlo, hi, hv⟩
    have hmod := Nat.testBit_mod_two_pow v.toNat (w - f.lo) (i - f.lo)
    have hlt : 2 ^ f.len ≤ 2 ^ (i - f.lo) := Nat.pow_le_pow_right (by decide) (by omega)
    rw [Nat.testBit_lt_two_pow (Nat.lt_of_lt_of_le h hlt)] at hmod
    rw [BitVec.getLsbD] at hv
    rw [hv] at hmod
    simp at hmod
    omega

end BitField

end CLib
