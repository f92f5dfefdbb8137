-- SUMMARY: The integer types of C: their ranges, narrowing from 64 bits and back, and reading a value from its bytes.
import CmdSend.Lib.ByteOrder
import CmdSend.Lib.Numeral

/-!
# Integer types

A value in the range of a type survives the way from a wide integer through the
type, and from the type through its bytes. Both are what the parsers of numbers
rely on when they compare a narrowed value with the value they started from.
-/

namespace CLib

/-- A C integer type of a fixed width. -/
structure IntType where
  signed : Bool
  width : Nat
deriving DecidableEq, Repr

namespace IntType

/-- The value is in the range of the type. -/
def Holds (t : IntType) (v : Int) : Prop :=
  if t.signed then -2 ^ (t.width - 1) ≤ v ∧ v < 2 ^ (t.width - 1) else 0 ≤ v ∧ v < 2 ^ t.width

instance (t : IntType) (v : Int) : Decidable (t.Holds v) :=
  inferInstanceAs (Decidable (ite _ _ _))

/-- The value that bytes denote, in the given order. -/
def decode (t : IntType) (o : ByteOrder) (bs : List Byte) : Int :=
  if t.signed then o.decodeSigned bs else o.decode bs

/-- The value of the type in an integer of 64 bits. -/
def widen (t : IntType) {w : Nat} (x : BitVec w) : BitVec 64 :=
  if t.signed then x.signExtend 64 else x.setWidth 64

/-- The conversion function for the type: `strtoll` or `strtoull`. -/
def conversion (t : IntType) (text : Text) : Conversion 64 :=
  if t.signed then strtoll text else strtoull text

end IntType

/-! ## Values of a type -/

theorem setWidth_ofInt {w n : Nat} (h : w ≤ n) (v : Int) :
    (BitVec.ofInt n v).setWidth w = BitVec.ofInt w v := by
  have hdvd : (2 ^ w : Int) ∣ 2 ^ n := pow_dvd_pow 2 h
  have hpos : (0 : Int) < 2 ^ n := by positivity
  apply BitVec.eq_of_toNat_eq
  rw [BitVec.toNat_setWidth, BitVec.toNat_ofInt, BitVec.toNat_ofInt]
  apply Int.ofNat_inj.mp
  have hmod := Int.emod_emod_of_dvd v hdvd
  have h₀ := Int.emod_nonneg v hpos.ne'
  have h₁ := Int.emod_nonneg v (by positivity : (2 ^ w : Int) ≠ 0)
  push_cast
  rw [Int.toNat_of_nonneg h₀, Int.toNat_of_nonneg h₁]
  exact hmod

theorem toNat_ofInt_of_range {w : Nat} {v : Int} (hlo : 0 ≤ v) (hhi : v < 2 ^ w) :
    ((BitVec.ofInt w v).toNat : Int) = v := by
  rw [BitVec.toNat_ofInt]
  push_cast
  rw [Int.emod_eq_of_lt hlo hhi, Int.toNat_of_nonneg hlo]

namespace IntType

variable {t : IntType} {v : Int}

/-- A value in range is the same in 64 bits. -/
theorem widen_ofInt (hpos : 0 < t.width) (hw : t.width ≤ 64) (hv : t.Holds v) :
    t.widen (BitVec.ofInt t.width v) = BitVec.ofInt 64 v := by
  unfold Holds at hv
  unfold widen
  cases hs : t.signed with
  | true =>
    simp only [hs, if_true] at hv ⊢
    have hpow : (2 : Int) ^ (t.width - 1) ≤ 2 ^ 63 := pow_le_pow_right₀ (by decide) (by omega)
    apply BitVec.eq_of_toInt_eq
    rw [BitVec.toInt_signExtend_of_le hw, BitVec.toInt_ofInt_eq_self hpos hv.1 hv.2]
    exact (BitVec.toInt_ofInt_eq_self (by decide) (by omega) (by omega)).symm
  | false =>
    simp only [hs, Bool.false_eq_true, if_false] at hv ⊢
    have hpow : (2 : Int) ^ t.width ≤ 2 ^ 64 := pow_le_pow_right₀ (by decide) hw
    have hn := toNat_ofInt_of_range hv.1 hv.2
    have hn' := toNat_ofInt_of_range (w := 64) hv.1 (by omega)
    apply BitVec.eq_of_toNat_eq
    rw [BitVec.toNat_setWidth]
    omega

/-- A value in range is read back from its bytes. -/
theorem decode_bytes (hpos : 0 < t.width) (h8 : 8 ∣ t.width) (hv : t.Holds v) (o : ByteOrder) :
    t.decode o (o.bytes (BitVec.ofInt t.width v)) = v := by
  unfold Holds at hv
  unfold decode
  cases hs : t.signed with
  | true =>
    simp only [hs, if_true] at hv ⊢
    rw [ByteOrder.decodeSigned_bytes o h8]
    exact BitVec.toInt_ofInt_eq_self hpos hv.1 hv.2
  | false =>
    simp only [hs, Bool.false_eq_true, if_false] at hv ⊢
    rw [ByteOrder.decode_bytes o h8]
    exact toNat_ofInt_of_range hv.1 hv.2

/-- A numeral in range is converted to its value. -/
theorem conversion_of_holds (hpos : 0 < t.width) (hw : t.width ≤ 64) {text : Text} {n : Numeral}
    (h : scanNumeral text = some n) (hv : t.Holds n.value) :
    t.conversion text = ⟨BitVec.ofInt 64 n.value, n.tail, .ok⟩ := by
  unfold Holds at hv
  unfold conversion
  cases hs : t.signed with
  | true =>
    simp only [hs, if_true] at hv ⊢
    have hpow : (2 : Int) ^ (t.width - 1) ≤ 2 ^ 63 := pow_le_pow_right₀ (by decide) (by omega)
    exact strtoll_of_value h (by omega) (by omega)
  | false =>
    simp only [hs, Bool.false_eq_true, if_false] at hv ⊢
    have hpow : (2 : Int) ^ t.width ≤ 2 ^ 64 := pow_le_pow_right₀ (by decide) hw
    exact strtoull_of_value h hv.1 (by omega)

/-- A rendering of a value in range is converted to it, and in full. -/
theorem conversion_of_renders (hpos : 0 < t.width) (hw : t.width ≤ 64) (hv : t.Holds v)
    {text : Text} (htext : RendersInt text v) :
    t.conversion text = ⟨BitVec.ofInt 64 v, [], .ok⟩ ∧ (t.conversion text).tail ≠ text := by
  obtain ⟨n, hscan, rfl, htail⟩ := scanNumeral_of_rendersInt htext
  have hne : n.tail ≠ text := scanNumeral_tail_ne hscan
  rw [conversion_of_holds hpos hw hscan hv]
  exact ⟨by rw [htail], hne⟩

/-- The tail of a conversion is that of the numeral. -/
theorem conversion_tail (t : IntType) {text : Text} {n : Numeral} (h : scanNumeral text = some n) :
    (t.conversion text).tail = n.tail := by
  unfold conversion
  split
  · exact strtoll_tail h
  · exact strtoull_tail h

theorem conversion_of_none (t : IntType) {text : Text} (h : scanNumeral text = none) :
    t.conversion text = ⟨0, text, .ok⟩ := by
  unfold conversion
  split
  · exact strtoll_of_none h
  · exact strtoull_of_none h

/-! ## The range check -/

/-- The number that 64 bits stand for, in the signedness of the type. -/
def value (t : IntType) (y : BitVec 64) : Int := if t.signed then y.toInt else y.toNat

/-- A value is the same after narrowing and widening exactly when it is in the range
of the type. -/
theorem widen_setWidth_iff (hpos : 0 < t.width) (hw : t.width ≤ 64) (y : BitVec 64) :
    t.widen (y.setWidth t.width) = y ↔ t.Holds (t.value y) := by
  constructor
  · intro h
    unfold widen at h
    unfold value Holds
    cases hs : t.signed with
    | true =>
      simp only [hs, if_true] at h ⊢
      rw [← h, BitVec.toInt_signExtend_of_le hw]
      exact ⟨BitVec.le_toInt _, BitVec.toInt_lt⟩
    | false =>
      simp only [hs, Bool.false_eq_true, if_false] at h ⊢
      rw [← h, BitVec.toNat_setWidth]
      have hlt := (y.setWidth t.width).isLt
      have hmod := Nat.mod_le (y.setWidth t.width).toNat (2 ^ 64)
      exact ⟨Int.natCast_nonneg _, by exact_mod_cast Nat.lt_of_le_of_lt hmod hlt⟩
  · intro h
    have hy : BitVec.ofInt 64 (t.value y) = y := by
      unfold value
      cases t.signed
      · exact BitVec.ofInt_natCast .. |>.trans (BitVec.ofNat_toNat ..) |>.trans (by simp)
      · exact BitVec.ofInt_toInt
    have hwiden := widen_ofInt hpos hw h
    rwa [← setWidth_ofInt hw, hy] at hwiden

/-- The numerals that the range check takes for another number. With 64 bits these are
all that are out of range, since narrowing does nothing. With fewer bits they are the
negative ones that come out of the negation modulo 2^64 in the range of an unsigned
type. -/
def Misread (t : IntType) (n : Numeral) : Prop :=
  if t.width = 64 then ¬t.Holds n.value
  else t.signed = false ∧ n.neg = true ∧ 2 ^ 64 - 2 ^ t.width < n.magnitude ∧ n.magnitude < 2 ^ 64

instance (t : IntType) (n : Numeral) : Decidable (t.Misread n) :=
  inferInstanceAs (Decidable (ite _ _ _))

theorem not_holds_of_misread {n : Numeral} (h : t.Misread n) : ¬t.Holds n.value := by
  unfold Misread at h
  split at h
  · exact h
  · obtain ⟨hs, hneg, hmag, -⟩ := h
    simp only [Holds, hs, Numeral.value, hneg, Bool.false_eq_true, if_false, if_true]
    omega

theorem toInt_strtoll {s : Text} {n : Numeral} (h : scanNumeral s = some n) :
    (strtoll s).value.toInt = max (-2 ^ 63) (min n.value (2 ^ 63 - 1)) := by
  have hmin : (BitVec.intMin 64).toInt = -2 ^ 63 := by decide
  have hmax : (BitVec.intMax 64).toInt = 2 ^ 63 - 1 := by decide
  simp only [strtoll, h]
  split
  · rw [hmin]
    omega
  · split
    · rw [hmax]
      omega
    · rw [BitVec.toInt_ofInt_eq_self (by decide) (by omega) (by omega)]
      omega

theorem toNat_strtoull {s : Text} {n : Numeral} (h : scanNumeral s = some n) :
    ((strtoull s).value.toNat : Int) =
      if n.magnitude < 2 ^ 64 then n.value % 2 ^ 64 else 2 ^ 64 - 1 := by
  simp only [strtoull, h]
  split
  · rw [BitVec.toNat_ofInt]
    have hnonneg := Int.emod_nonneg n.value (by decide : (2 ^ 64 : Int) ≠ 0)
    push_cast
    exact Int.toNat_of_nonneg hnonneg
  · rfl

/-- What passes the range check is in range, or misread. -/
theorem holds_conversion_iff (hpos : 0 < t.width) (hw : t.width ≤ 64) {text : Text}
    {n : Numeral} (h : scanNumeral text = some n) :
    t.Holds (t.value (t.conversion text).value) ↔ t.Holds n.value ∨ t.Misread n := by
  unfold Misread
  cases hs : t.signed with
  | true =>
    have hclamp := toInt_strtoll h
    simp only [value, conversion, Holds, hs, if_true, Bool.true_eq_false, false_and]
    generalize (strtoll text).value.toInt = y at hclamp ⊢
    by_cases h64 : t.width = 64
    · rw [if_pos h64, h64]
      simp only [Nat.reduceSub]
      omega
    · have hpow : (2 : Int) ^ (t.width - 1) ≤ 2 ^ 62 := pow_le_pow_right₀ (by decide) (by omega)
      have hpos' : (0 : Int) < 2 ^ (t.width - 1) := by positivity
      rw [if_neg h64, or_false]
      generalize (2 : Int) ^ (t.width - 1) = half at *
      omega
  | false =>
    have hvalue := toNat_strtoull h
    have hsign : n.neg = true ∧ n.value = -n.magnitude ∨ n.neg = false ∧ n.value = n.magnitude := by
      unfold Numeral.value
      cases n.neg
      · exact Or.inr ⟨rfl, rfl⟩
      · exact Or.inl ⟨rfl, rfl⟩
    simp only [value, conversion, Holds, hs, Bool.false_eq_true, if_false, true_and]
    generalize (strtoull text).value.toNat = y at hvalue ⊢
    generalize n.value = v at *
    by_cases h64 : t.width = 64
    · rw [if_pos h64, h64]
      split at hvalue <;> omega
    · have hpow : 2 ^ t.width ≤ 2 ^ 63 := Nat.pow_le_pow_right (by decide) (by omega)
      have hcast : (2 : Int) ^ t.width = ((2 ^ t.width : Nat) : Int) := by push_cast; rfl
      have hpos' : 0 < 2 ^ t.width := Nat.two_pow_pos _
      rw [if_neg h64, hcast]
      generalize 2 ^ t.width = size at *
      rcases hsign with ⟨hneg, hv⟩ | ⟨hneg, hv⟩
      · simp only [hneg, true_and]
        split at hvalue <;> omega
      · simp only [hneg, Bool.false_eq_true, false_and, or_false]
        split at hvalue <;> omega

end IntType

end CLib
