-- SUMMARY: Byte memory of C buffers: copies, fills and slices, and the extent of bytes that a copy or a fill touches.
import Mathlib.Data.List.Basic
import Mathlib.Data.BitVec

/-!
# Memory behind a C pointer

A C function that is handed a pointer to a buffer can write at any offset from
it. `Mem` is the memory from the first byte of the buffer on, without an upper
end: the size of the buffer is a fact about the accesses (`Extent.Within`), not
about the type, so that an access past the end can be expressed and ruled out.
-/

namespace CLib

/-- A C `char`, as the eight bits that are stored. -/
abbrev Byte := BitVec 8

/-- The memory from the first byte of a buffer on. -/
abbrev Mem := Nat → Byte

/-- The bytes that one `memcpy` or `memset` touches: an offset from the first
byte of the buffer, and a number of bytes. -/
structure Extent where
  start : Nat
  count : Nat
deriving DecidableEq, Repr

/-- The extent stays inside a buffer of `size` bytes. The sum is the
mathematical one. -/
def Extent.Within (e : Extent) (size : Nat) : Prop :=
  e.start + e.count ≤ size

instance (e : Extent) (size : Nat) : Decidable (e.Within size) :=
  inferInstanceAs (Decidable (e.start + e.count ≤ size))

namespace Mem

/-- `memcpy(&m[off], src, n)` for a source of `n` bytes. -/
def copy (m : Mem) (off : Nat) (src : List Byte) : Mem := fun i =>
  if off ≤ i ∧ i < off + src.length then src.getD (i - off) 0 else m i

/-- `memset(&m[off], val, count)`. -/
def fill (m : Mem) (off : Nat) (val : Byte) (count : Nat) : Mem := fun i =>
  if off ≤ i ∧ i < off + count then val else m i

/-- The `n` bytes from offset `off` on. -/
def slice (m : Mem) : Nat → Nat → List Byte
  | _, 0 => []
  | off, n + 1 => m off :: slice m (off + 1) n

/-! ## Reading -/

@[simp] theorem slice_zero (m : Mem) (off : Nat) : m.slice off 0 = [] := rfl

@[simp] theorem length_slice (m : Mem) (off n : Nat) : (m.slice off n).length = n := by
  induction n generalizing off with
  | zero => rfl
  | succ n ih => simp [slice, ih]

theorem getElem_slice {m : Mem} {off n k : Nat} (h : k < (m.slice off n).length) :
    (m.slice off n)[k] = m (off + k) := by
  induction n generalizing off k with
  | zero => simp at h
  | succ n ih =>
    cases k with
    | zero => rfl
    | succ k =>
      have hk : k < (m.slice (off + 1) n).length := by simpa [slice] using h
      simpa [slice, Nat.add_assoc, Nat.add_comm 1 k] using ih hk

theorem slice_add (m : Mem) (off n k : Nat) :
    m.slice off (n + k) = m.slice off n ++ m.slice (off + n) k := by
  induction n generalizing off with
  | zero => simp
  | succ n ih =>
    rw [Nat.succ_add]
    simp only [slice, ih, List.cons_append]
    rw [show off + 1 + n = off + (n + 1) by omega]

theorem slice_congr {m m' : Mem} {off n : Nat}
    (h : ∀ i, off ≤ i → i < off + n → m i = m' i) : m.slice off n = m'.slice off n := by
  induction n generalizing off with
  | zero => rfl
  | succ n ih =>
    simp only [slice]
    rw [h off (Nat.le_refl _) (by omega), ih fun i hlo hhi => h i (by omega) (by omega)]

/-! ## Writing -/

@[simp] theorem copy_nil (m : Mem) (off : Nat) : m.copy off [] = m := by
  funext i
  have : ¬(off ≤ i ∧ i < off + ([] : List Byte).length) := by simp
  simp only [copy, if_neg this]

theorem copy_outside {m : Mem} {off i : Nat} {src : List Byte}
    (h : i < off ∨ off + src.length ≤ i) : m.copy off src i = m i := by
  have : ¬(off ≤ i ∧ i < off + src.length) := by omega
  simp only [copy, if_neg this]

theorem copy_inside {m : Mem} {off k : Nat} {src : List Byte} (h : k < src.length) :
    m.copy off src (off + k) = src[k] := by
  have hin : off ≤ off + k ∧ off + k < off + src.length := by omega
  simp only [copy, if_pos hin, Nat.add_sub_cancel_left]
  simp [List.getD_eq_getElem?_getD, h]

/-- A fill is the copy of a constant source. -/
theorem fill_eq_copy (m : Mem) (off : Nat) (val : Byte) (count : Nat) :
    m.fill off val count = m.copy off (List.replicate count val) := by
  funext i
  by_cases h : off ≤ i ∧ i < off + count
  · have hlt : i - off < (List.replicate count val).length := by simp; omega
    simp only [fill, copy, List.length_replicate, if_pos h]
    rw [List.getD_eq_getElem?_getD, List.getElem?_eq_getElem hlt, List.getElem_replicate]
    rfl
  · simp only [fill, copy, List.length_replicate, if_neg h]

theorem slice_copy_same (m : Mem) (off : Nat) (src : List Byte) :
    (m.copy off src).slice off src.length = src := by
  apply List.ext_getElem (length_slice ..)
  intro k h₁ h₂
  rw [getElem_slice, copy_inside h₂]

theorem slice_copy_disjoint {m : Mem} {off o n : Nat} {src : List Byte}
    (h : o + n ≤ off ∨ off + src.length ≤ o) : (m.copy off src).slice o n = m.slice o n :=
  slice_congr fun i hlo hhi => copy_outside (by omega)

/-- Appending to the first `n` bytes of a buffer. -/
theorem slice_copy_append (m : Mem) (n : Nat) (src : List Byte) :
    (m.copy n src).slice 0 (n + src.length) = m.slice 0 n ++ src := by
  rw [slice_add, Nat.zero_add, slice_copy_same, slice_copy_disjoint (Or.inl (by omega))]

/-- An assignment to one byte is a copy of it. -/
theorem update_eq_copy (m : Mem) (off : Nat) (v : Byte) :
    Function.update m off v = m.copy off [v] := by
  funext i
  by_cases hi : i = off
  · subst hi
    have hin : m.copy i [v] (i + 0) = v := copy_inside Nat.one_pos
    rw [Function.update_self]
    exact hin.symm
  · have hout : i < off ∨ off + [v].length ≤ i := by
      rw [List.length_singleton]
      omega
    rw [Function.update_of_ne hi, copy_outside hout]

/-- Two copies one after the other are one copy of both sources. -/
theorem copy_copy_append (m : Mem) (off : Nat) (src src' : List Byte) :
    (m.copy off src).copy (off + src.length) src' = m.copy off (src ++ src') := by
  funext i
  simp only [copy, List.length_append, List.getD_eq_getElem?_getD]
  by_cases h₁ : off + src.length ≤ i ∧ i < off + src.length + src'.length
  · have h₂ : off ≤ i ∧ i < off + (src.length + src'.length) := by omega
    rw [if_pos h₁, if_pos h₂, List.getElem?_append_right (by omega)]
    rw [show i - off - src.length = i - (off + src.length) by omega]
  · rw [if_neg h₁]
    by_cases h₃ : off ≤ i ∧ i < off + src.length
    · have h₂ : off ≤ i ∧ i < off + (src.length + src'.length) := by omega
      rw [if_pos h₃, if_pos h₂, List.getElem?_append_left (by omega)]
    · have h₂ : ¬(off ≤ i ∧ i < off + (src.length + src'.length)) := by omega
      rw [if_neg h₃, if_neg h₂]

/-- Two copies side by side, the later one first, are one copy of both sources. -/
theorem copy_copy_prepend (m : Mem) (off : Nat) (src src' : List Byte) :
    (m.copy (off + src.length) src').copy off src = m.copy off (src ++ src') := by
  rw [← copy_copy_append]
  funext i
  by_cases hi : off ≤ i ∧ i < off + src.length
  · have hin : ∀ m : Mem, m.copy off src i = src.getD (i - off) 0 := fun m => if_pos hi
    have hout : (m.copy off src).copy (off + src.length) src' i = m.copy off src i :=
      copy_outside (Or.inl hi.2)
    rw [hin, hout, hin]
  · have hout : ∀ m : Mem, m.copy off src i = m i := fun m => if_neg hi
    rw [hout]
    by_cases hi' : off + src.length ≤ i ∧ i < off + src.length + src'.length
    · simp only [copy, if_pos hi']
    · rw [copy_outside (by omega), copy_outside (by omega), hout]

/-- A byte that is written after a copy into the copied part is one of the
source. -/
theorem update_copy (m : Mem) (off : Nat) {k : Nat} {src : List Byte} (h : k < src.length)
    (v : Byte) : Function.update (m.copy off src) (off + k) v = m.copy off (src.set k v) := by
  funext i
  by_cases hi : i = off + k
  · have hlt : k < (src.set k v).length := by rwa [List.length_set]
    subst hi
    rw [Function.update_self, copy_inside hlt, List.getElem_set_self]
  · rw [Function.update_of_ne hi]
    simp only [copy, List.length_set, List.getD_eq_getElem?_getD]
    by_cases hin : off ≤ i ∧ i < off + src.length
    · have hk : k ≠ i - off := by omega
      rw [if_pos hin, if_pos hin, List.getElem?_set_ne hk]
    · rw [if_neg hin, if_neg hin]

end Mem

end CLib
