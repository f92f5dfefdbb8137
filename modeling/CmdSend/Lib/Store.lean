-- SUMMARY: The stores that a function makes into a buffer: what they read and write, and what they leave alone.
import CmdSend.Lib.Memory

/-!
# Stores into a buffer

A store is a `memmove` inside the buffer or a write of bytes that come from outside. A
list of stores says in order what a function does to a buffer, so that the bytes it
touches can be compared with the size of the buffer.
-/

namespace CLib

/-- A store into a buffer, with offsets from its first byte. -/
inductive Store
  /-- `memmove(&m[dst], &m[src], count)`. -/
  | memmove (dst src count : Nat)
  /-- A write of bytes that are not in the buffer. -/
  | write (dst : Nat) (bytes : List Byte)
deriving DecidableEq, Repr

namespace Store

/-- The buffer after a store. A `memmove` reads all of its source first. -/
def apply (m : Mem) : Store → Mem
  | memmove dst src count => m.copy dst (m.slice src count)
  | write dst bytes => m.copy dst bytes

/-- The bytes that a store writes. -/
def target : Store → Extent
  | memmove dst _ count => ⟨dst, count⟩
  | write dst bytes => ⟨dst, bytes.length⟩

/-- The bytes of the buffer that a store reads. -/
def source : Store → Option Extent
  | memmove _ src count => some ⟨src, count⟩
  | write _ _ => none

/-- The store reads and writes inside a buffer of `size` bytes. -/
structure Within (s : Store) (size : Nat) : Prop where
  target : s.target.Within size
  source : ∀ e, s.source = some e → e.Within size

/-- A write reads nothing of the buffer. -/
theorem within_write {dst size : Nat} {bytes : List Byte} (h : dst + bytes.length ≤ size) :
    (write dst bytes).Within size :=
  ⟨h, fun e he => by cases he⟩

/-- The buffer after some stores. -/
def applyAll (m : Mem) (stores : List Store) : Mem := stores.foldl apply m

@[simp] theorem applyAll_nil (m : Mem) : applyAll m [] = m := rfl

theorem apply_outside {m : Mem} {s : Store} {i : Nat}
    (h : i < s.target.start ∨ s.target.start + s.target.count ≤ i) : s.apply m i = m i := by
  cases s with
  | memmove dst src count =>
    refine Mem.copy_outside ?_
    rw [Mem.length_slice]
    exact h
  | write dst bytes => exact Mem.copy_outside h

/-- Stores inside a buffer leave the memory behind it alone. -/
theorem applyAll_beyond {m : Mem} {stores : List Store} {size i : Nat}
    (h : ∀ s ∈ stores, s.Within size) (hi : size ≤ i) : applyAll m stores i = m i := by
  induction stores generalizing m with
  | nil => rfl
  | cons s stores ih =>
    have hs : s.target.start + s.target.count ≤ size := (h s List.mem_cons_self).target
    change applyAll (s.apply m) stores i = m i
    rw [ih fun t ht => h t (List.mem_cons_of_mem s ht)]
    exact apply_outside (Or.inr (Nat.le_trans hs hi))

end Store

end CLib
