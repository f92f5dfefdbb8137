-- SUMMARY: C strings as lists of bytes, and the number formats of printf that the error texts use.
import CmdSend.Lib.Memory

/-!
# C strings

A C string is the list of its bytes without the terminator, and a pointer into
it is the list of the bytes from there on.
-/

namespace CLib

/-- The bytes of a C string, up to its terminator. -/
abbrev Text := List Byte

/-- The byte of an ASCII character. -/
def ch (c : Char) : Byte := BitVec.ofNat 8 c.toNat

/-- The bytes of an ASCII string literal. -/
def str (s : String) : Text := s.toList.map ch

/-- `strchr`, as the index of the first `c`. -/
def strchr (s : Text) (c : Byte) : Option Nat := s.findIdx? (· = c)

theorem strchr_eq_none_iff {s : Text} {c : Byte} : strchr s c = none ↔ c ∉ s := by
  simp only [strchr, List.findIdx?_eq_none_iff, decide_eq_false_iff_not]
  exact ⟨fun h hc => h c hc rfl, fun h x hx hxc => h (hxc ▸ hx)⟩

/-- `strrchr`, as the index of the last `c`. -/
def strrchr (s : Text) (c : Byte) : Option Nat :=
  (s.reverse.findIdx? (· = c)).map fun i => s.length - 1 - i

theorem strrchr_eq_none_iff {s : Text} {c : Byte} : strrchr s c = none ↔ c ∉ s := by
  rw [strrchr, Option.map_eq_none_iff, ← List.mem_reverse]
  exact strchr_eq_none_iff

theorem strrchr_lt {s : Text} {c : Byte} {i : Nat} (h : strrchr s c = some i) : i < s.length := by
  obtain ⟨k, hk, rfl⟩ := Option.map_eq_some_iff.mp h
  obtain ⟨hlt, -, -⟩ := List.findIdx?_eq_some_iff_getElem.mp hk
  rw [List.length_reverse] at hlt
  omega

/-- The last `c` is the one that no other comes after. -/
theorem strrchr_append (before : Text) {after : Text} {c : Byte} (h : c ∉ after) :
    strrchr (before ++ c :: after) c = some before.length := by
  have hrev : (before ++ c :: after).reverse.findIdx? (· = c) = some after.length := by
    rw [List.reverse_append, List.reverse_cons, List.append_assoc, List.findIdx?_append,
      List.findIdx?_eq_none_iff.mpr]
    · simp [List.findIdx?_cons]
    · intro x hx
      exact decide_eq_false fun hxc => h (hxc ▸ List.mem_reverse.mp hx)
  rw [strrchr, hrev, Option.map_some, List.length_append, List.length_cons]
  congr 1
  omega

/-- A text is split at the last `c` in it. -/
theorem exists_split_last {s : Text} {c : Byte} (h : c ∈ s) :
    ∃ before after, s = before ++ c :: after ∧ c ∉ after := by
  obtain ⟨as, bs, hsplit, has⟩ := List.eq_append_cons_of_mem (List.mem_reverse.mpr h)
  refine ⟨bs.reverse, as.reverse, ?_, mt List.mem_reverse.mp has⟩
  rw [← List.reverse_reverse s, hsplit]
  simp

/-! ## Strings in arrays -/

/-- The string that an array of `size` bytes holds. -/
def Mem.cstr (m : Mem) (size : Nat) : Text := (m.slice 0 size).takeWhile (· ≠ 0)

/-- Copy a string into an array, and terminate it. -/
def Mem.setText (m : Mem) (s : Text) : Mem := Function.update (m.copy 0 s) s.length 0

theorem Mem.setText_eq_copy (m : Mem) (s : Text) : m.setText s = m.copy 0 (s ++ [0]) := by
  rw [← Mem.copy_copy_append, Nat.zero_add]
  exact Mem.update_eq_copy _ _ _

/-- The string that an array holds, read off its first bytes. -/
theorem Mem.cstr_of_slice {m : Mem} {s : Text} {size : Nat}
    (hslice : m.slice 0 (s.length + 1) = s ++ [0]) (hzero : 0 ∉ s) (hsize : s.length < size) :
    m.cstr size = s := by
  obtain ⟨extra, rfl⟩ := Nat.exists_eq_add_of_le (Nat.succ_le_of_lt hsize)
  rw [cstr, Mem.slice_add, hslice, List.append_assoc, List.takeWhile_append_of_pos]
  · simp
  · intro x hx
    exact decide_eq_true fun h => hzero (h ▸ hx)

/-- A string that fits into an array is the one that the array holds. -/
theorem Mem.cstr_setText (m : Mem) {s : Text} {size : Nat} (hzero : 0 ∉ s)
    (hsize : s.length < size) : (m.setText s).cstr size = s := by
  refine Mem.cstr_of_slice ?_ hzero hsize
  have hsame := Mem.slice_copy_same m 0 (s ++ [0])
  rwa [List.length_append, List.length_singleton, ← Mem.setText_eq_copy] at hsame

theorem Mem.zero_notMem_cstr (m : Mem) (size : Nat) : 0 ∉ m.cstr size := by
  intro h
  have hne := List.all_eq_true.mp List.all_takeWhile 0 h
  exact of_decide_eq_true hne rfl

/-- A string that is shorter than its array has its terminator behind it. -/
theorem Mem.slice_cstr {m : Mem} {size : Nat} (h : (m.cstr size).length < size) :
    m.slice 0 ((m.cstr size).length + 1) = m.cstr size ++ [0] := by
  have hsplit : m.cstr size ++ (m.slice 0 size).dropWhile (· ≠ 0) = m.slice 0 size :=
    List.takeWhile_append_dropWhile
  have hhead := List.head?_dropWhile_not (fun c : Byte => decide (c ≠ 0)) (m.slice 0 size)
  cases hrest : (m.slice 0 size).dropWhile (· ≠ 0) with
  | nil =>
    have hlen := congrArg List.length hsplit
    rw [hrest, List.append_nil, Mem.length_slice] at hlen
    exact absurd hlen (Nat.ne_of_lt h)
  | cons c rest =>
    rw [hrest] at hhead
    obtain rfl : c = 0 := not_not.mp (of_decide_eq_false hhead)
    obtain ⟨extra, hextra⟩ := Nat.exists_eq_add_of_le (Nat.succ_le_of_lt h)
    have hcut : (m.cstr size ++ [0]) ++ rest = m.slice 0 ((m.cstr size).length + 1) ++
        m.slice (0 + ((m.cstr size).length + 1)) extra := by
      rw [← Mem.slice_add, ← hextra, ← hsplit, hrest, List.append_assoc]
      rfl
    exact (List.append_inj_left hcut (by simp)).symm

/-- The parts of a string lie one after the other in its array. -/
theorem Mem.slice_of_cstr_append {m : Mem} {size : Nat} {before after : Text}
    (hsplit : m.cstr size = before ++ after) (h : (m.cstr size).length < size) :
    m.slice 0 before.length = before ∧
      m.slice before.length (after.length + 1) = after ++ [0] := by
  have hcstr := Mem.slice_cstr h
  rw [hsplit, List.length_append, Nat.add_assoc, Mem.slice_add, Nat.zero_add,
    List.append_assoc] at hcstr
  exact List.append_inj hcstr (Mem.length_slice ..)

theorem Mem.cstr_eq_nil_iff (m : Mem) {size : Nat} (h : 0 < size) :
    m.cstr size = [] ↔ m 0 = 0 := by
  obtain ⟨size, rfl⟩ := Nat.exists_eq_succ_of_ne_zero (Nat.pos_iff_ne_zero.mp h)
  rw [cstr, slice, List.takeWhile_cons]
  by_cases hzero : m 0 = 0
  · simp [hzero]
  · rw [if_pos (decide_eq_true hzero)]
    exact ⟨fun hnil => absurd hnil (List.cons_ne_nil _ _), fun hnul => absurd hnul hzero⟩

/-- `strncpy(m, s, count)`. It fills up with zeros, and has no terminator for a string that
is as long. -/
def Mem.strncpy (m : Mem) (s : Text) (count : Nat) : Mem :=
  m.copy 0 (s.take count ++ List.replicate (count - s.length) 0)

theorem Mem.length_strncpy_source (s : Text) (count : Nat) :
    (s.take count ++ List.replicate (count - s.length) (0 : Byte)).length = count := by
  rw [List.length_append, List.length_take, List.length_replicate]
  omega

theorem Mem.strncpy_beyond (m : Mem) (s : Text) {count i : Nat} (h : count ≤ i) :
    m.strncpy s count i = m i :=
  Mem.copy_outside (Or.inr (by rw [Mem.length_strncpy_source, Nat.zero_add]; exact h))

/-- An array with a text, the zeros of `strncpy` and a terminator holds that text. -/
theorem Mem.cstr_of_padded {m : Mem} {s : Text} {count : Nat}
    (h : m.slice 0 (count + 1) = s.take count ++ List.replicate (count - s.length) 0 ++ [0]) :
    m.cstr (count + 1) = (s.take count).takeWhile (· ≠ 0) := by
  have hlast : [(0 : Byte)] = List.replicate 1 0 := rfl
  rw [Mem.cstr, h, hlast, List.append_assoc, List.replicate_append_replicate,
    List.takeWhile_append]
  split
  · rename_i hall
    rw [List.replicate_succ, List.takeWhile_cons_of_neg (by simp), List.append_nil]
    exact ((List.takeWhile_prefix _).eq_of_length hall).symm
  · rfl

theorem Mem.slice_strncpy (m : Mem) (s : Text) (count : Nat) :
    (m.strncpy s count).slice 0 count = s.take count ++ List.replicate (count - s.length) 0 := by
  have hsame := Mem.slice_copy_same m 0 (s.take count ++ List.replicate (count - s.length) 0)
  rwa [Mem.length_strncpy_source s count] at hsame

/-- A copy that spares the terminator at the end of its array leaves a string there. -/
theorem Mem.cstr_strncpy {m : Mem} {count : Nat} (h : m count = 0) (s : Text) :
    (m.strncpy s count).cstr (count + 1) = (s.take count).takeWhile (· ≠ 0) := by
  have hzero : m.strncpy s count (0 + count) = 0 := by
    rw [Mem.strncpy_beyond m s (Nat.le_add_left _ _), Nat.zero_add, h]
  refine Mem.cstr_of_padded ?_
  rw [Mem.slice_add, Mem.slice_strncpy, Mem.slice, hzero]
  rfl

/-- A string that fits is copied in full. -/
theorem Mem.cstr_strncpy_of_le {m : Mem} {count : Nat} (h : m count = 0) {s : Text}
    (hzero : 0 ∉ s) (hfit : s.length ≤ count) : (m.strncpy s count).cstr (count + 1) = s := by
  have hall : ∀ x ∈ s, decide (x ≠ 0) = true :=
    fun x hx => decide_eq_true fun hnul => hzero (hnul ▸ hx)
  rw [Mem.cstr_strncpy h, List.take_of_length_le hfit, ← List.append_nil s,
    List.takeWhile_append_of_pos hall]
  rfl

/-! ## Formatted output -/

/-- `%u`, `%lu` and `%llu`. -/
def fmtU (n : Nat) : Text := (Nat.toDigits 10 n).map ch

/-- `%d`, `%ld` and `%lld`. -/
def fmtD (i : Int) : Text := if i < 0 then ch '-' :: fmtU i.natAbs else fmtU i.natAbs

/-- `%x`. -/
def fmtx (n : Nat) : Text := (Nat.toDigits 16 n).map ch

/-- `%X` and `%lX`. -/
def fmtX (n : Nat) : Text := (Nat.toDigits 16 n).map fun c => ch c.toUpper

/-- What `snprintf` leaves in a buffer of `size` bytes: the text, cut so that
the terminator fits. -/
def snprintf (size : Nat) (text : Text) : Text := text.take (size - 1)

end CLib
