-- SUMMARY: Formatted output: hexadecimal numbers of a given width and how they are read back, and texts that snprintf puts together in an array.
import CmdSend.Lib.Numeral
import CmdSend.Lib.Store

/-!
# Formatted output

The formats with a width, and the calls of `snprintf` that put a text together in an
array: each call writes its piece over the terminator of the one before it, so that the
array holds a string after every call, whatever it held at first (`Mem.Builds`).
-/

namespace CLib

/-! ## Formats -/

/-- `%0<width>x`. -/
def fmt0x (width n : Nat) : Text := (fmtx n).leftpad width (ch '0')

/-- `%-<width>s`. -/
def fmtLeft (width : Nat) (s : Text) : Text := s.rightpad width (ch ' ')

/-- `%<width>s`. -/
def fmtRight (width : Nat) (s : Text) : Text := s.leftpad width (ch ' ')

/-- `isprint` in the C locale. -/
def isprint (c : Byte) : Bool := 32 ≤ c.toNat && c.toNat ≤ 126

/-! ## Numbers that are read back -/

theorem digitsValue_append (base acc : Nat) (s t : Text) :
    digitsValue base acc (s ++ t) = (digitsValue base acc s).bind (digitsValue base · t) := by
  induction s generalizing acc with
  | nil => rfl
  | cons c s ih =>
    simp only [List.cons_append, digitsValue]
    cases digitIn base c with
    | none => rfl
    | some d => exact ih _

theorem isSome_digitIn_of_mem {base acc n : Nat} {s : Text} (h : digitsValue base acc s = some n)
    {c : Byte} (hc : c ∈ s) : (digitIn base c).isSome := by
  induction s generalizing acc with
  | nil => cases hc
  | cons d s ih =>
    obtain ⟨v, hv, h⟩ := Option.bind_eq_some_iff.mp h
    cases List.mem_cons.mp hc with
    | inl heq => simp [heq, hv]
    | inr hmem => exact ih h hmem

/-- The digits of a number have its value. -/
theorem digitsValue_toDigits {base : Nat} (hbase : 1 < base)
    (hdigit : ∀ d, d < base → digitIn base (ch d.digitChar) = some d) (n : Nat) :
    digitsValue base 0 ((Nat.toDigits base n).map ch) = some n := by
  induction n using Nat.strongRecOn with
  | ind n ih =>
    by_cases hlt : n < base
    · rw [Nat.toDigits_of_lt_base hlt]
      simp [digitsValue, hdigit n hlt]
    · have hpos : 0 < n := by omega
      rw [Nat.toDigits_of_base_le hbase (Nat.not_lt.mp hlt), List.map_append,
        digitsValue_append, ih (n / base) (Nat.div_lt_self hpos hbase)]
      simp only [Option.bind_some, List.map_cons, List.map_nil, digitsValue,
        hdigit _ (Nat.mod_lt n (Nat.zero_lt_of_lt hbase))]
      exact congrArg some (Nat.div_add_mod' n base)

theorem digitsValue_fmtx (n : Nat) : digitsValue 16 0 (fmtx n) = some n :=
  digitsValue_toDigits (by decide) (by decide) n

theorem digitsValue_fmtU (n : Nat) : digitsValue 10 0 (fmtU n) = some n :=
  digitsValue_toDigits (by decide) (by decide) n

theorem head_fmtU {n : Nat} (h : 0 < n) : ∃ c cs, fmtU n = c :: cs ∧ c ≠ ch '0' := by
  have hdigit : ∀ d, d < 10 → 0 < d → ch d.digitChar ≠ ch '0' := by decide
  induction n using Nat.strongRecOn with
  | ind n ih =>
    by_cases hlt : n < 10
    · exact ⟨_, [], by rw [fmtU, Nat.toDigits_of_lt_base hlt]; rfl, hdigit n hlt h⟩
    · obtain ⟨c, cs, hdiv, hc⟩ := ih (n / 10) (by omega) (by omega)
      refine ⟨c, cs ++ [ch (n % 10).digitChar], ?_, hc⟩
      rw [fmtU, Nat.toDigits_of_base_le (by decide) (Nat.not_lt.mp hlt), List.map_append, ← fmtU,
        hdiv]
      rfl

/-- `%u` prints a rendering. -/
theorem renders_fmtU (n : Nat) : Renders (fmtU n) n := by
  cases n with
  | zero => exact .octal rfl
  | succ n =>
    obtain ⟨c, cs, heq, hc⟩ := head_fmtU (Nat.succ_pos n)
    have hvalue := digitsValue_fmtU (n + 1)
    rw [heq] at hvalue ⊢
    exact .decimal hc hvalue

/-- `%d` prints a rendering. -/
theorem rendersInt_fmtD (i : Int) : RendersInt (fmtD i) i := by
  cases i with
  | ofNat n => exact .nonneg (renders_fmtU n)
  | negSucc n =>
    rw [fmtD, if_pos (Int.negSucc_lt_zero n)]
    exact .neg (renders_fmtU (n + 1))

theorem fmtU_ne_nil (n : Nat) : fmtU n ≠ [] := by simp [fmtU]

theorem fmtD_ne_nil (i : Int) : fmtD i ≠ [] := by
  unfold fmtD
  split
  · exact List.cons_ne_nil _ _
  · exact fmtU_ne_nil _

theorem zero_notMem_fmtU (n : Nat) : 0 ∉ fmtU n := by
  intro h
  have hsome := isSome_digitIn_of_mem (digitsValue_fmtU n) h
  exact absurd hsome (by decide)

theorem zero_notMem_fmtD (i : Int) : 0 ∉ fmtD i := by
  have hminus : (0 : Byte) ≠ ch '-' := by decide
  unfold fmtD
  split
  · exact List.not_mem_cons_of_ne_of_not_mem hminus (zero_notMem_fmtU _)
  · exact zero_notMem_fmtU _

theorem length_fmtU_le {n k : Nat} (hk : 0 < k) (h : n < 10 ^ k) : (fmtU n).length ≤ k := by
  rw [fmtU, List.length_map]
  exact (Nat.length_toDigits_le_iff (by decide) hk).mpr h

theorem length_fmtD_le {i : Int} {k : Nat} (hk : 0 < k) (h : i.natAbs < 10 ^ k) :
    (fmtD i).length ≤ k + 1 := by
  have hlen := length_fmtU_le hk h
  unfold fmtD
  split
  · exact Nat.succ_le_succ hlen
  · exact Nat.le_succ_of_le hlen

/-- `atoi` reads what `%u` prints. -/
theorem atoi_fmtU {n : Nat} (h : n < 2 ^ 31) : atoi (fmtU n) = BitVec.ofNat 32 n := by
  obtain ⟨c, cs, heq, hspace, hminus, hplus⟩ := head_of_renders (renders_fmtU n)
  have hdrop : (fmtU n).dropWhile isspace = fmtU n := by rw [heq]; simp [hspace]
  have hsign : scanSign (fmtU n) = (false, fmtU n) := by
    rw [heq]
    simp [scanSign, hminus, hplus]
  have htake := takeDigits_of_digitsValue (digitsValue_fmtU n)
  unfold atoi strtolDecimal
  rw [hdrop, hsign]
  dsimp only
  rw [htake, if_neg Bool.false_ne_true, if_neg (by omega), if_neg (by omega)]
  apply BitVec.eq_of_toNat_eq
  simp

/-- Zeros in front do not change the number. -/
theorem digitsValue_fmt0x (width n : Nat) : digitsValue 16 0 (fmt0x width n) = some n := by
  have hzeros : ∀ k, digitsValue 16 0 (List.replicate k (ch '0')) = some 0 := by
    intro k
    induction k with
    | zero => rfl
    | succ k ih => exact ih
  rw [fmt0x, List.leftpad, digitsValue_append, hzeros]
  exact digitsValue_fmtx n

theorem length_fmt0x {width n : Nat} (hwidth : 0 < width) (h : n < 16 ^ width) :
    (fmt0x width n).length = width := by
  have hle := (Nat.length_toDigits_le_iff (by decide) hwidth).mpr h
  rw [fmt0x, List.length_leftpad, fmtx, List.length_map]
  omega

/-- A run of digits ends at a character that is not a digit. -/
theorem takeDigits_append {base acc n : Nat} {s : Text} (h : digitsValue base acc s = some n)
    {c : Byte} (hc : digitIn base c = none) (t : Text) :
    takeDigits base acc (s ++ c :: t) = (n, c :: t) := by
  induction s generalizing acc with
  | nil =>
    obtain rfl : acc = n := Option.some.inj h
    simp only [List.nil_append, takeDigits, hc]
  | cons d s ih =>
    obtain ⟨v, hv, h⟩ := Option.bind_eq_some_iff.mp h
    simp only [List.cons_append, takeDigits, hv]
    exact ih h

/-- `0x%0<width>x` is read back in full. -/
theorem scanMagnitude_fmt0x (width n : Nat) {c : Byte} (hc : digitIn 16 c = none) (t : Text) :
    scanMagnitude (str "0x" ++ fmt0x width n ++ c :: t) = some (n, c :: t) := by
  have hvalue := digitsValue_fmt0x width n
  have htake := takeDigits_append hvalue hc t
  cases hdigits : fmt0x width n with
  | nil =>
    have hne : fmtx n ≠ [] := by simp [fmtx]
    simp [fmt0x, List.leftpad, hne] at hdigits
  | cons d ds =>
    rw [hdigits] at hvalue htake
    have hd := isSome_digitIn_of_digitsValue hvalue
    have hx : isHexPrefix (ch 'x') := by decide
    change scanMagnitude (ch '0' :: ch 'x' :: d :: (ds ++ c :: t)) = _
    simp only [scanMagnitude, if_true, hx, hd, and_self]
    exact congrArg some htake

/-! ## Texts in an array -/

/-- `snprintf(&m[off], size, ...)`, for the text that comes out of the format. -/
def Store.snprintf (off size : Nat) (text : Text) : Store :=
  .write off (CLib.snprintf size text ++ [0])

theorem Store.within_snprintf {off size total : Nat} (hsize : 0 < size) (h : off + size ≤ total)
    (text : Text) : (Store.snprintf off size text).Within total := by
  have hlen : (CLib.snprintf size text).length ≤ size - 1 := List.length_take_le ..
  refine Store.within_write ?_
  rw [List.length_append, List.length_singleton]
  omega

/-- The array starts with a text that has been put together in it. Before the first
piece, the array can hold anything. -/
structure Mem.Builds (m : Mem) (s : Text) : Prop where
  text : m.slice 0 s.length = s
  terminator : s ≠ [] → m s.length = 0

theorem Mem.Builds.nil (m : Mem) : m.Builds [] := ⟨rfl, fun h => absurd rfl h⟩

/-- A piece that fits is put behind the text. -/
theorem Mem.Builds.append {m : Mem} {s : Text} (h : m.Builds s) {size : Nat} {t : Text}
    (hfit : t.length < size) :
    ((Store.snprintf s.length size t).apply m).Builds (s ++ t) := by
  have htext : CLib.snprintf size t = t := List.take_of_length_le (by omega)
  have hcopy : (Store.snprintf s.length size t).apply m = m.copy s.length (t ++ [0]) := by
    rw [Store.snprintf, htext]
    rfl
  rw [hcopy]
  refine ⟨?_, fun _ => ?_⟩
  · have happend := m.slice_copy_append s.length (t ++ [0])
    rw [h.text, List.length_append, ← Nat.add_assoc, Mem.slice_add, ← List.append_assoc]
      at happend
    rw [List.length_append]
    exact List.append_inj_left happend (by simp)
  · have hlast : t.length < (t ++ [0]).length := by simp
    rw [List.length_append, Mem.copy_inside hlast]
    simp

/-- The array holds the text that has been put together in it. -/
theorem Mem.Builds.cstr {m : Mem} {s : Text} (h : m.Builds s) (hne : s ≠ []) (hzero : 0 ∉ s)
    {size : Nat} (hsize : s.length < size) : m.cstr size = s := by
  refine Mem.cstr_of_slice ?_ hzero hsize
  rw [Mem.slice_add, h.text, Nat.zero_add]
  simp [Mem.slice, h.terminator hne]

/-- A text that fits is what the array holds after `snprintf`. -/
theorem Mem.cstr_snprintf (m : Mem) {size : Nat} {t : Text} (hne : t ≠ []) (hzero : 0 ∉ t)
    (hfit : t.length < size) : ((Store.snprintf 0 size t).apply m).cstr size = t :=
  ((Mem.Builds.nil m).append hfit).cstr hne hzero hfit

end CLib
