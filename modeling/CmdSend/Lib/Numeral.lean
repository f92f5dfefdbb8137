-- SUMMARY: The numerals that strtoul, strtoull and strtoll read in a C string with base 0.
import CmdSend.Lib.Text

/-!
# Numerals of the C library

`scanNumeral` is the lexical part that the `strto*` functions share for base 0:
white space, an optional sign, a `0x` or `0` prefix that selects the base, and
the longest run of digits. The functions differ in what they do with a
magnitude that does not fit, and in the type they return. A `long` has 64 bits
here, so that `strtoul` is `strtoull`.

The tail pointer of a conversion is the rest of the text, so that `tail == s`
is equality of lists.
-/

namespace CLib

/-- `isspace` in the C locale. -/
def isspace (c : Byte) : Bool :=
  c.toNat = 32 || (9 ≤ c.toNat && c.toNat ≤ 13)

/-- The value of a character as a digit of base `base`. -/
def digitIn (base : Nat) (c : Byte) : Option Nat :=
  let v :=
    if 48 ≤ c.toNat ∧ c.toNat ≤ 57 then c.toNat - 48
    else if 65 ≤ c.toNat ∧ c.toNat ≤ 90 then c.toNat - 55
    else if 97 ≤ c.toNat ∧ c.toNat ≤ 122 then c.toNat - 87
    else base
  if v < base then some v else none

/-- Read the longest run of digits, on top of the value `acc` of the digits
before it. -/
def takeDigits (base : Nat) : Nat → Text → Nat × Text
  | acc, [] => (acc, [])
  | acc, c :: cs =>
    match digitIn base c with
    | some d => takeDigits base (acc * base + d) cs
    | none => (acc, c :: cs)

def isHexPrefix (c : Byte) : Bool := c = ch 'x' || c = ch 'X'

/-- The magnitude of the numeral at the start of a text without sign, and the
rest of the text. A `0x` that no hexadecimal digit follows is the octal numeral
`0`, with the `x` left over. -/
def scanMagnitude (s : Text) : Option (Nat × Text) :=
  match s with
  | [] => none
  | c :: cs =>
    if c = ch '0' then
      match cs with
      | x :: d :: ds =>
        if isHexPrefix x ∧ (digitIn 16 d).isSome then some (takeDigits 16 0 (d :: ds))
        else some (takeDigits 8 0 (c :: cs))
      | _ => some (takeDigits 8 0 (c :: cs))
    else if (digitIn 10 c).isSome then some (takeDigits 10 0 (c :: cs))
    else none

structure Numeral where
  neg : Bool
  magnitude : Nat
  tail : Text
deriving DecidableEq, Repr

/-- The integer that a numeral denotes, of any size. -/
def Numeral.value (n : Numeral) : Int :=
  if n.neg then -n.magnitude else n.magnitude

/-- Split an optional sign off. -/
def scanSign (s : Text) : Bool × Text :=
  match s with
  | [] => (false, [])
  | c :: cs =>
    if c = ch '-' then (true, cs) else if c = ch '+' then (false, cs) else (false, c :: cs)

/-- The numeral at the start of a text, if there is one. -/
def scanNumeral (s : Text) : Option Numeral :=
  let (neg, t) := scanSign (s.dropWhile isspace)
  (scanMagnitude t).map fun (m, tail) => ⟨neg, m, tail⟩

/-- What `errno` holds after a conversion: 0 or `ERANGE`. -/
inductive Errno
  | ok
  | erange
deriving DecidableEq, Repr

/-- The result of a conversion: the value, `*endptr`, and `errno`. -/
structure Conversion (w : Nat) where
  value : BitVec w
  tail : Text
  errno : Errno
deriving DecidableEq, Repr

/-- `strtoull(s, &tail, 0)`. A minus sign negates the value modulo 2^64; a
magnitude of 2^64 or more saturates, whatever the sign. -/
def strtoull (s : Text) : Conversion 64 :=
  match scanNumeral s with
  | none => ⟨0, s, .ok⟩
  | some n =>
    if n.magnitude < 2 ^ 64 then ⟨BitVec.ofInt 64 n.value, n.tail, .ok⟩
    else ⟨BitVec.allOnes 64, n.tail, .erange⟩

/-- `strtoul(s, &tail, 0)`, with a `long` of 64 bits. -/
def strtoul (s : Text) : Conversion 64 := strtoull s

/-- `strtoll(s, &tail, 0)`. -/
def strtoll (s : Text) : Conversion 64 :=
  match scanNumeral s with
  | none => ⟨0, s, .ok⟩
  | some n =>
    if n.value < -2 ^ 63 then ⟨BitVec.intMin 64, n.tail, .erange⟩
    else if 2 ^ 63 ≤ n.value then ⟨BitVec.intMax 64, n.tail, .erange⟩
    else ⟨BitVec.ofInt 64 n.value, n.tail, .ok⟩

/-- `strtol(s, NULL, 10)`, with a `long` of 64 bits. -/
def strtolDecimal (s : Text) : BitVec 64 :=
  let (neg, digits) := scanSign (s.dropWhile isspace)
  let magnitude : Int := (takeDigits 10 0 digits).1
  let value := if neg then -magnitude else magnitude
  if value < -2 ^ 63 then BitVec.intMin 64
  else if 2 ^ 63 ≤ value then BitVec.intMax 64
  else BitVec.ofInt 64 value

/-- `atoi`, which cuts the `long` to an `int`. -/
def atoi (s : Text) : BitVec 32 := (strtolDecimal s).setWidth 32

/-! ## The tail of a conversion -/

theorem length_takeDigits_le (base acc : Nat) (s : Text) :
    (takeDigits base acc s).2.length ≤ s.length := by
  induction s generalizing acc with
  | nil => simp [takeDigits]
  | cons c cs ih =>
    simp only [takeDigits]
    split
    · exact Nat.le_succ_of_le (ih _)
    · exact Nat.le_refl _

/-- A run that starts with a digit consumes it. -/
theorem length_takeDigits_lt {base : Nat} (acc : Nat) {c : Byte} (cs : Text)
    (h : (digitIn base c).isSome) :
    (takeDigits base acc (c :: cs)).2.length < (c :: cs).length := by
  obtain ⟨d, hd⟩ := Option.isSome_iff_exists.mp h
  simp only [takeDigits, hd, List.length_cons]
  exact Nat.lt_succ_of_le (length_takeDigits_le ..)

theorem length_scanMagnitude_lt {s tail : Text} {m : Nat}
    (h : scanMagnitude s = some (m, tail)) : tail.length < s.length := by
  have hzero : (digitIn 8 (ch '0')).isSome := by decide
  cases s with
  | nil => simp [scanMagnitude] at h
  | cons c cs =>
    simp only [scanMagnitude] at h
    split at h
    · rename_i hc
      subst hc
      split at h
      · rename_i x d ds
        split at h
        · rename_i hx
          have := length_takeDigits_lt 0 ds hx.2
          rw [Option.some.inj h] at this
          simp only [List.length_cons] at this ⊢
          omega
        · have := length_takeDigits_lt 0 (x :: d :: ds) hzero
          rwa [Option.some.inj h] at this
      · have := length_takeDigits_lt 0 cs hzero
        rwa [Option.some.inj h] at this
    · split at h
      · rename_i hd
        have := length_takeDigits_lt 0 cs hd
        rwa [Option.some.inj h] at this
      · cases h

theorem length_scanSign_le (s : Text) : (scanSign s).2.length ≤ s.length := by
  cases s with
  | nil => simp [scanSign]
  | cons c cs =>
    simp only [scanSign]
    split
    · simp
    · split <;> simp

/-- A numeral takes at least one character, so that its tail is not the text. -/
theorem scanNumeral_tail_ne {s : Text} {n : Numeral} (h : scanNumeral s = some n) :
    n.tail ≠ s := by
  simp only [scanNumeral, Option.map_eq_some_iff] at h
  obtain ⟨⟨m, tail⟩, hm, rfl⟩ := h
  have h₁ := length_scanMagnitude_lt hm
  have h₂ := length_scanSign_le (s.dropWhile isspace)
  have h₃ := (List.dropWhile_sublist isspace (l := s)).length_le
  intro heq
  have := congrArg List.length heq
  simp only at h₁ h₂ h₃ this
  omega

theorem strtoull_of_none {s : Text} (h : scanNumeral s = none) : strtoull s = ⟨0, s, .ok⟩ := by
  simp only [strtoull, h]

theorem strtoll_of_none {s : Text} (h : scanNumeral s = none) : strtoll s = ⟨0, s, .ok⟩ := by
  simp only [strtoll, h]

theorem strtoull_tail {s : Text} {n : Numeral} (h : scanNumeral s = some n) :
    (strtoull s).tail = n.tail := by
  simp only [strtoull, h]
  split <;> rfl

theorem strtoll_tail {s : Text} {n : Numeral} (h : scanNumeral s = some n) :
    (strtoll s).tail = n.tail := by
  simp only [strtoll, h]
  split
  · rfl
  · split <;> rfl

/-! ## Values in range -/

theorem strtoull_of_value {s : Text} {n : Numeral} (h : scanNumeral s = some n)
    (hlo : 0 ≤ n.value) (hhi : n.value < 2 ^ 64) :
    strtoull s = ⟨BitVec.ofInt 64 n.value, n.tail, .ok⟩ := by
  have hmag : n.magnitude < 2 ^ 64 := by
    unfold Numeral.value at hlo hhi
    cases hneg : n.neg with
    | false =>
      simp only [hneg, Bool.false_eq_true, if_false] at hhi
      omega
    | true =>
      simp only [hneg, if_true] at hlo
      omega
  simp only [strtoull, h, if_pos hmag]

theorem strtoll_of_value {s : Text} {n : Numeral} (h : scanNumeral s = some n)
    (hlo : -2 ^ 63 ≤ n.value) (hhi : n.value < 2 ^ 63) :
    strtoll s = ⟨BitVec.ofInt 64 n.value, n.tail, .ok⟩ := by
  simp only [strtoll, h]
  rw [if_neg (by omega), if_neg (by omega)]

/-! ## Renderings -/

/-- The value of a text that consists of digits of base `base`. -/
def digitsValue (base acc : Nat) : Text → Option Nat
  | [] => some acc
  | c :: cs => (digitIn base c).bind fun d => digitsValue base (acc * base + d) cs

/-- `Renders s n`: the text is a plain decimal, `0`-octal or `0x`-hexadecimal
rendering of the number `n`. The number zero in decimal is `0`, which is the
octal case without further digits. -/
inductive Renders : Text → Nat → Prop
  | decimal {c cs n} : c ≠ ch '0' → digitsValue 10 0 (c :: cs) = some n → Renders (c :: cs) n
  | octal {cs n} : digitsValue 8 0 cs = some n → Renders (ch '0' :: cs) n
  | hexadecimal {x c cs n} : isHexPrefix x → digitsValue 16 0 (c :: cs) = some n →
      Renders (ch '0' :: x :: c :: cs) n

/-- A rendering of an integer: a negative one has a minus sign in front. -/
inductive RendersInt : Text → Int → Prop
  | nonneg {s n} : Renders s n → RendersInt s n
  | neg {s n} : Renders s n → RendersInt (ch '-' :: s) (-n)

theorem takeDigits_of_digitsValue {base acc n : Nat} {s : Text}
    (h : digitsValue base acc s = some n) : takeDigits base acc s = (n, []) := by
  induction s generalizing acc with
  | nil => simpa [takeDigits, digitsValue] using h
  | cons c cs ih =>
    simp only [digitsValue, Option.bind_eq_some_iff] at h
    obtain ⟨d, hd, h⟩ := h
    simp only [takeDigits, hd]
    exact ih h

theorem isSome_digitIn_of_digitsValue {base acc n : Nat} {c : Byte} {cs : Text}
    (h : digitsValue base acc (c :: cs) = some n) : (digitIn base c).isSome := by
  simp only [digitsValue, Option.bind_eq_some_iff] at h
  obtain ⟨d, hd, -⟩ := h
  simp [hd]

theorem scanMagnitude_of_renders {s : Text} {n : Nat} (h : Renders s n) :
    scanMagnitude s = some (n, []) := by
  cases h with
  | decimal hc hv =>
    have hd := isSome_digitIn_of_digitsValue hv
    simp only [scanMagnitude, if_neg hc, hd, if_true, takeDigits_of_digitsValue hv]
  | @octal cs n hv =>
    have hz : digitIn 8 (ch '0') = some 0 := by decide
    have htake : takeDigits 8 0 (ch '0' :: cs) = (n, []) := by
      simp only [takeDigits, hz]
      exact takeDigits_of_digitsValue hv
    have hx : ∀ x, isHexPrefix x → digitIn 8 x = none := by decide
    simp only [scanMagnitude, if_true]
    split
    · rename_i x d ds
      have hno : ¬(isHexPrefix x ∧ (digitIn 16 d).isSome) := by
        rintro ⟨hpre, -⟩
        have := isSome_digitIn_of_digitsValue hv
        simp [hx x hpre] at this
      simp only [if_neg hno, htake]
    · rw [htake]
  | hexadecimal hx hv =>
    have hd := isSome_digitIn_of_digitsValue hv
    simp only [scanMagnitude, if_true, hx, hd, and_self, takeDigits_of_digitsValue hv]

/-- A rendering starts with a digit, so neither with white space nor a sign. -/
theorem head_of_renders {s : Text} {n : Nat} (h : Renders s n) :
    ∃ c cs, s = c :: cs ∧ isspace c = false ∧ c ≠ ch '-' ∧ c ≠ ch '+' := by
  have hdigit : ∀ c : Byte, (digitIn 10 c).isSome →
      isspace c = false ∧ c ≠ ch '-' ∧ c ≠ ch '+' := by decide
  cases h with
  | decimal _ hv => exact ⟨_, _, rfl, hdigit _ (isSome_digitIn_of_digitsValue hv)⟩
  | octal _ => exact ⟨_, _, rfl, hdigit _ (by decide)⟩
  | hexadecimal _ _ => exact ⟨_, _, rfl, hdigit _ (by decide)⟩

/-- A rendering of an integer is read back as that integer, in full. -/
theorem scanNumeral_of_rendersInt {s : Text} {v : Int} (h : RendersInt s v) :
    ∃ n, scanNumeral s = some n ∧ n.value = v ∧ n.tail = [] := by
  cases h with
  | @nonneg _ n hr =>
    obtain ⟨c, cs, rfl, hsp, hminus, hplus⟩ := head_of_renders hr
    refine ⟨⟨false, n, []⟩, ?_, rfl, rfl⟩
    simp [scanNumeral, hsp, scanSign, hminus, hplus,
      scanMagnitude_of_renders hr]
  | @neg s n hr =>
    have hsp : isspace (ch '-') = false := by decide
    refine ⟨⟨true, n, []⟩, ?_, rfl, rfl⟩
    simp [scanNumeral, hsp, scanSign, scanMagnitude_of_renders hr]

/-- `strtoull` takes negative numbers modulo 2^64. -/
theorem strtoull_of_rendersInt {s : Text} {v : Int} (h : RendersInt s v)
    (hv : v.natAbs < 2 ^ 64) : strtoull s = ⟨BitVec.ofInt 64 v, [], .ok⟩ := by
  obtain ⟨n, hscan, rfl, htail⟩ := scanNumeral_of_rendersInt h
  have hmag : n.magnitude < 2 ^ 64 := by
    unfold Numeral.value at hv
    split at hv <;> omega
  simp only [strtoull, hscan, if_pos hmag, htail]

example : strtoull (str " -0x1Fg") = ⟨-31, str "g", .ok⟩ := by decide

end CLib
