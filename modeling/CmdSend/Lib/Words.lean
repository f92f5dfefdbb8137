-- SUMMARY: Words of sixteen bits and their two bytes, sequences of big-endian words, and the exclusive-or check byte.
import CmdSend.Lib.ByteOrder
import CmdSend.Lib.BitField

/-!
# Big-endian words

A header is a sequence of 16-bit words in big-endian layout. This module relates
the words to the bytes: `decodeWord` finds a word again at twice its index, and
`checkByte` is the exclusive or of all bytes of a sequence.
-/

namespace CLib

/-! ## The two bytes of a word -/

theorem bytes_big16 (x : BitVec 16) :
    ByteOrder.big.bytes x = [BitField.read ⟨8, 8⟩ x, BitField.read ⟨0, 8⟩ x] := by
  have hhigh : BitVec.ofNat 8 (x.toNat / 256) = BitField.read ⟨8, 8⟩ x := by
    apply BitVec.eq_of_toNat_eq
    simp [BitField.read, Nat.shiftRight_eq_div_pow]
  have hlow : BitVec.ofNat 8 x.toNat = BitField.read ⟨0, 8⟩ x := by
    apply BitVec.eq_of_toNat_eq
    simp [BitField.read]
  rw [← hhigh, ← hlow]
  rfl

theorem read_bswap16 (x : BitVec 16) :
    BitField.read ⟨8, 8⟩ (bswap x) = BitField.read ⟨0, 8⟩ x ∧
      BitField.read ⟨0, 8⟩ (bswap x) = BitField.read ⟨8, 8⟩ x := by
  have h := bytes_bswap (by decide) .big x
  simpa [bytes_big16] using h

theorem bswap_or16 (x y : BitVec 16) : bswap (x ||| y) = bswap x ||| bswap y := by
  obtain ⟨hx₁, hx₀⟩ := read_bswap16 x
  obtain ⟨hy₁, hy₀⟩ := read_bswap16 y
  obtain ⟨h₁, h₀⟩ := read_bswap16 (x ||| y)
  apply ByteOrder.bytes_injective .big (by decide)
  rw [bytes_big16, bytes_big16, h₁, h₀]
  simp only [BitField.read_or, hx₁, hx₀, hy₁, hy₀]

/-- An OR with a converted constant is an OR of the values. -/
theorem betoh_or_htobe16 (host : ByteOrder) (x y : BitVec 16) :
    betoh host (x ||| htobe host y) = betoh host x ||| y := by
  cases host with
  | big => rfl
  | little =>
    have h := bswap_or16 x (bswap y)
    rw [bswap_bswap (by decide)] at h
    exact h

/-- The representation of a word in big-endian layout, on every host. -/
theorem bytes_eq_big_betoh (host : ByteOrder) (x : BitVec 16) :
    host.bytes x = ByteOrder.big.bytes (betoh host x) := by
  have h := bytes_convert (by decide) host .big (betoh host x)
  rwa [show convert host .big (betoh host x) = x from htobe_betoh16 host x] at h

/-! ## Sequences of words -/

/-- The big-endian word at a position of a sequence of bytes. -/
def decodeWord (bs : List Byte) (off : Nat) : BitVec 16 :=
  BitVec.ofNat 16 (ByteOrder.big.decode ((bs.drop off).take 2))

section

variable {α : Type} (g : α → BitVec 16)

theorem length_flatMap_bytes (ws : List α) :
    (ws.flatMap fun w => ByteOrder.big.bytes (g w)).length = 2 * ws.length := by
  induction ws with
  | nil => rfl
  | cons w ws ih =>
    rw [List.flatMap_cons, List.length_append, ih, ByteOrder.length_bytes, List.length_cons]
    omega

/-- The word with index `i` starts at byte `2 * i`. -/
theorem decodeWord_flatMap {ws : List α} {i : Nat} {w : α} (h : ws[i]? = some w)
    (rest : List Byte) :
    decodeWord ((ws.flatMap fun w => ByteOrder.big.bytes (g w)) ++ rest) (2 * i) = g w := by
  induction ws generalizing i with
  | nil => cases h
  | cons w' ws ih =>
    rw [List.flatMap_cons, List.append_assoc]
    cases i with
    | zero =>
      obtain rfl := Option.some.inj h
      have hlen : (ByteOrder.big.bytes (g w')).length = 2 := ByteOrder.length_bytes ..
      rw [decodeWord, Nat.mul_zero, List.drop_zero, List.take_left' hlen,
        ByteOrder.decode_bytes _ (by decide), BitVec.ofNat_toNat, BitVec.setWidth_eq]
    | succ i =>
      have hlen : (ByteOrder.big.bytes (g w')).length = 2 := ByteOrder.length_bytes ..
      have hoff : 2 * (i + 1) = 2 + 2 * i := by omega
      rw [decodeWord, hoff, ← List.drop_drop, List.drop_left' hlen]
      exact ih h

end

/-! ## The check byte -/

/-- The exclusive or of a start value and all bytes. -/
def checkByte (start : Byte) (bs : List Byte) : Byte := bs.foldl (· ^^^ ·) start

@[simp] theorem checkByte_nil (start : Byte) : checkByte start [] = start := rfl

theorem checkByte_append (start : Byte) (bs bs' : List Byte) :
    checkByte start (bs ++ bs') = checkByte (checkByte start bs) bs' := List.foldl_append

/-- A sequence whose last byte is the check byte of the sequence with a zero in
that place has the check byte zero. -/
theorem checkByte_closed (start : Byte) (bs : List Byte) :
    checkByte start (bs ++ [checkByte start (bs ++ [0])]) = 0 := by
  have hzero : checkByte start (bs ++ [0]) = checkByte start bs := by
    rw [checkByte_append]
    exact BitVec.xor_zero
  rw [hzero, checkByte_append]
  exact BitVec.xor_self

end CLib
