-- SUMMARY: Fixed-width integers as bytes in a given byte order, the host's conversions between orders, and their round trips.
import CmdSend.Lib.Memory
import Mathlib.Data.Nat.Digits.Lemmas

/-!
# Byte orders

An integer of `n` bytes has two layouts. `ByteOrder.encode` and
`ByteOrder.decode` go between a number and its bytes in a given order.
`ByteOrder.bytes` is the object representation of a machine integer on a host
of that order, and `htobe` and `htole` are the conversions of `<endian.h>`:
they change the integer so that its representation is in the named order.
-/

namespace CLib

inductive ByteOrder
  | big
  | little
deriving DecidableEq, Repr

/-- The `n` low bytes of `v`, least significant first. -/
def leBytes : Nat → Nat → List Byte
  | 0, _ => []
  | n + 1, v => BitVec.ofNat 8 v :: leBytes n (v / 256)

/-- The number that bytes denote, least significant first. -/
def leValue (bs : List Byte) : Nat :=
  Nat.ofDigits 256 (bs.map BitVec.toNat)

@[simp] theorem leValue_nil : leValue [] = 0 := rfl

@[simp] theorem leValue_cons (b : Byte) (bs : List Byte) :
    leValue (b :: bs) = b.toNat + 256 * leValue bs := by
  simp [leValue, Nat.ofDigits_cons]

@[simp] theorem length_leBytes (n v : Nat) : (leBytes n v).length = n := by
  induction n generalizing v with
  | zero => rfl
  | succ n ih => simp [leBytes, ih]

theorem leValue_lt (bs : List Byte) : leValue bs < 256 ^ bs.length := by
  have h := Nat.ofDigits_lt_base_pow_length' (b := 254) (l := bs.map BitVec.toNat) (by
    intro x hx
    obtain ⟨b, -, rfl⟩ := List.mem_map.mp hx
    exact b.isLt)
  simpa [leValue] using h

theorem leValue_leBytes (n v : Nat) : leValue (leBytes n v) = v % 256 ^ n := by
  induction n generalizing v with
  | zero => simp [leBytes, Nat.mod_one]
  | succ n ih =>
    have hpow : 256 ^ (n + 1) = 256 * 256 ^ n := Nat.pow_succ'
    simp only [leBytes, leValue_cons, ih, BitVec.toNat_ofNat]
    rw [hpow, Nat.mod_mul]

theorem leBytes_leValue (bs : List Byte) : leBytes bs.length (leValue bs) = bs := by
  induction bs with
  | nil => rfl
  | cons b bs ih =>
    have hb : b.toNat < 256 := b.isLt
    have hdiv : (b.toNat + 256 * leValue bs) / 256 = leValue bs := by omega
    have hmod : BitVec.ofNat 8 (b.toNat + 256 * leValue bs) = b := by
      apply BitVec.eq_of_toNat_eq
      rw [BitVec.toNat_ofNat]
      omega
    simp only [List.length_cons, leValue_cons, leBytes, hdiv, hmod, ih]

namespace ByteOrder

/-- The `n` low bytes of `v` in the given order. -/
def encode : ByteOrder → Nat → Nat → List Byte
  | .little, n, v => leBytes n v
  | .big, n, v => (leBytes n v).reverse

/-- The number that bytes denote in the given order. -/
def decode : ByteOrder → List Byte → Nat
  | .little, bs => leValue bs
  | .big, bs => leValue bs.reverse

/-- The signed number that bytes denote in the given order, in two's
complement. -/
def decodeSigned (o : ByteOrder) (bs : List Byte) : Int :=
  (BitVec.ofNat (8 * bs.length) (o.decode bs)).toInt

@[simp] theorem length_encode (o : ByteOrder) (n v : Nat) : (o.encode n v).length = n := by
  cases o <;> simp [encode]

theorem decode_encode (o : ByteOrder) (n v : Nat) : o.decode (o.encode n v) = v % 256 ^ n := by
  cases o <;> simp [encode, decode, leValue_leBytes]

/-- The object representation of a machine integer on a host of this order. -/
def bytes (o : ByteOrder) {w : Nat} (x : BitVec w) : List Byte :=
  o.encode (w / 8) x.toNat

@[simp] theorem length_bytes (o : ByteOrder) {w : Nat} (x : BitVec w) :
    (o.bytes x).length = w / 8 := length_encode ..

private theorem pow_width {w : Nat} (hw : 8 ∣ w) : 256 ^ (w / 8) = 2 ^ w := by
  obtain ⟨n, rfl⟩ := hw
  rw [Nat.mul_div_cancel_left _ (by decide), Nat.pow_mul]

theorem decode_bytes (o : ByteOrder) {w : Nat} (hw : 8 ∣ w) (x : BitVec w) :
    o.decode (o.bytes x) = x.toNat := by
  rw [bytes, decode_encode, pow_width hw, Nat.mod_eq_of_lt x.isLt]

theorem decodeSigned_bytes (o : ByteOrder) {w : Nat} (hw : 8 ∣ w) (x : BitVec w) :
    o.decodeSigned (o.bytes x) = x.toInt := by
  have hlen : 8 * (o.bytes x).length = w := by
    rw [length_bytes, Nat.mul_div_cancel' hw]
  simp only [decodeSigned, decode_bytes o hw]
  rw [hlen, BitVec.ofNat_toNat, BitVec.setWidth_eq]

theorem bytes_injective (o : ByteOrder) {w : Nat} (hw : 8 ∣ w) {x y : BitVec w}
    (h : o.bytes x = o.bytes y) : x = y := by
  apply BitVec.eq_of_toNat_eq
  rw [← decode_bytes o hw x, ← decode_bytes o hw y, h]

/-- The two layouts are mirror images. -/
theorem bytes_big {w : Nat} (x : BitVec w) :
    ByteOrder.big.bytes x = (ByteOrder.little.bytes x).reverse := rfl

end ByteOrder

/-! ## Conversions of the host -/

/-- The integer with the bytes of `x` in the opposite order. -/
def bswap {w : Nat} (x : BitVec w) : BitVec w :=
  BitVec.ofNat w (ByteOrder.big.decode (ByteOrder.little.bytes x))

/-- The integer whose representation on `host` is the one of `x` in `target`. -/
def convert (host target : ByteOrder) {w : Nat} (x : BitVec w) : BitVec w :=
  if host = target then x else bswap x

/-- `htobe16`, `htobe32` and `htobe64`. -/
def htobe (host : ByteOrder) {w : Nat} (x : BitVec w) : BitVec w := convert host .big x

/-- `htole16`, `htole32` and `htole64`. -/
def htole (host : ByteOrder) {w : Nat} (x : BitVec w) : BitVec w := convert host .little x

/-- `be16toh`. -/
def betoh (host : ByteOrder) {w : Nat} (x : BitVec w) : BitVec w := convert host .big x

section

variable {w : Nat} (hw : 8 ∣ w)
include hw

theorem bytes_bswap (o : ByteOrder) (x : BitVec w) :
    o.bytes (bswap x) = (o.bytes x).reverse := by
  have hlen : (ByteOrder.little.bytes x).reverse.length = w / 8 := by simp
  have hlt : ByteOrder.big.decode (ByteOrder.little.bytes x) < 2 ^ w := by
    have h := leValue_lt (ByteOrder.little.bytes x).reverse
    rwa [hlen, ByteOrder.pow_width hw] at h
  have hle : ByteOrder.little.bytes (bswap x) = (ByteOrder.little.bytes x).reverse := by
    have h := leBytes_leValue (ByteOrder.little.bytes x).reverse
    rw [hlen] at h
    rw [ByteOrder.bytes, bswap, BitVec.toNat_ofNat, Nat.mod_eq_of_lt hlt]
    exact h
  cases o with
  | little => exact hle
  | big => rw [ByteOrder.bytes_big, hle, ByteOrder.bytes_big]

theorem bswap_bswap (x : BitVec w) : bswap (bswap x) = x := by
  apply ByteOrder.bytes_injective .little hw
  rw [bytes_bswap hw, bytes_bswap hw, List.reverse_reverse]

/-- A converted integer is laid out in the order it was converted to, on every
host. -/
theorem bytes_convert (host target : ByteOrder) (x : BitVec w) :
    host.bytes (convert host target x) = target.bytes x := by
  by_cases h : host = target
  · simp [convert, h]
  · rw [convert, if_neg h, bytes_bswap hw]
    cases host <;> cases target <;> simp_all [ByteOrder.bytes_big]

theorem convert_convert (host target : ByteOrder) (x : BitVec w) :
    convert host target (convert host target x) = x := by
  by_cases h : host = target
  · simp [convert, h]
  · simp [convert, h, bswap_bswap hw]

end

@[simp] theorem betoh_htobe16 (host : ByteOrder) (x : BitVec 16) :
    betoh host (htobe host x) = x := convert_convert (by decide) host .big x

@[simp] theorem htobe_betoh16 (host : ByteOrder) (x : BitVec 16) :
    htobe host (betoh host x) = x := convert_convert (by decide) host .big x

end CLib
