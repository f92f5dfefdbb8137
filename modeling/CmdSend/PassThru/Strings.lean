-- SUMMARY: The --string option: when its text is accepted, and when it appends a string of the length that it announces.
import CmdSend.PassThru.Payload

/-!
# Strings of a fixed length

A text `N:s` announces a length and gives a string. The length goes through
`strtoull`, which wraps a negative numeral and saturates, and then through an
`unsigned int`. The option is exact while neither changes the number, and the
failures are the texts whose number comes out of the two small enough to pass.
-/

namespace CmdSend.PassThru

open CLib

/-! ## The text -/

/-- The length and the string of a text `N:s`. The length is the integer that the
numeral denotes, of any size and sign. -/
def splitString (text : Text) : Option (Int × Text) :=
  match scanNumeral text with
  | none => none
  | some n =>
    match n.tail with
    | [] => none
    | c :: s => if c = ch ':' then some (n.value, s) else none

/-- The parser looks at the string of the text and at the length as `strtoull`
returns it. -/
theorem stringParts_eq_some_iff {text s : Text} {n : Nat} :
    stringParts text = some (s, n) ↔
      ∃ N, splitString text = some (N, s) ∧ n = (strtoull text).value.toNat ∧ n ≠ 0 ∧
        s.length ≤ n := by
  unfold stringParts splitString
  cases hscan : scanNumeral text with
  | none =>
    rw [strtoull_of_none hscan]
    cases text <;> simp
  | some num =>
    simp only [strtoull_tail hscan]
    cases num.tail with
    | nil => simp
    | cons c tail =>
      by_cases hc : c = ch ':'
      · simp only [hc, true_and, if_true]
        constructor
        · intro h
          split at h
          · rename_i hform
            obtain ⟨rfl, rfl⟩ := Prod.mk.inj (Option.some.inj h)
            exact ⟨_, rfl, rfl, hform⟩
          · cases h
        · rintro ⟨N, h, rfl, hform⟩
          obtain ⟨-, rfl⟩ := Prod.mk.inj (Option.some.inj h)
          rw [if_pos hform]
      · simp [hc]

/-! ## The verdict -/

section

variable {cmd : CommandData}

theorem accepted_copyData_iff {src : List Byte} {nbytes : BitVec 32} :
    (cmd.copyData src nbytes).retcode = .accepted ↔ cmd.HasRoom nbytes := by
  by_cases hroom : cmd.HasRoom nbytes
  · rw [copyData_of_hasRoom cmd hroom]
    exact iff_of_true rfl hroom
  · obtain ⟨error, hrej⟩ := copyData_of_not_hasRoom cmd hroom src
    rw [hrej]
    exact iff_of_false OptParse.noConfusion hroom

theorem accepted_padData_iff {val : Byte} {nbytes : BitVec 32} :
    (cmd.padData val nbytes).retcode = .accepted ↔ cmd.HasRoom nbytes := by
  by_cases hroom : cmd.HasRoom nbytes
  · rw [padData_of_hasRoom cmd hroom]
    exact iff_of_true rfl hroom
  · obtain ⟨error, hrej⟩ := padData_of_not_hasRoom cmd hroom val
    rw [hrej]
    exact iff_of_false OptParse.noConfusion hroom

/-- The length of a string and that of its padding, in 32 bits, add up to the
length of both. -/
theorem payloadBytes_add_pad (cmd : CommandData) {k n : Nat} (h : k ≤ n) :
    cmd.payloadBytes + BitVec.ofNat 32 k + BitVec.ofNat 32 (n - k) =
      cmd.payloadBytes + BitVec.ofNat 32 n := by
  rw [BitVec.add_assoc, ← BitVec.ofNat_add, Nat.add_sub_cancel' h]

/-- A string is accepted when its own length and the announced one both pass the
check of `copyData`. -/
theorem accepted_copyAndPad_iff {s : Text} {n : Nat} (hle : s.length ≤ n) :
    (cmd.copyAndPad s n).retcode = .accepted ↔
      cmd.HasRoom (BitVec.ofNat 32 s.length) ∧ cmd.HasRoom (BitVec.ofNat 32 n) := by
  by_cases hroom : cmd.HasRoom (BitVec.ofNat 32 s.length)
  · rw [iff_true_intro hroom, true_and]
    by_cases hlen : s.length = n
    · rw [copyAndPad_of_length_eq hlen, accepted_copyData_iff, hlen]
    · rw [copyAndPad_of_hasRoom hlen hroom]
      refine accepted_padData_iff.trans ?_
      unfold CommandData.HasRoom
      -- the padding is checked against the announced length, in 32 bits
      change (cmd.payloadBytes + BitVec.ofNat 32 s.length + _).toNat ≤ _ ↔ _
      rw [payloadBytes_add_pad cmd hle]
  · rw [copyAndPad_of_not_hasRoom n hroom, accepted_copyData_iff]
    exact iff_of_false hroom fun h => hroom h.1

/-- A string that is not rejected moves the end of the payload by the announced
length, in 32 bits. -/
theorem payloadBytes_copyAndPad {s : Text} {n : Nat} (hle : s.length ≤ n)
    (h : (cmd.copyAndPad s n).retcode ≠ .invalid) :
    (cmd.copyAndPad s n).cmd.payloadBytes = cmd.payloadBytes + BitVec.ofNat 32 n := by
  by_cases hroom : cmd.HasRoom (BitVec.ofNat 32 s.length)
  · by_cases hlen : s.length = n
    · rw [copyAndPad_of_length_eq hlen, copyData_of_hasRoom cmd hroom, hlen]
      rfl
    · rw [copyAndPad_of_hasRoom hlen hroom] at h ⊢
      by_cases hpad : (cmd.appended (s.take (BitVec.ofNat 32 s.length).toNat)
          (BitVec.ofNat 32 s.length)).cmd.HasRoom (BitVec.ofNat 32 (n - s.length))
      · simp only [padData_of_hasRoom _ hpad]
        exact payloadBytes_add_pad cmd hle
      · obtain ⟨error, hrej⟩ := padData_of_not_hasRoom _ hpad 0
        simp only [hrej] at h
        exact absurd rfl h
  · obtain ⟨error, hrej⟩ := copyData_of_not_hasRoom cmd hroom s
    rw [copyAndPad_of_not_hasRoom n hroom, hrej] at h
    exact absurd rfl h

/-- The verdict of the option. -/
theorem accepted_string_iff (host : Host) {text : Text} :
    (parseOption host cmd ⟨.string, text⟩).retcode = .accepted ↔
      ∃ N s, splitString text = some (N, s) ∧ (strtoull text).value.toNat ≠ 0 ∧
        s.length ≤ (strtoull text).value.toNat ∧ cmd.HasRoom (BitVec.ofNat 32 s.length) ∧
        cmd.HasRoom (BitVec.ofNat 32 (strtoull text).value.toNat) := by
  change (cmd.stringPayload text).retcode = .accepted ↔ _
  cases hparts : stringParts text with
  | none =>
    obtain ⟨error, hrej⟩ := stringPayload_of_none cmd hparts
    rw [hrej]
    refine iff_of_false OptParse.noConfusion ?_
    rintro ⟨N, s, hsplit, hne, hle, -⟩
    rw [stringParts_eq_some_iff.mpr ⟨N, hsplit, rfl, hne, hle⟩] at hparts
    cases hparts
  | some parts =>
    obtain ⟨s, n⟩ := parts
    rw [stringPayload_of_some cmd hparts]
    obtain ⟨N, hsplit, rfl, hne, hle⟩ := stringParts_eq_some_iff.mp hparts
    rw [accepted_copyAndPad_iff hle]
    constructor
    · exact fun hroom => ⟨N, s, hsplit, hne, hle, hroom⟩
    · rintro ⟨N', s', hsplit', -, -, hroom⟩
      obtain ⟨-, rfl⟩ := Prod.mk.inj (Option.some.inj (hsplit.symm.trans hsplit'))
      exact hroom

end

/-! ## Exactness -/

/-- The text is `N:s` with a length that is positive, that the string does not
exceed, and that fits behind the payload. -/
def StringFits (cmd : CommandData) (text : Text) : Prop :=
  ∃ N s, splitString text = some (N, s) ∧ 1 ≤ N ∧ (s.length : Int) ≤ N ∧
    cmd.payloadBytes.toNat + N ≤ maxPacketSize

/-- What `--string` is meant to do with a text. -/
structure ExactString (host : Host) (cmd : CommandData) (text : Text) : Prop where
  accepted_iff : (parseOption host cmd ⟨.string, text⟩).retcode = .accepted ↔ StringFits cmd text
  /-- An accepted text appends its string, and zeros up to the announced length. -/
  appended : (parseOption host cmd ⟨.string, text⟩).retcode = .accepted →
    ∀ N s, splitString text = some (N, s) →
      let cmd' := (parseOption host cmd ⟨.string, text⟩).cmd
      (cmd'.payloadBytes.toNat : Int) = cmd.payloadBytes.toNat + N ∧
        cmd'.payload.slice cmd.payloadBytes.toNat N.toNat =
          s ++ List.replicate (N.toNat - s.length) 0 ∧
        cmd'.payload.slice 0 cmd.payloadBytes.toNat = cmd.payload.slice 0 cmd.payloadBytes.toNat

/-- The announced length is negative, or ends the payload beyond 32 bits, and what
`strtoull` and then an `unsigned int` make of it passes all the checks. -/
def LengthWraps (cmd : CommandData) (text : Text) : Prop :=
  ∃ N s, splitString text = some (N, s) ∧ (N < 0 ∨ 2 ^ 32 ≤ cmd.payloadBytes.toNat + N) ∧
    (strtoull text).value.toNat ≠ 0 ∧ s.length ≤ (strtoull text).value.toNat ∧
    cmd.HasRoom (BitVec.ofNat 32 s.length) ∧
    cmd.HasRoom (BitVec.ofNat 32 (strtoull text).value.toNat)

section

variable {cmd : CommandData} {text : Text}

/-- A length in the range of 64 bits is the one that `strtoull` returns. -/
theorem strtoull_of_splitString {N : Int} {s : Text} (h : splitString text = some (N, s))
    (hlo : 0 ≤ N) (hhi : N < 2 ^ 64) : ((strtoull text).value.toNat : Int) = N := by
  unfold splitString at h
  cases hscan : scanNumeral text with
  | none =>
    rw [hscan] at h
    cases h
  | some num =>
    have hN : num.value = N := by
      rw [hscan] at h
      dsimp only at h
      split at h
      · cases h
      · split at h
        · exact (Prod.mk.inj (Option.some.inj h)).1
        · cases h
    rw [strtoull_of_value hscan (hN ▸ hlo) (hN ▸ hhi), hN]
    exact toNat_ofInt_of_range hlo hhi

/-- A text that fits is accepted, and appends its string. -/
theorem append_of_stringFits (host : Host) {N : Int} {s : Text}
    (h : splitString text = some (N, s)) (hpos : 1 ≤ N) (hle : (s.length : Int) ≤ N)
    (hfits : cmd.payloadBytes.toNat + N ≤ maxPacketSize) :
    (parseOption host cmd ⟨.string, text⟩).retcode = .accepted ∧
      (parseOption host cmd ⟨.string, text⟩).cmd =
        cmd.append (s ++ List.replicate (N.toNat - s.length) 0) := by
  have hmax : maxPacketSize = 2048 := rfl
  have hvalue := strtoull_of_splitString h (by omega) (by omega)
  have hparts : stringParts text = some (s, N.toNat) :=
    stringParts_eq_some_iff.mpr ⟨N, h, by omega, by omega, by omega⟩
  have hchunk : chunk host cmd.order ⟨.string, text⟩ =
      some (s ++ List.replicate (N.toNat - s.length) 0) := by
    simp only [chunk, kind, hparts, Option.map_some]
  refine parseOption_of_chunk hchunk ?_
  unfold CommandData.Fits
  rw [List.length_append, List.length_replicate]
  omega

/-- The option is exact for every text but those whose length wraps. -/
theorem exactString_iff (host : Host) (h : cmd.InBounds) :
    ExactString host cmd text ↔ ¬LengthWraps cmd text := by
  have hmax : maxPacketSize = 2048 := rfl
  unfold CommandData.InBounds at h
  constructor
  · rintro ⟨haccepted, -⟩ ⟨N, s, hsplit, hwrap, hrest⟩
    obtain ⟨N', s', hsplit', hpos, -, hfits⟩ :=
      haccepted.mp ((accepted_string_iff host).mpr ⟨N, s, hsplit, hrest⟩)
    obtain ⟨rfl, -⟩ := Prod.mk.inj (Option.some.inj (hsplit.symm.trans hsplit'))
    omega
  · intro hno
    have hfits : (parseOption host cmd ⟨.string, text⟩).retcode = .accepted →
        StringFits cmd text := by
      intro hret
      obtain ⟨N, s, hsplit, hne, hle, hroom⟩ := (accepted_string_iff host).mp hret
      -- without a wrap the three numbers of the length are the same, and so are the sums
      have hnowrap : ¬(N < 0 ∨ 2 ^ 32 ≤ cmd.payloadBytes.toNat + N) :=
        fun hwrap => hno ⟨N, s, hsplit, hwrap, hne, hle, hroom⟩
      have hvalue := strtoull_of_splitString hsplit (by omega) (by omega)
      have hsum := hroom.2
      unfold CommandData.HasRoom at hsum
      rw [toNat_sum, BitVec.toNat_ofNat] at hsum
      exact ⟨N, s, hsplit, by omega, by omega, by omega⟩
    refine ⟨⟨hfits, ?_⟩, ?_⟩
    · rintro ⟨N, s, hsplit, hpos, hle, hroom⟩
      exact (append_of_stringFits host hsplit hpos hle hroom).1
    · intro hret N s hsplit
      obtain ⟨N', s', hsplit', hpos, hle, hroom⟩ := hfits hret
      obtain ⟨rfl, rfl⟩ := Prod.mk.inj (Option.some.inj (hsplit.symm.trans hsplit'))
      have hlen : (s ++ List.replicate (N.toNat - s.length) (0 : Byte)).length = N.toNat := by
        rw [List.length_append, List.length_replicate]
        omega
      rw [(append_of_stringFits host hsplit hpos hle hroom).2]
      refine ⟨?_, ?_, ?_⟩
      · rw [toNat_payloadBytes_append (by unfold CommandData.Fits; omega), hlen]
        omega
      · have hslice := Mem.slice_copy_same cmd.payload cmd.payloadBytes.toNat
          (s ++ List.replicate (N.toNat - s.length) 0)
        rwa [hlen] at hslice
      · exact Mem.slice_copy_disjoint (Or.inl (by omega))

end

/-- A length of 2^32 + 5 is accepted for a string of five characters. -/
theorem exactString_fails_on_wrap :
    ¬ExactString Host.little instantiate (str "4294967301:hello") := by
  rintro ⟨haccepted, -⟩
  obtain ⟨N, s, hsplit, -, -, hfits⟩ := haccepted.mp (by decide)
  have hN : splitString (str "4294967301:hello") = some (4294967301, str "hello") := by decide
  obtain ⟨rfl, rfl⟩ := Prod.mk.inj (Option.some.inj (hN.symm.trans hsplit))
  revert hfits
  decide

/-- A string of five characters in a field of eight. -/
theorem exactString_iff_hello :
    ExactString Host.little instantiate (str "8:hello") ↔
      ¬LengthWraps instantiate (str "8:hello") :=
  exactString_iff Host.little (by decide)

end CmdSend.PassThru
