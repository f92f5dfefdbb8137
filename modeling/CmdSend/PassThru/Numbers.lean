-- SUMMARY: The integer options: which texts they accept, when the bytes are those of the numeral, and what may stand behind it.
import CmdSend.PassThru.Integers
import CmdSend.PassThru.Strings

/-!
# Integer options

An integer option is accepted when its text starts with a numeral that passes the
range check and there is room for the bytes. The check compares 64 bits with what
is left of them, so it does not see what `strtoll` and `strtoull` have done to the
number before, and it does not look behind the numeral.
-/

namespace CmdSend.PassThru

open CLib

theorem intType_of_kind {id : OptionId} {o : IntOption} (h : kind id = .int o) :
    intType id = some o.toIntType := by
  cases id <;> cases h <;> rfl

section

variable {host : Host} {cmd : CommandData} {a : ArgV} {t : IntType}

/-! ## The verdict -/

theorem kind_of_intType (h : intType a.optionId = some t) :
    (kind a.optionId).isPayload = true ∧ kind a.optionId ≠ .string := by
  obtain ⟨-, -, -, o, hk, -⟩ := intType_spec h
  rw [hk]
  exact ⟨rfl, Kind.noConfusion⟩

/-- The number of an integer option, from its numeral. -/
theorem number_of_intType (h : intType a.optionId = some t) {n : Numeral}
    (hscan : scanNumeral a.text = some n) :
    number host a =
      if t.Holds n.value ∨ t.Misread n then
        some ⟨t.width, (t.conversion a.text).value.setWidth t.width⟩
      else none := by
  obtain ⟨hpos, hw, -, o, hk, rfl⟩ := intType_spec h
  have htail : (o.conversion a.text).tail ≠ a.text := by
    rw [IntType.conversion_tail _ hscan]
    exact scanNumeral_tail_ne hscan
  -- the comparison of the two widths, as a condition on the numeral
  have hcheck := (o.toIntType.widen_setWidth_iff hpos hw (o.conversion a.text).value).trans
    (IntType.holds_conversion_iff hpos hw hscan)
  simp only [number, hk]
  by_cases hpass : o.Holds n.value ∨ o.Misread n
  · rw [if_pos hpass, if_neg fun hrej => hrej.elim htail (not_not.mpr (hcheck.mpr hpass))]
  · rw [if_neg hpass, if_pos (Or.inr fun heq => hpass (hcheck.mp heq))]

theorem number_of_no_numeral (h : intType a.optionId = some t)
    (hscan : scanNumeral a.text = none) : number host a = none := by
  obtain ⟨-, -, -, o, hk, -⟩ := intType_spec h
  simp only [number, hk, IntType.conversion_of_none _ hscan]
  exact if_pos (Or.inl trivial)

/-- An integer option either keeps the payload, and is rejected, or appends its
bytes. -/
theorem parseOption_int (host : Host) (cmd : CommandData) (h : intType a.optionId = some t) :
    (∃ error, parseOption host cmd a = cmd.reject error ∧
      ∀ n, scanNumeral a.text = some n → (t.Holds n.value ∨ t.Misread n) →
        ¬cmd.HasRoom (BitVec.ofNat 32 (t.width / 8))) ∨
    ∃ n, scanNumeral a.text = some n ∧ (t.Holds n.value ∨ t.Misread n) ∧
      cmd.HasRoom (BitVec.ofNat 32 (t.width / 8)) ∧
      parseOption host cmd a = cmd.appended ((effectiveOrder cmd.order a).bytes
        ((t.conversion a.text).value.setWidth t.width)) (BitVec.ofNat 32 (t.width / 8)) := by
  obtain ⟨hpay, hstring⟩ := kind_of_intType h
  cases parseOption_number host cmd hpay hstring with
  | inl hrej =>
    obtain ⟨error, hnone, hrej⟩ := hrej
    refine Or.inl ⟨error, hrej, fun n hscan hpass => ?_⟩
    rw [number_of_intType h hscan, if_pos hpass] at hnone
    cases hnone
  | inr hparsed =>
    obtain ⟨x, hx, hparse⟩ := hparsed
    cases hscan : scanNumeral a.text with
    | none =>
      rw [number_of_no_numeral h hscan] at hx
      cases hx
    | some n =>
      rw [number_of_intType h hscan] at hx
      split at hx
      · rename_i hpass
        obtain rfl := Option.some.inj hx
        by_cases hroom : cmd.HasRoom (BitVec.ofNat 32 (t.width / 8))
        · refine Or.inr ⟨n, rfl, hpass, hroom, ?_⟩
          obtain ⟨-, hw, -⟩ := intType_spec h
          have hcount : (BitVec.ofNat 32 (t.width / 8)).toNat = t.width / 8 := by
            rw [BitVec.toNat_ofNat]
            omega
          rw [hparse, copyData_of_hasRoom cmd hroom, hcount,
            List.take_of_length_le (Nat.le_of_eq (ByteOrder.length_bytes ..))]
        · obtain ⟨error, hrej⟩ := copyData_of_not_hasRoom cmd hroom
            ((effectiveOrder cmd.order a).bytes
              ((t.conversion a.text).value.setWidth t.width))
          exact Or.inl ⟨error, hparse.trans hrej, fun _ _ _ => hroom⟩
      · cases hx

/-- The verdict of an integer option. -/
theorem accepted_int_iff (host : Host) (h : intType a.optionId = some t) :
    (parseOption host cmd a).retcode = .accepted ↔
      ∃ n, scanNumeral a.text = some n ∧ (t.Holds n.value ∨ t.Misread n) ∧
        cmd.HasRoom (BitVec.ofNat 32 (t.width / 8)) := by
  cases parseOption_int host cmd h with
  | inl hrej =>
    obtain ⟨error, hrej, hno⟩ := hrej
    rw [hrej]
    refine iff_of_false OptParse.noConfusion ?_
    rintro ⟨n, hscan, hpass, hroom⟩
    exact hno n hscan hpass hroom
  | inr hacc =>
    obtain ⟨n, hscan, hpass, hroom, hacc⟩ := hacc
    rw [hacc]
    exact iff_of_true rfl ⟨n, hscan, hpass, hroom⟩

/-! ## The number that is sent -/

/-- An integer option sends no other number than the one its text starts with. -/
structure SendsNumeral (host : Host) (cmd : CommandData) (a : ArgV) (t : IntType) : Prop where
  /-- An accepted option appends the integer that the numeral of its text denotes. -/
  appended : (parseOption host cmd a).retcode = .accepted →
    ∃ n, scanNumeral a.text = some n ∧ t.Holds n.value ∧
      (parseOption host cmd a).cmd.payloadBytes =
        cmd.payloadBytes + BitVec.ofNat 32 (t.width / 8) ∧
      t.decode (effectiveOrder cmd.order a)
        ((parseOption host cmd a).cmd.payload.slice cmd.payloadBytes.toNat (t.width / 8)) = n.value
  rejected : ∀ n, scanNumeral a.text = some n → ¬t.Holds n.value →
    (parseOption host cmd a).retcode = .invalid

/-- An option sends the integer that its text denotes unless the numeral is
misread, and there is room for what it is taken for. -/
theorem sendsNumeral_iff (host : Host) (cmd : CommandData) (h : intType a.optionId = some t) :
    SendsNumeral host cmd a t ↔
      ¬∃ n, scanNumeral a.text = some n ∧ t.Misread n ∧
        cmd.HasRoom (BitVec.ofNat 32 (t.width / 8)) := by
  constructor
  · rintro ⟨happended, -⟩ ⟨n, hscan, hmis, hroom⟩
    obtain ⟨n', hscan', hholds, -⟩ :=
      happended ((accepted_int_iff host h).mpr ⟨n, hscan, Or.inr hmis, hroom⟩)
    obtain rfl := Option.some.inj (hscan.symm.trans hscan')
    exact IntType.not_holds_of_misread hmis hholds
  · intro hno
    cases parseOption_int host cmd h with
    | inl hrej =>
      obtain ⟨error, hrej, -⟩ := hrej
      have hret : (parseOption host cmd a).retcode = .invalid := by rw [hrej]; rfl
      refine ⟨fun hacc => ?_, fun _ _ _ => hret⟩
      rw [hret] at hacc
      cases hacc
    | inr hacc =>
      obtain ⟨n, hscan, hpass, hroom, hacc⟩ := hacc
      have hholds : t.Holds n.value := hpass.resolve_right fun hmis => hno ⟨n, hscan, hmis, hroom⟩
      refine ⟨fun _ => ⟨n, hscan, hholds, by rw [hacc]; rfl, ?_⟩, ?_⟩
      · obtain ⟨hpos, hw, h8, -⟩ := intType_spec h
        have hvalue : (t.conversion a.text).value.setWidth t.width =
            BitVec.ofInt t.width n.value := by
          rw [IntType.conversion_of_holds hpos hw hscan hholds]
          exact setWidth_ofInt hw n.value
        have hslice := Mem.slice_copy_same cmd.payload cmd.payloadBytes.toNat
          ((effectiveOrder cmd.order a).bytes (BitVec.ofInt t.width n.value))
        rw [ByteOrder.length_bytes] at hslice
        rw [hacc, hvalue]
        exact (congrArg (t.decode _) hslice).trans (IntType.decode_bytes hpos h8 hholds _)
      · intro n' hscan' hout
        obtain rfl := Option.some.inj (hscan.symm.trans hscan')
        exact absurd hholds hout

/-! ## What stands behind the numeral -/

/-- What `strtoll` or `strtoull` leaves of the text of an option for a number or a
header field. -/
def numeralTail (a : ArgV) : Option Text :=
  match kind a.optionId with
  | .int o => some (o.conversion a.text).tail
  | .field _ => some (strtoul a.text).tail
  | _ => none

/-- The rule that a text is a numeral and nothing else. -/
structure WholeNumeral (host : Host) (cmd : CommandData) (a : ArgV) : Prop where
  accepted : (parseOption host cmd a).retcode = .accepted → ∀ tail, numeralTail a = some tail →
    tail = []
  trailing : ∀ tail, numeralTail a = some tail → tail ≠ [] →
    (parseOption host cmd a).retcode = .invalid ∧
      (parseOption host cmd a).cmd.payload = cmd.payload ∧
      (parseOption host cmd a).cmd.payloadBytes = cmd.payloadBytes

/-- An integer option for a numeral with more text behind it that is accepted. -/
def AcceptsTrailing (cmd : CommandData) (a : ArgV) : Prop :=
  ∃ t n, intType a.optionId = some t ∧ scanNumeral a.text = some n ∧ n.tail ≠ [] ∧
    (t.Holds n.value ∨ t.Misread n) ∧ cmd.HasRoom (BitVec.ofNat 32 (t.width / 8))

/-- An option that is rejected, and that leaves the payload alone, keeps the rule. -/
theorem wholeNumeral_of_invalid (hret : (parseOption host cmd a).retcode = .invalid)
    (hpayload : (parseOption host cmd a).cmd.payload = cmd.payload)
    (hbytes : (parseOption host cmd a).cmd.payloadBytes = cmd.payloadBytes) :
    WholeNumeral host cmd a where
  accepted := by
    intro hacc
    rw [hret] at hacc
    cases hacc
  trailing := fun _ _ _ => ⟨hret, hpayload, hbytes⟩

/-- An option for which nothing is left behind the numeral keeps the rule. -/
theorem wholeNumeral_of_tail (h : ∀ tail, numeralTail a = some tail → tail = []) :
    WholeNumeral host cmd a where
  accepted := fun _ => h
  trailing := fun tail htail hne => absurd (h tail htail) hne

/-- A header field keeps the rule. -/
theorem wholeNumeral_field (host : Host) (cmd : CommandData) {f : Field}
    (hk : kind a.optionId = .field f) : WholeNumeral host cmd a := by
  by_cases htail : (strtoul a.text).tail = []
  · apply wholeNumeral_of_tail
    intro tail h
    simp only [numeralTail, hk] at h
    exact (Option.some.inj h).symm.trans htail
  · have hreject : ∃ error, parseOption host cmd a =
        (cmd.reject error).override f.setOverride := by
      rw [parseOption_eq, hk]
      simp only [parseKind, CommandData.processField, ne_eq, htail, not_false_eq_true, if_true]
      split
      · exact ⟨_, rfl⟩
      · split <;> exact ⟨_, rfl⟩
    obtain ⟨error, hrej⟩ := hreject
    apply wholeNumeral_of_invalid <;> rw [hrej]
    · rfl
    · cases f <;> rfl
    · cases f <;> rfl

/-- An integer option keeps the rule unless it accepts a text that goes on. -/
theorem wholeNumeral_int_iff (host : Host) (cmd : CommandData) (h : intType a.optionId = some t) :
    WholeNumeral host cmd a ↔ ¬AcceptsTrailing cmd a := by
  have htail : ∀ n, scanNumeral a.text = some n → numeralTail a = some n.tail := by
    intro n hscan
    obtain ⟨-, -, -, o, hk, -⟩ := intType_spec h
    simp only [numeralTail, hk, IntType.conversion_tail _ hscan]
  constructor
  · rintro ⟨haccepted, -⟩ ⟨t', n, ht, hscan, hne, hpass, hroom⟩
    obtain rfl := Option.some.inj (h.symm.trans ht)
    exact hne (haccepted ((accepted_int_iff host h).mpr ⟨n, hscan, hpass, hroom⟩) _
      (htail n hscan))
  · intro hno
    cases parseOption_int host cmd h with
    | inl hrej =>
      obtain ⟨error, hrej, -⟩ := hrej
      exact wholeNumeral_of_invalid (by rw [hrej]; rfl) (by rw [hrej]; rfl) (by rw [hrej]; rfl)
    | inr hacc =>
      obtain ⟨n, hscan, hpass, hroom, -⟩ := hacc
      apply wholeNumeral_of_tail
      intro tail heq
      obtain rfl := Option.some.inj ((htail n hscan).symm.trans heq)
      by_contra hne
      exact hno ⟨t, n, h, hscan, hne, hpass, hroom⟩

/-- Of all options, the integer options that accept a text that goes on behind its
numeral are the ones that break the rule. -/
theorem wholeNumeral_iff (host : Host) (cmd : CommandData) (a : ArgV) :
    WholeNumeral host cmd a ↔ ¬AcceptsTrailing cmd a := by
  cases hid : intType a.optionId with
  | some t => exact wholeNumeral_int_iff host cmd hid
  | none =>
    have hno : ¬AcceptsTrailing cmd a := by
      rintro ⟨t, n, ht, -⟩
      rw [hid] at ht
      cases ht
    rw [iff_true_right hno]
    cases hk : kind a.optionId with
    | field f => exact wholeNumeral_field host cmd hk
    | int o =>
      rw [intType_of_kind hk] at hid
      cases hid
    | _ =>
      apply wholeNumeral_of_tail
      intro tail h
      simp only [numeralTail, hk] at h
      cases h

end

/-- The numeral 1 with a letter behind it is accepted. -/
theorem wholeNumeral_fails_on_trailing :
    ¬WholeNumeral Host.little instantiate ⟨.uint8, str "1x"⟩ := by
  rintro ⟨haccepted, -⟩
  have htail := haccepted (by decide) (str "x") (by decide)
  revert htail
  decide

/-- The smallest magnitude that comes out of the negation as 1. -/
theorem sendsNumeral_fails_on_negation :
    ¬SendsNumeral Host.little instantiate ⟨.uint8, str "-18446744073709551615"⟩ ⟨false, 8⟩ := by
  rintro ⟨happended, -⟩
  obtain ⟨n, hscan, hholds, -⟩ := happended (by decide)
  have hn : scanNumeral (str "-18446744073709551615") = some ⟨true, 18446744073709551615, []⟩ := by
    decide
  obtain rfl := Option.some.inj (hn.symm.trans hscan)
  revert hholds
  decide

/-- The greatest value of an `int64`. -/
theorem sendsNumeral_iff_int64_max :
    SendsNumeral Host.little instantiate ⟨.int64, str "9223372036854775807"⟩ ⟨true, 64⟩ := by
  refine (sendsNumeral_iff Host.little instantiate rfl).mpr ?_
  rintro ⟨n, hscan, hmis, -⟩
  have hn : scanNumeral (str "9223372036854775807") = some ⟨false, 9223372036854775807, []⟩ := by
    decide
  obtain rfl := Option.some.inj (hn.symm.trans hscan)
  revert hmis
  decide

end CmdSend.PassThru
