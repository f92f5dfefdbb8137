-- SUMMARY: The payload of a run: the bytes that each payload option appends, in the byte order of its place in the run.
import CmdSend.PassThru.Safety
import CmdSend.PassThru.Pack

/-!
# The payload of a run

`chunk` is the list of bytes that a payload option stands for. An option whose
chunk fits is accepted and appends it (`parseOption_of_chunk`), and in a run
whose sums do not wrap nothing else is accepted (`chunk_of_accept`).
-/

namespace CmdSend.PassThru

open CLib

/-- The byte order that the encoder has selected. -/
def CommandData.order (cmd : CommandData) : ByteOrder := if cmd.bigEndian then .big else .little

/-- The options that are big-endian by their name. -/
def bigEndianOptions : List OptionId := [.int16b, .uint16b, .int32b, .uint32b, .int64b, .uint64b]

/-- The switch of the parser is for these options and no other. -/
theorem forceBigEndian_eq (id : OptionId) : forceBigEndian id = bigEndianOptions.contains id := by
  cases id <;> rfl

/-- The byte order of a numeric option, from the selection. -/
def effectiveOrder (selected : ByteOrder) (a : ArgV) : ByteOrder :=
  if bigEndianOptions.contains a.optionId then .big else selected

/-- The number that a numeric option denotes, with its width, if its text is
accepted. -/
def number (host : Host) (a : ArgV) : Option ((w : Nat) × BitVec w) :=
  match kind a.optionId with
  | .int o =>
    let conv := o.conversion a.text
    let temp := conv.value.setWidth o.width
    if conv.tail = a.text ∨ o.widen temp ≠ conv.value then none else some ⟨o.width, temp⟩
  | .double =>
    let conv := host.strtod a.text
    if conv.2 = a.text then none else some ⟨64, conv.1⟩
  | .float =>
    let conv := host.strtof a.text
    if conv.2 = a.text then none else some ⟨32, conv.1⟩
  | _ => none

/-- The bytes of a payload option. -/
def chunk (host : Host) (selected : ByteOrder) (a : ArgV) : Option (List Byte) :=
  match kind a.optionId with
  | .string => (stringParts a.text).map fun (s, n) => s ++ List.replicate (n - s.length) 0
  | _ => (number host a).map fun x => (effectiveOrder selected a).bytes x.2

/-- The encoder with more bytes in the payload. -/
def CommandData.append (cmd : CommandData) (bs : List Byte) : CommandData :=
  cmd.withPayload (cmd.payload.copy cmd.payloadBytes.toNat bs)
    (cmd.payloadBytes + BitVec.ofNat 32 bs.length)

/-- The bytes fit behind the payload. -/
def CommandData.Fits (cmd : CommandData) (bs : List Byte) : Prop :=
  cmd.payloadBytes.toNat + bs.length ≤ maxPacketSize

section

variable {cmd : CommandData} {bs bs' : List Byte}

/-- A write whose sum does not wrap appends to the payload. -/
theorem payloadSlice_appended {k : BitVec 32} (hlen : bs.length = k.toNat)
    (hsum : cmd.payloadBytes.toNat + k.toNat < 2 ^ 32) :
    (cmd.appended bs k).cmd.payloadSlice = cmd.payloadSlice ++ bs := by
  have hbytes : (cmd.payloadBytes + k).toNat = cmd.payloadBytes.toNat + bs.length := by
    rw [toNat_sum, Nat.mod_eq_of_lt hsum, hlen]
  change (cmd.payload.copy _ bs).slice 0 (cmd.payloadBytes + k).toNat = _
  rw [hbytes]
  exact Mem.slice_copy_append ..

theorem hasRoom_of_fits (h : cmd.Fits bs) :
    cmd.HasRoom (BitVec.ofNat 32 bs.length) ∧
      (BitVec.ofNat 32 bs.length).toNat = bs.length := by
  unfold CommandData.Fits maxPacketSize at h
  have hlen : (BitVec.ofNat 32 bs.length).toNat = bs.length := by
    rw [BitVec.toNat_ofNat]
    omega
  refine ⟨?_, hlen⟩
  unfold CommandData.HasRoom maxPacketSize
  rw [toNat_sum, hlen]
  omega

theorem toNat_payloadBytes_append (h : cmd.Fits bs) :
    (cmd.append bs).payloadBytes.toNat = cmd.payloadBytes.toNat + bs.length := by
  obtain ⟨-, hlen⟩ := hasRoom_of_fits h
  unfold CommandData.Fits maxPacketSize at h
  refine (toNat_sum cmd _).trans ?_
  rw [hlen]
  omega

theorem payloadSlice_append (h : cmd.Fits bs) :
    (cmd.append bs).payloadSlice = cmd.payloadSlice ++ bs := by
  obtain ⟨-, hlen⟩ := hasRoom_of_fits h
  unfold CommandData.Fits maxPacketSize at h
  exact payloadSlice_appended hlen.symm (by omega)

theorem append_nil (cmd : CommandData) : cmd.append [] = cmd := by
  unfold CommandData.append
  rw [Mem.copy_nil]
  simp [CommandData.withPayload]

theorem append_append (h : cmd.Fits bs) :
    (cmd.append bs).append bs' = cmd.append (bs ++ bs') := by
  have hcopy := Mem.copy_copy_append cmd.payload cmd.payloadBytes.toNat bs bs'
  rw [← toNat_payloadBytes_append h] at hcopy
  have hsum : cmd.payloadBytes + BitVec.ofNat 32 bs.length + BitVec.ofNat 32 bs'.length =
      cmd.payloadBytes + BitVec.ofNat 32 (bs ++ bs').length := by
    rw [List.length_append, BitVec.ofNat_add, BitVec.add_assoc]
  unfold CommandData.append at hcopy ⊢
  exact congrArg₂ cmd.withPayload hcopy hsum

theorem copyData_of_fits (h : cmd.Fits bs) :
    cmd.copyData bs (BitVec.ofNat 32 bs.length) =
      cmd.appended bs (BitVec.ofNat 32 bs.length) := by
  obtain ⟨hroom, hlen⟩ := hasRoom_of_fits h
  rw [copyData_of_hasRoom cmd hroom, hlen, List.take_length]

theorem padData_of_fits {val : Byte} {n : Nat} (h : cmd.Fits (List.replicate n val)) :
    (cmd.padData val (BitVec.ofNat 32 n)).retcode = .accepted ∧
      (cmd.padData val (BitVec.ofNat 32 n)).cmd = cmd.append (List.replicate n val) := by
  obtain ⟨hroom, hlen⟩ := hasRoom_of_fits h
  rw [List.length_replicate] at hroom hlen
  rw [padData_of_hasRoom cmd hroom, hlen, CommandData.append, List.length_replicate]
  exact ⟨rfl, rfl⟩

theorem copyAndPad_of_fits {s : Text} {n : Nat} (hle : s.length ≤ n)
    (h : cmd.Fits (s ++ List.replicate (n - s.length) 0)) :
    (cmd.copyAndPad s n).retcode = .accepted ∧
      (cmd.copyAndPad s n).cmd = cmd.append (s ++ List.replicate (n - s.length) 0) := by
  have hs : cmd.Fits s := by
    unfold CommandData.Fits at h ⊢
    rw [List.length_append] at h
    omega
  by_cases hlen : s.length = n
  · rw [copyAndPad_of_length_eq hlen, copyData_of_fits hs, hlen, Nat.sub_self,
      List.replicate_zero, List.append_nil]
    subst hlen
    exact ⟨rfl, rfl⟩
  · obtain ⟨hroom, hcount⟩ := hasRoom_of_fits hs
    have hpad : (cmd.append s).Fits (List.replicate (n - s.length) 0) := by
      unfold CommandData.Fits at h ⊢
      rw [toNat_payloadBytes_append hs]
      rw [List.length_append] at h
      omega
    have hpadded := padData_of_fits hpad
    rw [append_append hs] at hpadded
    rw [copyAndPad_of_hasRoom hlen hroom, hcount, List.take_length]
    exact hpadded

end

/-! ## The bytes of a number -/

theorem bytes_eq_of_width_eight (o o' : ByteOrder) {w : Nat} (hw : w = 8) (x : BitVec w) :
    o.bytes x = o'.bytes x := by
  subst hw
  cases o <;> cases o' <;> rfl

theorem bytes_endianConversion (host : Host) (cmd : CommandData) (force : Bool) {w : Nat}
    (hw : 8 ∣ w) (x : BitVec w) :
    host.order.bytes (cmd.endianConversion host force x) =
      (if force then ByteOrder.big else cmd.order).bytes x := by
  unfold CommandData.endianConversion CommandData.order
  cases force <;> cases cmd.bigEndian <;> exact bytes_convert hw host.order _ x

/-- The width of a number in bytes. -/
theorem width_of_number {host : Host} {a : ArgV} {x : (w : Nat) × BitVec w}
    (h : number host a = some x) : 8 ∣ x.1 ∧ x.1 ≤ 64 := by
  unfold number at h
  split at h
  · rename_i o hk
    simp only at h
    split at h
    · cases h
    · obtain rfl := Option.some.inj h
      exact ⟨(width_of_kind_int hk).1, (width_of_kind_int hk).2.2⟩
  · simp only at h
    split at h
    · cases h
    · obtain rfl := Option.some.inj h
      exact (by decide : 8 ∣ 64 ∧ 64 ≤ 64)
  · simp only at h
    split at h
    · cases h
    · obtain rfl := Option.some.inj h
      exact (by decide : 8 ∣ 32 ∧ 32 ≤ 64)
  · cases h

theorem isPayload_of_number {host : Host} {a : ArgV} {x : (w : Nat) × BitVec w}
    (h : number host a = some x) :
    (kind a.optionId).isPayload = true ∧ kind a.optionId ≠ .string := by
  unfold number at h
  split at h <;> rename_i hk
  · rw [hk]
    exact ⟨rfl, Kind.noConfusion⟩
  · rw [hk]
    exact ⟨rfl, Kind.noConfusion⟩
  · rw [hk]
    exact ⟨rfl, Kind.noConfusion⟩
  · cases h

/-- A numeric option is rejected for its text, or copies the bytes of its
number. -/
theorem parseOption_number (host : Host) (cmd : CommandData) {a : ArgV}
    (hpay : (kind a.optionId).isPayload = true) (hstring : kind a.optionId ≠ .string) :
    (∃ error, number host a = none ∧ parseOption host cmd a = cmd.reject error) ∨
      ∃ x, number host a = some x ∧
        parseOption host cmd a =
          cmd.copyData ((effectiveOrder cmd.order a).bytes x.2) (BitVec.ofNat 32 (x.1 / 8)) := by
  rw [parseOption_eq, forceBigEndian_eq]
  unfold number effectiveOrder
  cases hk : kind a.optionId with
  | int o =>
    have hw := (width_of_kind_int hk).1
    simp only [parseKind, CommandData.intPayload]
    split
    · exact Or.inl ⟨_, rfl, rfl⟩
    · refine Or.inr ⟨_, rfl, ?_⟩
      split
      · rename_i h8
        rw [bytes_eq_of_width_eight _ _ h8]
      · rw [bytes_endianConversion host cmd _ hw]
  | double =>
    simp only [parseKind, CommandData.floatPayload]
    split
    · exact Or.inl ⟨_, rfl, rfl⟩
    · exact Or.inr ⟨_, rfl, by rw [bytes_endianConversion host cmd _ (by decide)]⟩
  | float =>
    simp only [parseKind, CommandData.floatPayload]
    split
    · exact Or.inl ⟨_, rfl, rfl⟩
    · exact Or.inr ⟨_, rfl, by rw [bytes_endianConversion host cmd _ (by decide)]⟩
  | string => exact absurd hk hstring
  | _ => simp [hk, Kind.isPayload] at hpay

/-! ## One option -/

/-- A payload option whose bytes fit is accepted and appends them. -/
theorem parseOption_of_chunk {host : Host} {cmd : CommandData} {a : ArgV} {bs : List Byte}
    (h : chunk host cmd.order a = some bs) (hfits : cmd.Fits bs) :
    (parseOption host cmd a).retcode = .accepted ∧
      (parseOption host cmd a).cmd = cmd.append bs := by
  by_cases hstring : kind a.optionId = .string
  · rw [parseOption_eq, hstring]
    simp only [chunk, hstring, Option.map_eq_some_iff] at h
    obtain ⟨⟨s, n⟩, hparts, rfl⟩ := h
    have hle : s.length ≤ n := by
      unfold stringParts at hparts
      split at hparts
      · cases hparts
      · simp only at hparts
        split at hparts
        · rename_i hform
          obtain ⟨rfl, rfl⟩ := Prod.mk.inj (Option.some.inj hparts)
          exact hform.2.2
        · cases hparts
    simp only [parseKind]
    rw [stringPayload_of_some cmd hparts]
    exact copyAndPad_of_fits hle hfits
  · have hnumber : (number host a).map (fun x => (effectiveOrder cmd.order a).bytes x.2) =
        some bs := by
      unfold chunk at h
      split at h
      · contradiction
      · exact h
    obtain ⟨x, hx, rfl⟩ := Option.map_eq_some_iff.mp hnumber
    cases parseOption_number host cmd (isPayload_of_number hx).1 hstring with
    | inl hrej =>
      obtain ⟨_, hnone, -⟩ := hrej
      rw [hx] at hnone
      cases hnone
    | inr hacc =>
      obtain ⟨x', hx', hparse⟩ := hacc
      rw [hx] at hx'
      obtain rfl := Option.some.inj hx'
      have hlen := ByteOrder.length_bytes (effectiveOrder cmd.order a) x.2
      rw [← hlen, copyData_of_fits hfits] at hparse
      rw [hparse]
      exact ⟨rfl, rfl⟩

/-- An accepted numeric option has appended the bytes of its number. -/
theorem append_of_accept_number {host : Host} {cmd cmd' : CommandData} {a : ArgV}
    (hin : cmd.InBounds) (hpay : (kind a.optionId).isPayload = true)
    (hstring : kind a.optionId ≠ .string) (hacc : accept host cmd a = some cmd') :
    ∃ x, number host a = some x ∧ cmd.Fits ((effectiveOrder cmd.order a).bytes x.2) ∧
      cmd' = cmd.append ((effectiveOrder cmd.order a).bytes x.2) := by
  obtain ⟨hret, rfl⟩ := accept_eq_some_iff.mp hacc
  cases parseOption_number host cmd hpay hstring with
  | inl hrej =>
    obtain ⟨error, -, hrej⟩ := hrej
    rw [hrej] at hret
    exact absurd rfl hret
  | inr hparsed =>
    obtain ⟨x, hx, hparse⟩ := hparsed
    have hlen := ByteOrder.length_bytes (effectiveOrder cmd.order a) x.2
    have hwidth := (width_of_number hx).2
    have hfits : cmd.Fits ((effectiveOrder cmd.order a).bytes x.2) := by
      by_contra hno
      have hroom : ¬cmd.HasRoom (BitVec.ofNat 32 (x.1 / 8)) := by
        unfold CommandData.InBounds maxPacketSize at hin
        unfold CommandData.Fits maxPacketSize at hno
        unfold CommandData.HasRoom maxPacketSize
        rw [toNat_sum, BitVec.toNat_ofNat]
        omega
      obtain ⟨error, hrej⟩ := copyData_of_not_hasRoom cmd hroom _
      rw [hparse, hrej] at hret
      exact absurd rfl hret
    rw [← hlen, copyData_of_fits hfits] at hparse
    exact ⟨x, hx, hfits, by rw [hparse]; rfl⟩

/-- An accepted `--string` has a string and a length, which are appended. -/
theorem stringParts_of_accept {host : Host} {cmd cmd' : CommandData} {a : ArgV}
    (hstring : kind a.optionId = .string) (hacc : accept host cmd a = some cmd') :
    ∃ s n, stringParts a.text = some (s, n) ∧ parseOption host cmd a = cmd.copyAndPad s n := by
  have hparse := parseOption_eq host cmd a
  rw [hstring] at hparse
  obtain ⟨hret, -⟩ := accept_eq_some_iff.mp hacc
  cases hparts : stringParts a.text with
  | none =>
    obtain ⟨error, hrej⟩ := stringPayload_of_none cmd hparts
    rw [hparse, parseKind, hrej] at hret
    exact absurd rfl hret
  | some parts => exact ⟨parts.1, parts.2, rfl, hparse.trans (stringPayload_of_some cmd hparts)⟩

/-- An accepted option that is not for the payload leaves it alone. -/
theorem payload_of_accept {host : Host} {cmd cmd' : CommandData} {a : ArgV}
    (hpay : ¬(kind a.optionId).isPayload = true) (hacc : accept host cmd a = some cmd') :
    cmd'.payload = cmd.payload ∧ cmd'.payloadBytes = cmd.payloadBytes := by
  cases accepted_of_accept hacc with
  | field f _ _ => cases f <;> exact ⟨rfl, rfl⟩
  | payload _ _ _ h => exact absurd h hpay
  | positional _ | ignored _ | endian _ _ _ | protocol _ _ _ _ => exact ⟨rfl, rfl⟩

/-- An accepted payload option has bytes, in either order. -/
theorem chunk_isSome_of_accept {host : Host} {cmd cmd' : CommandData} {a : ArgV}
    (selected : ByteOrder) (hpay : (kind a.optionId).isPayload = true)
    (hacc : accept host cmd a = some cmd') : (chunk host selected a).isSome := by
  obtain ⟨hret, -⟩ := accept_eq_some_iff.mp hacc
  by_cases hstring : kind a.optionId = .string
  · obtain ⟨s, n, hparts, -⟩ := stringParts_of_accept hstring hacc
    simp [chunk, hstring, hparts]
  · cases parseOption_number host cmd hpay hstring with
    | inl hrej =>
      obtain ⟨error, -, hrej⟩ := hrej
      rw [hrej] at hret
      exact absurd rfl hret
    | inr hparsed =>
      obtain ⟨x, hx, -⟩ := hparsed
      unfold chunk
      split
      · contradiction
      · simp [hx]

theorem order_of_accept_payload {host : Host} {cmd cmd' : CommandData} {a : ArgV}
    (hpay : (kind a.optionId).isPayload = true) (hacc : accept host cmd a = some cmd') :
    cmd'.order = cmd.order := by
  cases accepted_of_accept hacc with
  | payload _ _ _ _ => rfl
  | positional hk | ignored hk | field _ hk _ | endian _ hk _ | protocol _ hk _ _ =>
    simp [hk, Kind.isPayload] at hpay

/-! ## Appending only -/

/-- The payload of the second state starts with the one of the first. -/
def Extends (cmd cmd' : CommandData) : Prop :=
  ∃ bs, cmd'.payloadSlice = cmd.payloadSlice ++ bs

theorem Extends.of_eq {cmd cmd' : CommandData} (h : cmd'.payloadSlice = cmd.payloadSlice) :
    Extends cmd cmd' := ⟨[], by rw [h, List.append_nil]⟩

theorem Extends.trans {cmd₁ cmd₂ cmd₃ : CommandData} (h₁ : Extends cmd₁ cmd₂)
    (h₂ : Extends cmd₂ cmd₃) : Extends cmd₁ cmd₃ := by
  obtain ⟨bs₁, h₁⟩ := h₁
  obtain ⟨bs₂, h₂⟩ := h₂
  exact ⟨bs₁ ++ bs₂, by rw [h₂, h₁, List.append_assoc]⟩

theorem extends_appended {cmd : CommandData} {bs : List Byte} {k : BitVec 32}
    (hlen : bs.length = k.toNat) (hsum : cmd.payloadBytes.toNat + k.toNat < 2 ^ 32) :
    Extends cmd (cmd.appended bs k).cmd := ⟨bs, payloadSlice_appended hlen hsum⟩

/-- The bytes that `copyData` takes from a text of any length. -/
theorem length_take_count (s : Text) :
    (s.take (BitVec.ofNat 32 s.length).toNat).length = (BitVec.ofNat 32 s.length).toNat := by
  rw [List.length_take, BitVec.toNat_ofNat]
  omega

theorem extends_copyAndPad {cmd : CommandData} {s : Text} {n : Nat}
    (hsafe : (cmd.copyAndPad s n).Safe) (hin : cmd.InBounds)
    (hret : (cmd.copyAndPad s n).retcode ≠ .invalid) : Extends cmd (cmd.copyAndPad s n).cmd := by
  by_cases hroom : cmd.HasRoom (BitVec.ofNat 32 s.length)
  · by_cases hlen : s.length = n
    · rw [copyAndPad_of_length_eq hlen] at hsafe ⊢
      have hsum := (safe_copyData_iff hin s _).mp hsafe
      rw [copyData_of_hasRoom cmd hroom]
      exact extends_appended (length_take_count s) hsum
    · rw [copyAndPad_of_hasRoom hlen hroom] at hsafe hret ⊢
      obtain ⟨h₁, h₂⟩ := (safe_append_pad_iff hroom _ _).mp hsafe
      refine (extends_appended (length_take_count s) h₁).trans ?_
      by_cases hpad : (cmd.appended (s.take (BitVec.ofNat 32 s.length).toNat)
          (BitVec.ofNat 32 s.length)).cmd.HasRoom (BitVec.ofNat 32 (n - s.length))
      · simp only [padData_of_hasRoom _ hpad]
        refine extends_appended List.length_replicate ?_
        have hsum : (cmd.appended (s.take (BitVec.ofNat 32 s.length).toNat)
            (BitVec.ofNat 32 s.length)).cmd.payloadBytes.toNat =
              (cmd.payloadBytes.toNat + (BitVec.ofNat 32 s.length).toNat) % 2 ^ 32 :=
          toNat_sum cmd _
        rw [hsum, Nat.mod_eq_of_lt h₁]
        exact h₂
      · obtain ⟨error, hrej⟩ := padData_of_not_hasRoom _ hpad 0
        simp only [hrej] at hret
        exact absurd rfl hret
  · obtain ⟨error, hrej⟩ := copyData_of_not_hasRoom cmd hroom s
    rw [copyAndPad_of_not_hasRoom n hroom, hrej] at hret
    exact absurd rfl hret

/-- An accepted option whose writes are in bounds only appends to the payload. -/
theorem extends_of_accept {host : Host} {cmd cmd' : CommandData} {a : ArgV} (hin : cmd.InBounds)
    (hsafe : (parseOption host cmd a).Safe) (hacc : accept host cmd a = some cmd') :
    Extends cmd cmd' := by
  by_cases hpay : (kind a.optionId).isPayload = true
  · by_cases hstring : kind a.optionId = .string
    · obtain ⟨s, n, -, hparse⟩ := stringParts_of_accept hstring hacc
      obtain ⟨hret, rfl⟩ := accept_eq_some_iff.mp hacc
      rw [hparse] at hsafe hret ⊢
      exact extends_copyAndPad hsafe hin hret
    · obtain ⟨x, -, hfits, rfl⟩ := append_of_accept_number hin hpay hstring hacc
      exact ⟨_, payloadSlice_append hfits⟩
  · obtain ⟨hpayload, hbytes⟩ := payload_of_accept hpay hacc
    exact Extends.of_eq (by rw [CommandData.payloadSlice, hpayload, hbytes]; rfl)

theorem extends_of_acceptAll {host : Host} {opts : List ArgV} {cmd cmd' : CommandData}
    (hin : cmd.InBounds) (hsafe : ∀ c ∈ calls host cmd opts, (parseOption host c.1 c.2).Safe)
    (hrun : acceptAll host cmd opts = some cmd') : Extends cmd cmd' := by
  induction opts generalizing cmd with
  | nil =>
    obtain rfl := Option.some.inj hrun
    exact Extends.of_eq rfl
  | cons a opts ih =>
    obtain ⟨cmd₁, hacc, hrest⟩ := foldlM_cons_some.mp hrun
    obtain ⟨hsafe₁, hsafe⟩ := (forall_calls_cons hacc).mp hsafe
    have hfirst := extends_of_accept hin hsafe₁ hacc
    exact hfirst.trans (ih (inBounds_of_accept hin hacc) hsafe hrest)

end CmdSend.PassThru
