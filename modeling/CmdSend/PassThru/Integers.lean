-- SUMMARY: Integer payloads round-trip: a run of integer options with endian selections decodes to the list of its values.
import CmdSend.PassThru.Payload
import CmdSend.PassThru.Header

/-!
# Integer payloads

`intType` is the type that the name of an option announces. `IntRun` is a
sequence of integer options, mixed with endian selections, whose texts render
values of these types. `decodeAll` cuts the payload of such a run into pieces
and reads the values back.
-/

namespace CmdSend.PassThru

open CLib

/-- The type that an integer option announces. -/
def intType : OptionId → Option IntType
  | .byte | .int8 => some ⟨true, 8⟩
  | .half | .int16 | .int16b => some ⟨true, 16⟩
  | .long | .word | .int32 | .int32b => some ⟨true, 32⟩
  | .int64 | .int64b => some ⟨true, 64⟩
  | .uint8 => some ⟨false, 8⟩
  | .uint16 | .uint16b => some ⟨false, 16⟩
  | .uint32 | .uint32b => some ⟨false, 32⟩
  | .uint64 | .uint64b => some ⟨false, 64⟩
  | _ => none

/-- A run of integer options and endian selections, with the values that the
integer options render. -/
inductive IntRun : List ArgV → List Int → Prop
  | nil : IntRun [] []
  | endian {text opts vs} : text = str "LE" ∨ text = str "BE" → IntRun opts vs →
      IntRun (⟨.endian, text⟩ :: opts) vs
  | int {id t text v opts vs} : intType id = some t → RendersInt text v → t.Holds v →
      IntRun opts vs → IntRun (⟨id, text⟩ :: opts) (v :: vs)

/-- The pieces of the payload: the type of each with its byte order, which is big
for the options of forced order, and otherwise the selection in force. -/
def pieces : ByteOrder → List ArgV → List (IntType × ByteOrder)
  | _, [] => []
  | selected, a :: opts =>
    match intType a.optionId with
    | some t => (t, effectiveOrder selected a) :: pieces selected opts
    | none => pieces ((endianOf a).getD selected) opts

def totalWidth (ps : List (IntType × ByteOrder)) : Nat := (ps.map fun p => p.1.width / 8).sum

theorem totalWidth_cons (t : IntType) (o : ByteOrder) (ps : List (IntType × ByteOrder)) :
    totalWidth ((t, o) :: ps) = t.width / 8 + totalWidth ps := by
  simp [totalWidth]

/-- Cut bytes into pieces and read the value of each. -/
def decodeAll : List (IntType × ByteOrder) → List Byte → List Int
  | [], _ => []
  | (t, o) :: ps, bs => t.decode o (bs.take (t.width / 8)) :: decodeAll ps (bs.drop (t.width / 8))

/-! ## One integer -/

theorem intType_spec {id : OptionId} {t : IntType} (h : intType id = some t) :
    0 < t.width ∧ t.width ≤ 64 ∧ 8 ∣ t.width ∧
      ∃ o : IntOption, kind id = .int o ∧ o.toIntType = t := by
  cases id <;> cases h <;> exact ⟨by decide, by decide, by decide, _, rfl, rfl⟩

/-- A text that renders a value of the type is accepted as that value. -/
theorem chunk_of_renders (host : Host) (selected : ByteOrder) {id : OptionId} {t : IntType}
    {text : Text} {v : Int} (h : intType id = some t) (htext : RendersInt text v)
    (hv : t.Holds v) :
    chunk host selected ⟨id, text⟩ =
      some ((effectiveOrder selected ⟨id, text⟩).bytes (BitVec.ofInt t.width v)) := by
  obtain ⟨hpos, hw, -, o, hk, rfl⟩ := intType_spec h
  obtain ⟨hconv, htail⟩ := IntType.conversion_of_renders hpos hw hv htext
  have hnumber : number host ⟨id, text⟩ = some ⟨o.width, BitVec.ofInt o.width v⟩ := by
    simp only [number, hk]
    rw [hconv] at htail ⊢
    simp only [setWidth_ofInt hw]
    rw [if_neg]
    rintro (heq | hne)
    · exact htail heq
    · exact hne (IntType.widen_ofInt hpos hw hv)
  simp only [chunk, hk, hnumber]
  rfl

/-- An integer that fits is accepted, and its bytes decode to its value. -/
theorem accept_int (host : Host) (cmd : CommandData) {id : OptionId} {t : IntType} {text : Text}
    {v : Int} (hid : intType id = some t) (htext : RendersInt text v) (hv : t.Holds v)
    (hroom : cmd.payloadBytes.toNat + t.width / 8 ≤ maxPacketSize) :
    ∃ bs, cmd.Fits bs ∧ (parseOption host cmd ⟨id, text⟩).retcode = .accepted ∧
      accept host cmd ⟨id, text⟩ = some (cmd.append bs) ∧ bs.length = t.width / 8 ∧
      t.decode (effectiveOrder cmd.order ⟨id, text⟩) bs = v := by
  obtain ⟨hpos, -, h8, -⟩ := intType_spec hid
  have hchunk := chunk_of_renders host cmd.order hid htext hv
  generalize effectiveOrder cmd.order ⟨id, text⟩ = eff at hchunk ⊢
  have hlen : (eff.bytes (BitVec.ofInt t.width v)).length = t.width / 8 := by
    rw [ByteOrder.length_bytes]
  have hfits : cmd.Fits (eff.bytes (BitVec.ofInt t.width v)) := by
    unfold CommandData.Fits
    omega
  obtain ⟨hret, hcmd⟩ := parseOption_of_chunk hchunk hfits
  exact ⟨_, hfits, hret, accept_eq_some_iff.mpr ⟨by rw [hret]; decide, hcmd⟩, hlen,
    IntType.decode_bytes hpos h8 hv eff⟩

/-! ## The run -/

theorem order_of_parseEndian (host : Host) (cmd : CommandData) {text : Text}
    (h : text = str "LE" ∨ text = str "BE") :
    ∃ o, endianOf ⟨.endian, text⟩ = some o ∧
      (parseOption host cmd ⟨.endian, text⟩).retcode = .accepted ∧
      (parseOption host cmd ⟨.endian, text⟩).cmd = { cmd with bigEndian := decide (o = .big) } := by
  obtain rfl | rfl := h
  · exact ⟨.little, rfl, rfl, rfl⟩
  · exact ⟨.big, rfl, rfl, rfl⟩

theorem order_eq_of_bigEndian (cmd : CommandData) (o : ByteOrder) :
    ({ cmd with bigEndian := decide (o = .big) } : CommandData).order = o := by
  cases o <;> rfl

/-- From any state, a run of integers that fits is accepted in full, and what it
appends decodes to its values. -/
theorem IntRun.accepted (host : Host) {opts : List ArgV} {vs : List Int} (h : IntRun opts vs)
    (cmd : CommandData)
    (hfits : cmd.payloadBytes.toNat + totalWidth (pieces cmd.order opts) ≤ maxPacketSize) :
    (∀ c ∈ calls host cmd opts, (parseOption host c.1 c.2).retcode = .accepted) ∧
      ∃ cmd' bs, acceptAll host cmd opts = some cmd' ∧
        cmd'.payloadSlice = cmd.payloadSlice ++ bs ∧
        bs.length = totalWidth (pieces cmd.order opts) ∧
        decodeAll (pieces cmd.order opts) bs = vs := by
  induction h generalizing cmd with
  | nil => exact ⟨by simp [calls], cmd, [], rfl, by simp, rfl, rfl⟩
  | @endian text opts vs htext _ ih =>
    obtain ⟨o, ho, hret, hcmd⟩ := order_of_parseEndian host cmd htext
    have hacc : accept host cmd ⟨.endian, text⟩ =
        some { cmd with bigEndian := decide (o = .big) } :=
      accept_eq_some_iff.mpr ⟨by rw [hret]; decide, hcmd⟩
    have hpieces : pieces cmd.order (⟨.endian, text⟩ :: opts) = pieces o opts := by
      simp only [pieces, intType, ho, Option.getD_some]
    rw [hpieces] at hfits ⊢
    have hrest := ih { cmd with bigEndian := decide (o = .big) }
    rw [order_eq_of_bigEndian] at hrest
    obtain ⟨hcalls, cmd', bs, hrun, hslice, hlen, hdec⟩ := hrest hfits
    refine ⟨?_, cmd', bs, foldlM_cons_some.mpr ⟨_, hacc, hrun⟩, hslice, hlen, hdec⟩
    exact (forall_calls_cons hacc).mpr ⟨hret, hcalls⟩
  | @int id t text v opts vs hid htext hv _ ih =>
    have hpieces : pieces cmd.order (⟨id, text⟩ :: opts) =
        (t, effectiveOrder cmd.order ⟨id, text⟩) :: pieces cmd.order opts := by
      simp only [pieces, hid]
    rw [hpieces, totalWidth_cons] at hfits ⊢
    obtain ⟨bs₁, hfits₁, hret, hacc, hlen₁, hdec₁⟩ :=
      accept_int host cmd hid htext hv (by omega)
    have horder : (cmd.append bs₁).order = cmd.order := rfl
    have hrest := ih (cmd.append bs₁)
    rw [horder, toNat_payloadBytes_append hfits₁] at hrest
    obtain ⟨hcalls, cmd', bs, hrun, hslice, hlen, hdec⟩ := hrest (by omega)
    refine ⟨?_, cmd', bs₁ ++ bs, foldlM_cons_some.mpr ⟨_, hacc, hrun⟩, ?_, ?_, ?_⟩
    · exact (forall_calls_cons hacc).mpr ⟨hret, hcalls⟩
    · rw [hslice, payloadSlice_append hfits₁, List.append_assoc]
    · rw [List.length_append, hlen, hlen₁]
    · rw [decodeAll, List.take_left' hlen₁, List.drop_left' hlen₁, hdec, hdec₁]

/-- From a fresh encoder, every call of a run of integers is accepted, and the
payload decodes to the values of the run. -/
theorem decodeAll_payload (host : Host) {opts : List ArgV} {vs : List Int} (h : IntRun opts vs)
    (hfits : totalWidth (pieces .big opts) ≤ maxPacketSize) :
    (∀ c ∈ calls host instantiate opts, (parseOption host c.1 c.2).retcode = .accepted) ∧
      ∃ cmd, acceptAll host instantiate opts = some cmd ∧
        cmd.payloadBytes.toNat = totalWidth (pieces .big opts) ∧
        decodeAll (pieces .big opts) (cmd.payload.slice 0 cmd.payloadBytes.toNat) = vs := by
  have hzero : instantiate.payloadBytes.toNat = 0 := rfl
  have hempty : instantiate.payloadSlice = [] := rfl
  obtain ⟨hcalls, cmd, bs, hrun, hslice, hlen, hdec⟩ := h.accepted host instantiate
    (by rw [hzero, Nat.zero_add]; exact hfits)
  rw [hempty, List.nil_append] at hslice
  have hbytes : cmd.payloadBytes.toNat = bs.length := by rw [← hslice]; simp
  refine ⟨hcalls, cmd, hrun, hbytes.trans hlen, ?_⟩
  rw [← CommandData.payloadSlice, hslice]
  exact hdec

/-- The extreme values of two types, with a switch of the byte order. -/
theorem decodeAll_payload_extremes :
    ∃ cmd,
      acceptAll Host.little instantiate [⟨.int16, str "-32768"⟩, ⟨.endian, str "LE"⟩,
        ⟨.uint64, str "0xFFFFFFFFFFFFFFFF"⟩, ⟨.uint16b, str "017"⟩] = some cmd ∧
      decodeAll [(⟨true, 16⟩, .big), (⟨false, 64⟩, .little), (⟨false, 16⟩, .big)]
        (cmd.payload.slice 0 cmd.payloadBytes.toNat) = [-32768, 18446744073709551615, 15] := by
  have hrun : IntRun [⟨.int16, str "-32768"⟩, ⟨.endian, str "LE"⟩,
      ⟨.uint64, str "0xFFFFFFFFFFFFFFFF"⟩, ⟨.uint16b, str "017"⟩]
      [-32768, 18446744073709551615, 15] := by
    refine .int (t := ⟨true, 16⟩) rfl (.neg (n := 32768) (.decimal ?_ ?_)) (by decide)
      (.endian (.inl rfl) (.int (t := ⟨false, 64⟩) rfl
        (.nonneg (n := 18446744073709551615) (.hexadecimal ?_ ?_)) (by decide)
        (.int (t := ⟨false, 16⟩) rfl (.nonneg (n := 15) (.octal ?_)) (by decide) .nil)))
    all_goals decide
  obtain ⟨-, cmd, hacc, -, hdec⟩ := decodeAll_payload Host.little hrun (by decide)
  exact ⟨cmd, hacc, hdec⟩

end CmdSend.PassThru
