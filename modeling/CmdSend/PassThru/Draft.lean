-- SUMMARY: The packet that a list of options describes, on paper: a draft of its fields and its payload, which the encoder refines.
import CmdSend.PassThru.Independence
import CmdSend.PassThru.Capacity

/-!
# The draft of a packet

A draft knows nothing of the machine: its header words are numbers, its payload is a list,
and it remembers which fields have been given. `Draft.step` is an option and `Draft.packet`
the packet. The encoder, with its words in network order, its flags and its counter of 32
bits, goes through the same drafts (`Represents`) and builds the same packet.
-/

namespace CmdSend.PassThru

open CLib

instance (text : Text) : Decidable (WholeText text) := decidable_of_iff _ wholeText_iff.symm

/-! ## Drafts -/

/-- What the options so far say about the packet. -/
structure Draft where
  protocol : Protocol
  order : ByteOrder
  words : HdrWord → BitVec 16
  given : Field → Bool
  payload : List Byte

namespace Draft

/-- The draft before the first option. -/
def empty : Draft := ⟨.cfsv1, .big, fun _ => 0, fun _ => false, []⟩

/-- Write the number of a text into a field. -/
def assignField (d : Draft) (f : Field) (text : Text) : Draft :=
  { d with
    words := Function.update d.words f.word (assign f.mask (d.words f.word) (fieldBits f text))
    given := Function.update d.given f true }

/-- The field is one of the protocol, and the text is a numeral whose shifted value stays
within it. -/
def AllowsField (d : Draft) (f : Field) (text : Text) : Prop :=
  protocolIncludes d.protocol f.header = true ∧ WholeText text ∧
    (strtoul text).value.toNat % 2 ^ (64 - f.bits.lo) < 2 ^ f.bits.len

instance (d : Draft) (f : Field) (text : Text) : Decidable (d.AllowsField f text) :=
  inferInstanceAs (Decidable (_ ∧ _ ∧ _))

/-- Append the bytes of an option, if there are any and they fit. -/
def appendPayload (d : Draft) (bytes : Option (List Byte)) : Option Draft :=
  bytes.bind fun bs =>
    if (d.payload ++ bs).length ≤ maxPacketSize then some { d with payload := d.payload ++ bs }
    else none

/-- What an option adds to a draft, unless it is refused. -/
def step (host : Host) (d : Draft) (a : ArgV) : Option Draft :=
  match kind a.optionId with
  | .positional | .ignored => some d
  | .field f => if d.AllowsField f a.text then some (d.assignField f a.text) else none
  | .endian =>
    if a.text = str "LE" then some { d with order := .little }
    else if a.text = str "BE" then some { d with order := .big }
    else none
  | .protocol =>
    let p := getProtocolFromString a.text
    if p = .undefined then none else some { d with protocol := p }
  | _ => d.appendPayload (chunk host d.order a)

/-- The words of the headers of a protocol. -/
def headerWords (p : Protocol) : List HdrWord :=
  (if protocolIncludes p .pri then [.ccsdsPri 0, .ccsdsPri 1, .ccsdsPri 2] else []) ++
    ((if protocolIncludes p .ext then [.ccsdsExt 0, .ccsdsExt 1] else []) ++
      if protocolIncludes p .sec then [.cfsCmdSecHdr] else [])

/-- The fields that are all ones unless they are given. -/
def onesByDefault (d : Draft) : Field → Bool
  | .type => !d.given .type
  | .secHdr => !d.given .secHdr && protocolIncludes d.protocol .sec
  | .seqFlags => !d.given .seqFlags
  | .endian => !d.given .endian && decide (d.order = .little)
  | _ => false

/-- The bytes of the headers and the payload together. -/
def size (d : Draft) : Nat := headerLength d.protocol + d.payload.length

/-- A header word with the defaults for what is not given, the checksum apart. -/
def word (d : Draft) (w : HdrWord) : BitVec 16 :=
  if w = .ccsdsPri 2 then
    if d.given .length then d.words w else BitVec.ofNat 16 d.size - 7
  else
    [Field.type, .secHdr, .seqFlags, .endian].foldl
      (fun x f => if d.onesByDefault f = true ∧ w = f.word then x ||| f.mask else x) (d.words w)

/-- The bytes of the headers. Unless it is given, the checksum is that of these bytes, and
stands in the last one. -/
def headers (d : Draft) : List Byte :=
  let plain := (headerWords d.protocol).flatMap fun w => ByteOrder.big.bytes (d.word w)
  if protocolIncludes d.protocol .sec = true ∧ d.given .checksum = false then
    plain.dropLast ++ [checkByte 0xFF plain]
  else plain

/-- The packet, if it has a byte and is not too long to be sent. -/
def packet (d : Draft) : Option (List Byte) :=
  if d.size ≤ maxPacketSize ∧ d.size ≠ 0 then some (d.headers ++ d.payload) else none

end Draft

/-- The packet that some options describe. -/
def describe (host : Host) (opts : List ArgV) : Option (List Byte) :=
  (opts.foldlM (Draft.step host) .empty).bind Draft.packet

/-! ## The encoder and the draft -/

/-- The encoder is at a draft. -/
structure Represents (host : Host) (d : Draft) (cmd : CommandData) : Prop where
  includes : ∀ h, cmd.includes h = protocolIncludes d.protocol h
  order : cmd.order = d.order
  words : ∀ w, cmd.word host w = d.words w
  given : ∀ f : Field, f.hasOverride → f.overridden cmd = d.given f
  payload : cmd.payloadSlice = d.payload
  inBounds : cmd.InBounds

/-- No string announces a length that the counter of 32 bits cannot add. -/
def ShortString (a : ArgV) : Prop :=
  kind a.optionId = .string → ∀ p ∈ stringParts a.text, p.2 + maxPacketSize < 2 ^ 32

instance (a : ArgV) : Decidable (ShortString a) := inferInstanceAs (Decidable (_ → _))

/-- The sums of a short string do not wrap. -/
theorem ShortString.sumsFit {cmd : CommandData} {a : ArgV} (h : ShortString a)
    (hin : cmd.InBounds) : SumsFit cmd a := by
  intro hstring s n hparts
  have hshort := h (by rw [hstring]; rfl) (s, n) hparts
  obtain ⟨_, _, _, _, hle⟩ := stringParts_eq_some_iff.mp hparts
  unfold CommandData.InBounds at hin
  unfold maxPacketSize at hin hshort ⊢
  omega

section

variable {host : Host} {d : Draft} {cmd : CommandData} {a : ArgV}

theorem represents_empty (host : Host) : Represents host .empty instantiate where
  includes h := by cases h <;> rfl
  order := rfl
  words w := word_instantiate host w
  given f _ := by cases f <;> rfl
  payload := rfl
  inBounds := inBounds_instantiate

theorem Represents.toNat_payloadBytes (h : Represents host d cmd) :
    cmd.payloadBytes.toNat = d.payload.length := by
  rw [← h.payload, CommandData.length_payloadSlice]

/-- The bytes of a payload option that is accepted fit behind the payload. -/
theorem chunk_fits_of_accept {cmd' : CommandData} (hin : cmd.InBounds) (hshort : ShortString a)
    (hpay : (kind a.optionId).isPayload = true) (hacc : accept host cmd a = some cmd') :
    ∃ bs, chunk host cmd.order a = some bs ∧ cmd.Fits bs := by
  by_cases hstring : kind a.optionId = .string
  · obtain ⟨s, n, hparts, hparse⟩ := stringParts_of_accept hstring hacc
    obtain ⟨hret, -⟩ := accept_eq_some_iff.mp hacc
    obtain ⟨_, _, _, _, hle⟩ := stringParts_eq_some_iff.mp hparts
    refine ⟨s ++ List.replicate (n - s.length) 0, by simp [chunk, hstring, hparts], ?_⟩
    have hbytes := @payloadBytes_copyAndPad cmd s n hle (by rwa [hparse] at hret)
    have hin' := inBounds_of_accept hin hacc
    have hsmall := hshort hstring (s, n) hparts
    obtain ⟨-, hcmd⟩ := accept_eq_some_iff.mp hacc
    rw [hparse] at hcmd
    rw [hcmd] at hbytes
    unfold CommandData.InBounds at hin hin'
    rw [hbytes, toNat_sum, BitVec.toNat_ofNat] at hin'
    unfold maxPacketSize at hin hin' hsmall
    unfold CommandData.Fits maxPacketSize
    rw [List.length_append, List.length_replicate]
    omega
  · obtain ⟨x, hx, hfits, -⟩ := append_of_accept_number hin hpay hstring hacc
    refine ⟨_, ?_, hfits⟩
    unfold chunk
    split
    · contradiction
    · rw [hx]
      rfl

/-- A payload option goes through where the draft has it. -/
theorem Represents.step_payload (h : Represents host d cmd) (hshort : ShortString a)
    (hpay : (kind a.optionId).isPayload = true) :
    Option.Rel (Represents host) (d.appendPayload (chunk host d.order a)) (accept host cmd a) := by
  cases hacc : accept host cmd a with
  | some cmd' =>
    obtain ⟨bs, hbs, hfits⟩ := chunk_fits_of_accept h.inBounds hshort hpay hacc
    obtain ⟨hret, hcmd⟩ := parseOption_of_chunk hbs hfits
    obtain ⟨-, rfl⟩ := accept_eq_some_iff.mp hacc
    have hlen : (d.payload ++ bs).length ≤ maxPacketSize := by
      unfold CommandData.Fits at hfits
      rw [h.toNat_payloadBytes] at hfits
      rwa [List.length_append]
    rw [h.order] at hbs
    rw [hbs, Draft.appendPayload, Option.bind_some, if_pos hlen, hcmd]
    refine .some ⟨?_, h.order, h.words, ?_, ?_, ?_⟩
    · exact fun hdr => (h.includes hdr).symm ▸ by cases hdr <;> rfl
    · exact fun f hf => (h.given f hf) ▸ by cases f <;> rfl
    · rw [payloadSlice_append hfits, h.payload]
    · rw [CommandData.InBounds, toNat_payloadBytes_append hfits]
      exact hfits
  | none =>
    have hno : d.appendPayload (chunk host d.order a) = none := by
      cases hbs : chunk host d.order a with
      | none => rfl
      | some bs =>
        rw [Draft.appendPayload, Option.bind_some, if_neg]
        intro hlen
        have hfits : cmd.Fits bs := by
          rw [List.length_append] at hlen
          rwa [CommandData.Fits, h.toNat_payloadBytes]
        rw [← h.order] at hbs
        obtain ⟨hret, -⟩ := parseOption_of_chunk hbs hfits
        rw [accept_eq_none_iff.mp hacc] at hret
        cases hret
    rw [hno]
    exact .none

/-- A field that is assigned on both sides. -/
theorem Represents.assignField (h : Represents host d cmd) (f : Field) (text : Text) :
    Represents host (d.assignField f text)
      (f.setOverride (cmd.assignWord host f.word f.mask (fieldBits f text))) where
  includes hdr := by
    rw [CommandData.includes_setOverride]
    exact (h.includes hdr).symm ▸ by cases hdr <;> rfl
  order := h.order ▸ by cases f <;> rfl
  words w := by
    have hwords : (d.assignField f text).words =
        Function.update d.words f.word (assign f.mask (d.words f.word) (fieldBits f text)) := rfl
    rw [CommandData.word_setOverride, CommandData.assignWord, hwords]
    by_cases hw : w = f.word
    · subst hw
      rw [CommandData.word_setWord_same, Function.update_self, h.words]
    · rw [CommandData.word_setWord_ne hw, Function.update_of_ne hw, h.words]
  given g hg := by
    have hgiven : (d.assignField f text).given = Function.update d.given f true := rfl
    rw [hgiven]
    by_cases hfg : g = f
    · subst hfg
      rw [Field.overridden_setOverride_same hg, Function.update_self]
    · rw [Field.overridden_setOverride_ne hfg, Function.update_of_ne hfg, ← h.given g hg]
      cases g <;> rfl
  payload := h.payload ▸ by cases f <;> rfl
  inBounds := inBounds_setOverride f h.inBounds

/-- An option that is not for the payload goes through where the draft has it. -/
theorem Represents.step_update (h : Represents host d cmd)
    (hpay : (kind a.optionId).isPayload = false) :
    Option.Rel (Represents host) (d.step host a) (accept host cmd a) := by
  obtain ⟨hpass, hfail⟩ := accept_update host cmd hpay
  cases hk : kind a.optionId with
  | positional | ignored =>
    rw [hpass (by simp [Passes, hk])]
    simp only [Draft.step, act, hk]
    exact .some ⟨h.includes, h.order, h.words, h.given, h.payload, h.inBounds⟩
  | field f =>
    have hiff : d.AllowsField f a.text ↔ Passes a cmd := by
      simp only [Draft.AllowsField, Passes, hk, h.includes]
    simp only [Draft.step, hk]
    by_cases hallows : d.AllowsField f a.text
    · rw [if_pos hallows, hpass (hiff.mp hallows)]
      simp only [act, hk]
      exact .some (h.assignField f a.text)
    · rw [if_neg hallows, hfail fun hp => hallows (hiff.mpr hp)]
      exact .none
  | endian =>
    have hne : str "LE" ≠ str "BE" := by decide
    simp only [Draft.step, hk]
    simp only [Passes, act, hk] at hpass hfail
    by_cases hle : a.text = str "LE"
    · rw [if_pos hle, hpass (Or.inl hle), hle, decide_eq_false hne]
      exact .some ⟨h.includes, rfl, h.words, h.given, h.payload, h.inBounds⟩
    · by_cases hbe : a.text = str "BE"
      · rw [if_neg hle, if_pos hbe, hpass (Or.inr hbe), hbe, decide_eq_true rfl]
        exact .some ⟨h.includes, rfl, h.words, h.given, h.payload, h.inBounds⟩
      · rw [if_neg hle, if_neg hbe, hfail (not_or.mpr ⟨hle, hbe⟩)]
        exact .none
  | protocol =>
    simp only [Draft.step, hk]
    simp only [Passes, act, hk] at hpass hfail
    by_cases hp : getProtocolFromString a.text = .undefined
    · rw [if_pos hp, hfail fun hne => hne hp]
      exact .none
    · rw [if_neg hp, hpass hp]
      exact .some ⟨CommandData.includes_withProtocol cmd _, h.order, h.words, h.given, h.payload,
        h.inBounds⟩
  | _ => simp [hk, Kind.isPayload] at hpay

/-- The encoder takes or refuses an option as the draft does. -/
theorem Represents.step (h : Represents host d cmd) (hshort : ShortString a) :
    Option.Rel (Represents host) (d.step host a) (accept host cmd a) := by
  cases hpay : (kind a.optionId).isPayload with
  | false => exact h.step_update hpay
  | true =>
    have hstep : d.step host a = d.appendPayload (chunk host d.order a) := by
      unfold Draft.step
      cases hk : kind a.optionId <;> simp [hk, Kind.isPayload] at hpay ⊢
    rw [hstep]
    exact h.step_payload hshort hpay

/-- The encoder goes through the drafts of its options. -/
theorem Represents.run {opts : List ArgV} (h : Represents host d cmd)
    (hshort : ∀ a ∈ opts, ShortString a) :
    Option.Rel (Represents host) (opts.foldlM (Draft.step host) d) (acceptAll host cmd opts) :=
  foldlM_rel (fun a ha _ _ hat => hat.step (hshort a ha)) h

/-! ## The packet -/

theorem headerWords_of_represents (h : Represents host d cmd) :
    cmd.headerWords = Draft.headerWords d.protocol := by
  have hpri : cmd.includeCCSDSPri = protocolIncludes d.protocol .pri := h.includes .pri
  have hext : cmd.includeCCSDSExt = protocolIncludes d.protocol .ext := h.includes .ext
  have hsec : cmd.includeCFSSec = protocolIncludes d.protocol .sec := h.includes .sec
  unfold CommandData.headerWords Draft.headerWords
  rw [hpri, hext, hsec]
  rfl

theorem packedSize_of_represents (h : Represents host d cmd) : cmd.packedSize = d.size := by
  rw [packedSize_of_includes host h.includes, h.payload]
  rfl

theorem defaultsTo1_of_represents (h : Represents host d cmd) (f : Field) :
    cmd.defaultsTo1 f = d.onesByDefault f := by
  have hendian : cmd.bigEndian = decide (d.order = .big) := by
    rw [← h.order, CommandData.order]
    cases cmd.bigEndian <;> rfl
  have htype := h.given .type rfl
  have hsec := h.given .secHdr rfl
  have hflags := h.given .seqFlags rfl
  have horder := h.given .endian rfl
  have hincludes := h.includes .sec
  simp only [Field.overridden, CommandData.includes] at htype hsec hflags horder hincludes
  unfold CommandData.defaultsTo1 Draft.onesByDefault
  rw [htype, hsec, hflags, horder, hincludes, hendian]
  cases d.order <;> cases f <;> rfl

/-- The length that the encoder computes in 64 bits. -/
theorem setWidth_length (n : Nat) :
    (BitVec.ofNat 64 n - 7).setWidth 16 = BitVec.ofNat 16 n - 7 := by
  have h64 : (7 : BitVec 64).toNat = 7 := rfl
  have h16 : (7 : BitVec 16).toNat = 7 := rfl
  apply BitVec.eq_of_toNat_eq
  simp only [BitVec.toNat_setWidth, BitVec.toNat_sub, BitVec.toNat_ofNat, h64, h16]
  omega

/-- The words that are sent, the checksum apart. -/
theorem word_of_represents (h : Represents host d cmd) (w : HdrWord) :
    (cmd.setDefaults host cmd.packedSize).word host w = d.word w := by
  have hlen := h.given .length rfl
  unfold Draft.word
  by_cases hw : w = .ccsdsPri 2
  · subst hw
    rw [if_pos rfl]
    cases hgiven : d.given .length with
    | true =>
      rw [hgiven] at hlen
      rw [if_pos rfl, length_setDefaults_of_override host cmd hlen, h.words]
    | false =>
      rw [hgiven] at hlen
      rw [if_neg Bool.false_ne_true, length_setDefaults host cmd hlen, packedSize_of_represents h,
        setWidth_length]
  · have hor : ∀ (x : BitVec 16) (f : Field),
        (if d.onesByDefault f = true ∧ w = f.word then x ||| f.mask else x) =
          x ||| CommandData.maskWhen (d.onesByDefault f) f w := by
      intro x f
      unfold CommandData.maskWhen
      split
      · rfl
      · exact BitVec.or_zero.symm
    rw [if_neg hw, CommandData.word_setDefaults host cmd _ hw, CommandData.defaultMask]
    simp only [defaultsTo1_of_represents h, List.foldl_cons, List.foldl_nil, hor, h.words,
      BitVec.or_assoc]

/-- The header bytes that are sent. -/
theorem headerBytes_of_represents (h : Represents host d cmd) :
    (cmd.setDefaults host cmd.packedSize).headerBytes host = d.headers := by
  have hword := word_of_represents h
  have hwords := headerWords_of_represents h
  have hsec : cmd.includeCFSSec = protocolIncludes d.protocol .sec := h.includes .sec
  have hcksum : cmd.overridePktCksum = d.given .checksum := h.given .checksum rfl
  have hframe := cmd.setDefaults_frame host cmd.packedSize
  generalize cmd.setDefaults host cmd.packedSize = sent at hword hframe ⊢
  have hsec' : sent.includeCFSSec = protocolIncludes d.protocol .sec := by rw [hframe]; exact hsec
  have hcksum' : sent.overridePktCksum = d.given .checksum := by rw [hframe]; exact hcksum
  have hplain : sent.bigBytes host sent.headerWords =
      (Draft.headerWords d.protocol).flatMap fun w => ByteOrder.big.bytes (d.word w) := by
    have hsent : sent.headerWords = Draft.headerWords d.protocol := by
      rw [← hwords, hframe]
      rfl
    rw [hsent, CommandData.bigBytes]
    simp only [hword]
  unfold Draft.headers
  simp only
  by_cases hcheck : protocolIncludes d.protocol .sec = true ∧ d.given .checksum = false
  · obtain ⟨hbytes, hheader⟩ := sent.headerBytes_of_checksum host (hsec'.trans hcheck.1)
      (hcksum'.trans hcheck.2)
    rw [if_pos hcheck, ← hplain, hbytes, hheader, List.dropLast_concat]
  · have hno : (sent.includeCFSSec && !sent.overridePktCksum) = false := by
      rw [hsec', hcksum']
      simpa using hcheck
    rw [if_neg hcheck, ← hplain, sent.headerBytes_of_plain host hno]

/-- What the encoder packs at a draft. -/
theorem packed_of_represents (h : Represents host d cmd) (out : Mem) :
    let r := getPackedObject host cmd out maxPacketSize
    (if r.ok = true ∧ r.size ≠ 0 then some (r.out.slice 0 r.size) else none) = d.packet := by
  have hsize := packedSize_of_represents h
  have hpack := getPackedObject_eq host cmd out maxPacketSize
  unfold Draft.packet
  by_cases hfits : d.size ≤ maxPacketSize
  · rw [if_pos (hsize ▸ hfits)] at hpack
    simp only [hpack]
    by_cases hzero : d.size = 0
    · rw [if_neg fun hh => hh.2 (hsize.trans hzero), if_neg fun hh => hh.2 hzero]
    · have hpayload := (cmd.payloadSlice_setDefaults host cmd.packedSize).trans h.payload
      have hbytes : (cmd.setDefaults host cmd.packedSize).packetBytes host =
          d.headers ++ d.payload := by
        rw [CommandData.packetBytes, headerBytes_of_represents h, hpayload]
      have hlen : cmd.packedSize = (d.headers ++ d.payload).length := by
        rw [← hbytes, CommandData.length_packetBytes, CommandData.packedSize_setDefaults]
      rw [if_pos ⟨trivial, hsize ▸ hzero⟩, if_pos ⟨hfits, hzero⟩, hbytes, hlen, Mem.slice_copy_same]
  · rw [if_neg (hsize ▸ hfits)] at hpack
    simp only [hpack]
    rw [if_neg fun hh => Bool.false_ne_true hh.1, if_neg fun hh => hfits hh.1]

/-- What the encoder packs after some options, when it refuses none of them. -/
def packAfter (host : Host) (opts : List ArgV) (out : Mem) : Option (List Byte) :=
  (acceptAll host instantiate opts).bind fun cmd =>
    let r := getPackedObject host cmd out maxPacketSize
    if r.ok = true ∧ r.size ≠ 0 then some (r.out.slice 0 r.size) else none

/-- The encoder refuses an option exactly where the draft does, and packs the packet that
the options describe. -/
theorem packAfter_eq_describe {opts : List ArgV} (hshort : ∀ a ∈ opts, ShortString a)
    (out : Mem) : packAfter host opts out = describe host opts := by
  have hrun := (represents_empty host).run hshort
  unfold packAfter describe
  generalize opts.foldlM (Draft.step host) .empty = od at hrun
  generalize acceptAll host instantiate opts = oc at hrun
  cases hrun with
  | none => rfl
  | some h => exact packed_of_represents h out

/-- The byte order of the machine does not show. -/
theorem packAfter_eq_of_hosts {host' : Host} (hd : host.strtod = host'.strtod)
    (hf : host.strtof = host'.strtof) {opts : List ArgV} (hshort : ∀ a ∈ opts, ShortString a)
    (out out' : Mem) : packAfter host opts out = packAfter host' opts out' := by
  have hchunk : chunk host = chunk host' := by
    unfold chunk number
    rw [hd, hf]
  have hstep : Draft.step host = Draft.step host' := by
    unfold Draft.step
    rw [hchunk]
  rw [packAfter_eq_describe hshort, packAfter_eq_describe hshort, describe, describe, hstep]

/-- The encoder implements the draft on some options. -/
structure RefinesDraft (host : Host) (opts : List ArgV) (out : Mem) : Prop where
  /-- It refuses an option where the draft does, and stands at the draft of the others. -/
  states : Option.Rel (Represents host) (opts.foldlM (Draft.step host) .empty)
    (acceptAll host instantiate opts)
  packet : packAfter host opts out = describe host opts

theorem refinesDraft {opts : List ArgV} (hshort : ∀ a ∈ opts, ShortString a) (out : Mem) :
    RefinesDraft host opts out where
  states := (represents_empty host).run hshort
  packet := packAfter_eq_describe hshort out

end

/-- A little-endian number behind a string that is padded. -/
theorem refinesDraft_string :
    packAfter Host.little [⟨.string, str "4:ab"⟩, ⟨.endian, str "LE"⟩, ⟨.uint16, str "0x102"⟩,
      ⟨.pktapid, str "6"⟩] (fun _ => 0) =
        some [0x18, 6, 0xC0, 0, 0, 7, 0, 0x26, 97, 98, 0, 0, 2, 1] :=
  (refinesDraft (by decide) fun _ => 0).packet.trans (by decide)

/-- A machine of the other byte order. -/
def Host.swapped : Host := { Host.little with order := .big }

theorem packAfter_eq_of_hosts_swapped :
    packAfter Host.little [⟨.uint32, str "5"⟩] (fun _ => 0) =
      packAfter Host.swapped [⟨.uint32, str "5"⟩] fun _ => 1 := by
  have hd : Host.little.strtod = Host.swapped.strtod := rfl
  have hf : Host.little.strtof = Host.swapped.strtof := rfl
  have hshort : ∀ a ∈ [(⟨.uint32, str "5"⟩ : ArgV)], ShortString a := by decide
  exact packAfter_eq_of_hosts hd hf hshort (fun _ => 0) fun _ => 1

end CmdSend.PassThru
