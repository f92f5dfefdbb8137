-- SUMMARY: A decoder for the CCSDS layout, and what it reads from the packet of a run: fields, length and checksum.
import CmdSend.PassThru.Header

/-!
# Decoding a packet

`decodeField` reads a named field from the bytes of a packet, at the place that
the CCSDS layout and the protocol give it.
-/

namespace CmdSend.PassThru

open CLib

/-- The bytes of the packet. -/
def Packed.bytes (r : Packed) : List Byte := r.out.slice 0 r.size

/-! ## The decoder -/

/-- Where a header starts: the primary header has six bytes and the extended
header, if it is there, has four. -/
def headerOffset (p : Protocol) : Header → Nat
  | .pri => 0
  | .ext => 6
  | .sec => if protocolIncludes p .ext then 10 else 6

namespace HdrWord

def header : HdrWord → Header
  | .ccsdsPri _ => .pri
  | .ccsdsExt _ => .ext
  | .cfsCmdSecHdr => .sec

/-- The index of a word in its header. -/
def index : HdrWord → Nat
  | .ccsdsPri i => i
  | .ccsdsExt i => i
  | .cfsCmdSecHdr => 0

/-- Where a word starts in the packet. -/
def offset (p : Protocol) (w : HdrWord) : Nat := headerOffset p w.header + 2 * w.index

end HdrWord

/-- Read a field from the bytes of a packet. -/
def decodeField (p : Protocol) (packet : List Byte) (f : Field) : Nat :=
  (f.bits.read (decodeWord packet (f.word.offset p))).toNat

/-! ## Words of a packet -/

theorem header_word (f : Field) : f.header = f.word.header := by
  cases f <;> rfl

theorem headerWords_getElem? {cmd : CommandData} {p : Protocol}
    (h : ∀ hdr, cmd.includes hdr = protocolIncludes p hdr) {w : HdrWord}
    (hw : protocolIncludes p w.header = true) :
    ∃ i, cmd.headerWords[i]? = some w ∧ w.offset p = 2 * i := by
  have hpri : cmd.includeCCSDSPri = protocolIncludes p .pri := h .pri
  have hext : cmd.includeCCSDSExt = protocolIncludes p .ext := h .ext
  have hsec : cmd.includeCFSSec = protocolIncludes p .sec := h .sec
  refine ⟨w.offset p / 2, ?_, ?_⟩
  · unfold CommandData.headerWords
    rw [hpri, hext, hsec]
    cases p <;> cases w with
    | ccsdsPri i | ccsdsExt i =>
      clear hpri hext hsec h
      revert i
      decide
    | cfsCmdSecHdr =>
      clear hpri hext hsec h
      revert hw
      decide
  · unfold HdrWord.offset
    cases w with
    | ccsdsPri _ => simp [HdrWord.header, headerOffset]
    | ccsdsExt _ => simp [HdrWord.header, headerOffset]; omega
    | cfsCmdSecHdr =>
      simp only [HdrWord.header, headerOffset]
      split <;> rfl

/-- A call of the packer that succeeds. -/
theorem getPackedObject_of_ok {host : Host} {cmd : CommandData} {out : Mem} {sz : Nat}
    (h : (getPackedObject host cmd out sz).ok = true) :
    (getPackedObject host cmd out sz).size = cmd.packedSize ∧
      (getPackedObject host cmd out sz).bytes =
        (cmd.setDefaults host cmd.packedSize).packetBytes host := by
  rw [getPackedObject_eq] at h ⊢
  split at h
  · rename_i hfits
    simp only [if_pos hfits, Packed.bytes, true_and]
    have hlen : cmd.packedSize =
        ((cmd.setDefaults host cmd.packedSize).packetBytes host).length := by
      rw [CommandData.length_packetBytes, CommandData.setDefaults_frame host cmd cmd.packedSize]
      rfl
    have hslice := Mem.slice_copy_same out 0
      ((cmd.setDefaults host cmd.packedSize).packetBytes host)
    rwa [← hlen] at hslice
  · cases h

/-- A run whose packet fits, with what a decidable property says of the packet. -/
theorem exists_packed (host : Host) (opts : List ArgV) (out : Mem) (sz : Nat)
    (P : Packed → Prop) [DecidablePred P]
    (h : (acceptAll host instantiate opts).map (fun cmd =>
      let r := getPackedObject host cmd out sz
      (r.ok, decide (P r))) = some (true, true)) :
    ∃ cmd, acceptAll host instantiate opts = some cmd ∧
      (getPackedObject host cmd out sz).ok = true ∧ P (getPackedObject host cmd out sz) := by
  obtain ⟨cmd, hrun, heq⟩ := Option.map_eq_some_iff.mp h
  obtain ⟨hok, hP⟩ := Prod.mk.inj heq
  exact ⟨cmd, hrun, hok, of_decide_eq_true hP⟩

section

variable {host : Host} {opts : List ArgV} {cmd : CommandData} {out : Mem} {sz : Nat}

/-- A decoder finds every word of the selected headers. -/
theorem decodeWord_packet (hrun : acceptAll host instantiate opts = some cmd)
    (hpack : (getPackedObject host cmd out sz).ok = true) {w : HdrWord}
    (hw : protocolIncludes (protocolInForce opts) w.header = true) :
    decodeWord (getPackedObject host cmd out sz).bytes (w.offset (protocolInForce opts)) =
      (cmd.setDefaults host cmd.packedSize).sentWord host w := by
  have hincludes : ∀ hdr, (cmd.setDefaults host cmd.packedSize).includes hdr =
      protocolIncludes (protocolInForce opts) hdr := by
    intro hdr
    rw [CommandData.setDefaults_frame]
    refine Eq.trans ?_ ((tracks_of_acceptAll hrun).includes hdr)
    cases hdr <;> rfl
  obtain ⟨i, hget, hoff⟩ := headerWords_getElem? hincludes hw
  rw [(getPackedObject_of_ok hpack).2, hoff]
  exact decodeWord_flatMap _ hget _

/-! ## Fields -/

/-- The value of a field when no option has set it. The length and the checksum
have none of their own: they depend on the packet. -/
def defaultValue (opts : List ArgV) : Field → Option Nat
  | .type => some 1
  | .secHdr => some (if protocolIncludes (protocolInForce opts) .sec then 1 else 0)
  | .seqFlags => some 3
  | .endian => some (if endianInForce opts = .little then 1 else 0)
  | .length | .checksum => none
  | _ => some 0

/-- The value that a field should have: that of its last option, or the default. -/
def expectedValue (opts : List ArgV) (f : Field) : Option Nat :=
  (lastOf (fieldValueOf f) opts).or (defaultValue opts f)

/-- The number of an option for a field is in the range of the field. -/
def inRange (a : ArgV) : Bool :=
  match kind a.optionId with
  | .field f => (strtoul a.text).value.toNat < 2 ^ f.bits.len
  | _ => true

theorem lt_of_lastOf {f : Field} {v : Nat} (hrange : ∀ a ∈ opts, inRange a)
    (h : lastOf (fieldValueOf f) opts = some v) : v < 2 ^ f.bits.len := by
  obtain ⟨a, ha, hv⟩ := List.exists_of_findSome?_eq_some h
  have hr := hrange a (List.mem_reverse.mp ha)
  unfold fieldValueOf at hv
  split at hv
  · rename_i hk
    obtain rfl := Option.some.inj hv
    simpa [inRange, hk] using hr
  · cases hv

theorem overridden_of_lastOf {f : Field} (h : Tracks opts cmd) (hf : f.hasOverride = true)
    {v : Nat} (hv : lastOf (fieldValueOf f) opts = some v) : f.overridden cmd = true := by
  rw [h.overridden f hf, hv]
  rfl

/-- The packer does not touch a field that an option has set. -/
theorem defaultsTo1_of_some {f : Field} (h : Tracks opts cmd) {v : Nat}
    (hv : lastOf (fieldValueOf f) opts = some v) : cmd.defaultsTo1 f = false := by
  have hover := fun hf => overridden_of_lastOf h hf hv
  cases f <;> simp_all [CommandData.defaultsTo1, Field.overridden, Field.hasOverride]

/-- A field that no option has set gets its default. -/
theorem field_default {f : Field} (h : Tracks opts cmd)
    (hnone : lastOf (fieldValueOf f) opts = none) {v : Nat} (hv : defaultValue opts f = some v) :
    (if cmd.defaultsTo1 f then BitVec.allOnes f.bits.len else 0).toNat = v := by
  have hover : f.hasOverride = true → f.overridden cmd = false := by
    intro hf
    rw [h.overridden f hf, hnone]
    rfl
  have hsec : cmd.includeCFSSec = protocolIncludes (protocolInForce opts) .sec := h.includes .sec
  have hbig := h.bigEndian
  cases f with
  | length | checksum => cases hv
  | type | seqFlags =>
    obtain rfl := Option.some.inj hv
    have := hover rfl
    simp only [Field.overridden] at this
    simp [CommandData.defaultsTo1, this, Field.bits]
  | secHdr =>
    obtain rfl := Option.some.inj hv
    have := hover rfl
    simp only [Field.overridden] at this
    simp only [CommandData.defaultsTo1, this, hsec]
    cases protocolIncludes (protocolInForce opts) .sec <;> rfl
  | endian =>
    obtain rfl := Option.some.inj hv
    have := hover rfl
    simp only [Field.overridden] at this
    simp only [CommandData.defaultsTo1, this, hbig]
    cases endianInForce opts <;> rfl
  | _ =>
    obtain rfl := Option.some.inj hv
    rfl

/-- A field that an option has set is read back, as far as it fits. -/
theorem decodeField_of_some (hrun : acceptAll host instantiate opts = some cmd)
    (hpack : (getPackedObject host cmd out sz).ok = true) {f : Field} (hf : f ≠ .pktid)
    (hpktid : ∀ a ∈ opts, f.word = Field.pktid.word → a.optionId ≠ .pktid)
    (hincluded : protocolIncludes (protocolInForce opts) f.header = true) {v : Nat}
    (hlast : lastOf (fieldValueOf f) opts = some v) :
    decodeField (protocolInForce opts) (getPackedObject host cmd out sz).bytes f =
      v % 2 ^ f.bits.len := by
  have htracks := tracks_of_acceptAll hrun
  have hfield := field_of_acceptAll hf hpktid hrun
  have hcksum : f = .checksum →
      (cmd.setDefaults host cmd.packedSize).overridePktCksum = true := by
    rintro rfl
    rw [CommandData.setDefaults_frame]
    exact overridden_of_lastOf htracks rfl hlast
  have hsent : (cmd.setDefaults host cmd.packedSize).field host f = cmd.field host f := by
    by_cases hlen : f = .length
    · subst hlen
      have hover : cmd.overridePktLen = true := overridden_of_lastOf htracks rfl hlast
      exact congrArg (Field.length.bits.read ·) (length_setDefaults_of_override host cmd hover _)
    · rw [field_setDefaults host cmd _ hf hlen, defaultsTo1_of_some htracks hlast]
      rfl
  rw [header_word] at hincluded
  rw [decodeField, decodeWord_packet hrun hpack hincluded, read_sentWord host _ hf hcksum, hsent,
    hfield, hlast, BitVec.toNat_ofNat]
  rfl

/-- A field that no option has set is read back as its default. -/
theorem decodeField_of_none (hrun : acceptAll host instantiate opts = some cmd)
    (hpack : (getPackedObject host cmd out sz).ok = true) {f : Field} (hf : f ≠ .pktid)
    (hpktid : ∀ a ∈ opts, f.word = Field.pktid.word → a.optionId ≠ .pktid)
    (hincluded : protocolIncludes (protocolInForce opts) f.header = true)
    (hlast : lastOf (fieldValueOf f) opts = none) {v : Nat} (hv : defaultValue opts f = some v) :
    decodeField (protocolInForce opts) (getPackedObject host cmd out sz).bytes f = v := by
  have hfield := field_of_acceptAll hf hpktid hrun
  have hcksum : f ≠ .checksum := by
    rintro rfl
    cases hv
  have hlen : f ≠ .length := by
    rintro rfl
    cases hv
  rw [header_word] at hincluded
  rw [decodeField, decodeWord_packet hrun hpack hincluded,
    read_sentWord host _ hf fun heq => absurd heq hcksum, field_setDefaults host cmd _ hf hlen,
    hfield, hlast]
  exact field_default (tracks_of_acceptAll hrun) hlast hv

/-- Every named field of a selected header is read back as expected. -/
theorem decodeField_of_acceptAll (hrun : acceptAll host instantiate opts = some cmd)
    (hpktid : ∀ a ∈ opts, a.optionId ≠ .pktid) (hrange : ∀ a ∈ opts, inRange a)
    (hpack : (getPackedObject host cmd out sz).ok = true) {f : Field} (hf : f ≠ .pktid)
    (hincluded : protocolIncludes (protocolInForce opts) f.header = true) {v : Nat}
    (hv : expectedValue opts f = some v) :
    decodeField (protocolInForce opts) (getPackedObject host cmd out sz).bytes f = v := by
  have hid : ∀ a ∈ opts, f.word = Field.pktid.word → a.optionId ≠ .pktid :=
    fun a ha _ => hpktid a ha
  unfold expectedValue at hv
  cases hlast : lastOf (fieldValueOf f) opts with
  | some v' =>
    rw [hlast] at hv
    obtain rfl := Option.some.inj hv
    rw [decodeField_of_some hrun hpack hf hid hincluded hlast]
    exact Nat.mod_eq_of_lt (lt_of_lastOf hrange hlast)
  | none =>
    rw [hlast] at hv
    exact decodeField_of_none hrun hpack hf hid hincluded hlast hv

end

/-- Setting the APID and the function code of the default protocol. -/
theorem decodeField_of_acceptAll_apid :
    ∃ cmd,
      acceptAll Host.little instantiate [⟨.pktapid, str "5"⟩, ⟨.cmdcode, str "2"⟩] = some cmd ∧
      decodeField .cfsv1 (getPackedObject Host.little cmd (fun _ => 0) 2048).bytes .apid = 5 := by
  obtain ⟨cmd, hrun, hok, -⟩ := exists_packed Host.little
    [⟨.pktapid, str "5"⟩, ⟨.cmdcode, str "2"⟩] (fun _ => 0) 2048
    (fun _ => True) (by decide)
  exact ⟨cmd, hrun, decodeField_of_acceptAll hrun (by decide) (by decide) hok
    (f := .apid) (by decide) (by decide) (by decide)⟩

/-! ## The length -/

section

variable {host : Host} {opts : List ArgV} {cmd : CommandData} {out : Mem} {sz : Nat}

theorem overridden_eq_false (h : Tracks opts cmd) {f : Field} (hf : f.hasOverride = true)
    (hno : ∀ a ∈ opts, kind a.optionId ≠ .field f) : f.overridden cmd = false := by
  have hnone : lastOf (fieldValueOf f) opts = none :=
    lastOf_eq_none_iff.mpr fun a ha => fieldValueOf_eq_none (hno a ha)
  rw [h.overridden f hf, hnone]
  rfl

/-- The packet is at least as long as its headers, and only a bare primary header
has less than seven bytes. -/
theorem packedSize_of_tracks (h : Tracks opts cmd) (hin : cmd.InBounds)
    (hpri : protocolIncludes (protocolInForce opts) .pri = true) :
    6 ≤ cmd.packedSize ∧ cmd.packedSize ≤ 2060 ∧
      (cmd.packedSize = 6 ↔ protocolInForce opts = .ccsdspri ∧ cmd.payloadBytes = 0) := by
  have hp : cmd.includeCCSDSPri = protocolIncludes (protocolInForce opts) .pri := h.includes .pri
  have he : cmd.includeCCSDSExt = protocolIncludes (protocolInForce opts) .ext := h.includes .ext
  have hs : cmd.includeCFSSec = protocolIncludes (protocolInForce opts) .sec := h.includes .sec
  have hzero : cmd.payloadBytes = 0 ↔ cmd.payloadBytes.toNat = 0 :=
    ⟨fun h => by rw [h]; rfl, fun h => BitVec.eq_of_toNat_eq h⟩
  unfold CommandData.InBounds maxPacketSize at hin
  unfold CommandData.packedSize
  rw [hp, he, hs, hzero]
  cases hproto : protocolInForce opts with
  | undefined | raw =>
    rw [hproto] at hpri
    cases hpri
  | ccsdspri | ccsdsext | cfsv1 | cfsv2 =>
    simp [protocolIncludes]
    omega

/-- Without `--pktlen`, the length field describes the packet, but for a primary
header alone. -/
theorem decodeLength_iff (hrun : acceptAll host instantiate opts = some cmd)
    (hno : ∀ a ∈ opts, a.optionId ≠ .pktlen)
    (hpri : protocolIncludes (protocolInForce opts) .pri = true)
    (hpack : (getPackedObject host cmd out sz).ok = true) :
    (decodeWord (getPackedObject host cmd out sz).bytes 4).toNat + 7 =
        (getPackedObject host cmd out sz).size ↔
      ¬(protocolInForce opts = .ccsdspri ∧ cmd.payloadBytes = 0) := by
  have htracks := tracks_of_acceptAll hrun
  have hkind : ∀ a ∈ opts, kind a.optionId ≠ .field .length :=
    fun a ha hk => hno a ha (optionId_of_kind .pktlen (by decide) hk)
  have hover : cmd.overridePktLen = false :=
    overridden_eq_false htracks (f := .length) rfl hkind
  obtain ⟨hlow, hhigh, hsix⟩ := packedSize_of_tracks htracks (inBounds_of_acceptAll hrun) hpri
  have hword := decodeWord_packet hrun hpack (w := .ccsdsPri 2) hpri
  have hoff : HdrWord.offset (protocolInForce opts) (.ccsdsPri 2) = 4 := rfl
  rw [hoff, CommandData.sentWord, if_neg (by simp), length_setDefaults host cmd hover] at hword
  have hseven : (7 : BitVec 64).toNat = 7 := rfl
  rw [hword, (getPackedObject_of_ok hpack).1, ← hsix, BitVec.toNat_setWidth, BitVec.toNat_sub,
    BitVec.toNat_ofNat, hseven]
  omega

end

/-- A primary header alone has the length field 0xFFFF. -/
theorem decodeLength_fails_on_bare_header :
    ¬∀ (host : Host) (opts : List ArgV) (cmd : CommandData) (out : Mem) (sz : Nat),
      acceptAll host instantiate opts = some cmd → (∀ a ∈ opts, a.optionId ≠ .pktlen) →
      protocolIncludes (protocolInForce opts) .pri = true →
      (getPackedObject host cmd out sz).ok = true →
      (decodeWord (getPackedObject host cmd out sz).bytes 4).toNat + 7 =
        (getPackedObject host cmd out sz).size := by
  intro hall
  obtain ⟨cmd, hrun, hok, hne⟩ := exists_packed Host.little
    [⟨.protocol, str "ccsdspri"⟩] (fun _ => 0) 2048
    (fun r => (decodeWord r.bytes 4).toNat + 7 ≠ r.size) (by decide)
  exact hne (hall _ _ cmd _ _ hrun (by decide) (by decide) hok)

/-- The length of a packet with one byte of payload. -/
theorem decodeLength_iff_one_byte :
    ∃ cmd, acceptAll Host.little instantiate [⟨.uint8, str "1"⟩] = some cmd ∧
      ((decodeWord (getPackedObject Host.little cmd (fun _ => 0) 2048).bytes 4).toNat + 7 =
          (getPackedObject Host.little cmd (fun _ => 0) 2048).size ↔
        ¬(protocolInForce [⟨.uint8, str "1"⟩] = .ccsdspri ∧ cmd.payloadBytes = 0)) := by
  obtain ⟨cmd, hrun, hok, -⟩ := exists_packed Host.little
    [⟨.uint8, str "1"⟩] (fun _ => 0) 2048 (fun _ => True) (by decide)
  exact ⟨cmd, hrun, decodeLength_iff hrun (by decide) (by decide) hok⟩

/-! ## The checksum -/

section

variable {host : Host} {opts : List ArgV} {cmd : CommandData} {out : Mem} {sz : Nat}

theorem calcChecksum_eq (r : Packed) : calcChecksum r.out r.size = checkByte 0xFF r.bytes := rfl

/-- The headers that are sent with a checksum have the check byte zero. -/
theorem checkByte_headerBytes (hrun : acceptAll host instantiate opts = some cmd)
    (hno : ∀ a ∈ opts, a.optionId ≠ .pktcksum)
    (hsec : protocolIncludes (protocolInForce opts) .sec = true) :
    checkByte 0xFF ((cmd.setDefaults host cmd.packedSize).headerBytes host) = 0 := by
  have htracks := tracks_of_acceptAll hrun
  have hkind : ∀ a ∈ opts, kind a.optionId ≠ .field .checksum :=
    fun a ha hk => hno a ha (optionId_of_kind .pktcksum (by decide) hk)
  have hsec' : (cmd.setDefaults host cmd.packedSize).includeCFSSec = true := by
    rw [CommandData.setDefaults_frame]
    exact (htracks.includes .sec).trans hsec
  have hover : (cmd.setDefaults host cmd.packedSize).overridePktCksum = false := by
    rw [CommandData.setDefaults_frame]
    exact overridden_eq_false htracks (f := .checksum) rfl hkind
  -- the byte that stands in the place of the checksum is zero
  have hlow : BitField.read ⟨0, 8⟩
      ((cmd.setDefaults host cmd.packedSize).word host .cfsCmdSecHdr) = 0 := by
    have hnone : lastOf (fieldValueOf .checksum) opts = none :=
      lastOf_eq_none_iff.mpr fun a ha => fieldValueOf_eq_none (hkind a ha)
    have hfield := field_of_acceptAll (f := .checksum) (by decide) (by simp [Field.word]) hrun
    rw [hnone] at hfield
    exact (field_setDefaults host cmd cmd.packedSize (f := .checksum) (by decide)
      (by decide)).trans hfield
  obtain ⟨-, hbytes⟩ :=
    (cmd.setDefaults host cmd.packedSize).headerBytes_of_checksum host hsec' hover
  rw [hlow] at hbytes
  rw [hbytes]
  exact checkByte_closed _ _

/-- Without `--pktcksum`, the packet passes the receiver's test exactly when the
bytes of the payload cancel out: the checksum is the one of the headers. -/
theorem calcChecksum_packet_iff (hrun : acceptAll host instantiate opts = some cmd)
    (hno : ∀ a ∈ opts, a.optionId ≠ .pktcksum)
    (hsec : protocolIncludes (protocolInForce opts) .sec = true)
    (hpack : (getPackedObject host cmd out sz).ok = true) :
    calcChecksum (getPackedObject host cmd out sz).out (getPackedObject host cmd out sz).size = 0 ↔
      checkByte 0 cmd.payloadSlice = 0 := by
  rw [calcChecksum_eq, (getPackedObject_of_ok hpack).2, CommandData.packetBytes, checkByte_append,
    checkByte_headerBytes hrun hno hsec, CommandData.payloadSlice_setDefaults]

end

/-- A payload of one byte that is not zero fails the receiver's test. -/
theorem calcChecksum_packet_fails_on_payload :
    ¬∀ (host : Host) (opts : List ArgV) (cmd : CommandData) (out : Mem) (sz : Nat),
      acceptAll host instantiate opts = some cmd → (∀ a ∈ opts, a.optionId ≠ .pktcksum) →
      protocolIncludes (protocolInForce opts) .sec = true →
      (getPackedObject host cmd out sz).ok = true →
      calcChecksum (getPackedObject host cmd out sz).out
        (getPackedObject host cmd out sz).size = 0 := by
  intro hall
  obtain ⟨cmd, hrun, hok, hne⟩ := exists_packed Host.little
    [⟨.uint8, str "1"⟩] (fun _ => 0) 2048
    (fun r => calcChecksum r.out r.size ≠ 0) (by decide)
  exact hne (hall _ _ cmd _ _ hrun (by decide) (by decide) hok)

/-- Two bytes that cancel out. -/
theorem calcChecksum_packet_iff_equal_bytes :
    ∃ cmd, acceptAll Host.little instantiate [⟨.uint8, str "1"⟩, ⟨.uint8, str "1"⟩] = some cmd ∧
      calcChecksum (getPackedObject Host.little cmd (fun _ => 0) 2048).out
        (getPackedObject Host.little cmd (fun _ => 0) 2048).size = 0 := by
  obtain ⟨cmd, hrun, hok, hcancel⟩ := exists_packed Host.little
    [⟨.uint8, str "1"⟩, ⟨.uint8, str "1"⟩] (fun _ => 0) 2048
    (fun r => checkByte 0 r.cmd.payloadSlice = 0) (by decide)
  rw [payloadSlice_getPackedObject] at hcancel
  exact ⟨cmd, hrun, (calcChecksum_packet_iff hrun (by decide) (by decide) hok).mpr hcancel⟩

end CmdSend.PassThru
