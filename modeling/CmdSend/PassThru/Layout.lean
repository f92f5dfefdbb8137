-- SUMMARY: The payload in the packet: the byte order that the header announces, and the layout of each protocol.
import CmdSend.PassThru.Decode
import CmdSend.PassThru.Payload

/-!
# The payload of a packet

The payload follows the headers of the protocol in force. A multi-byte number is
laid out in the order that is selected when its option is parsed, and the
extended header announces the order that is selected when the packet is built.
-/

namespace CmdSend.PassThru

open CLib

/-- The bytes of the headers of a protocol. -/
def headerLength : Protocol → Nat
  | .undefined | .raw => 0
  | .ccsdspri => 6
  | .ccsdsext => 10
  | .cfsv1 => 8
  | .cfsv2 => 12

section

variable {host : Host} {opts : List ArgV} {cmd : CommandData} {out : Mem} {sz : Nat}

theorem length_headerBytes_of_includes (host : Host) {cmd : CommandData} {p : Protocol}
    (h : ∀ hdr, cmd.includes hdr = protocolIncludes p hdr) :
    (cmd.headerBytes host).length = headerLength p := by
  have hpri : cmd.includeCCSDSPri = protocolIncludes p .pri := h .pri
  have hext : cmd.includeCCSDSExt = protocolIncludes p .ext := h .ext
  have hsec : cmd.includeCFSSec = protocolIncludes p .sec := h .sec
  rw [CommandData.length_headerBytes, CommandData.headerWords, hpri, hext, hsec]
  cases p <;> rfl

theorem packedSize_of_includes (host : Host) {cmd : CommandData} {p : Protocol}
    (h : ∀ hdr, cmd.includes hdr = protocolIncludes p hdr) :
    cmd.packedSize = headerLength p + cmd.payloadSlice.length := by
  rw [← cmd.length_packetBytes host, CommandData.packetBytes, List.length_append,
    length_headerBytes_of_includes host h]

/-- The packet is the headers of the protocol in force and the payload. -/
theorem bytes_of_includes {p : Protocol} (h : ∀ hdr, cmd.includes hdr = protocolIncludes p hdr)
    (hpack : (getPackedObject host cmd out sz).ok = true) :
    ∃ hdr : List Byte, hdr.length = headerLength p ∧
      (getPackedObject host cmd out sz).bytes = hdr ++ cmd.payloadSlice := by
  have hincludes : ∀ hdr, (cmd.setDefaults host cmd.packedSize).includes hdr =
      protocolIncludes p hdr := by
    intro hdr
    rw [CommandData.setDefaults_frame]
    refine Eq.trans ?_ (h hdr)
    cases hdr <;> rfl
  refine ⟨_, length_headerBytes_of_includes host hincludes, ?_⟩
  rw [(getPackedObject_of_ok hpack).2, CommandData.packetBytes,
    CommandData.payloadSlice_setDefaults]

/-- The headers of a protocol and a payload that fit are packed one after the other. -/
theorem packet_of_includes (host : Host) (out : Mem) {p : Protocol}
    (h : ∀ hdr, cmd.includes hdr = protocolIncludes p hdr)
    (hfits : headerLength p + cmd.payloadSlice.length ≤ sz) :
    (getPackedObject host cmd out sz).ok = true ∧
      (getPackedObject host cmd out sz).size = headerLength p + cmd.payloadSlice.length ∧
      (getPackedObject host cmd out sz).bytes.drop (headerLength p) = cmd.payloadSlice := by
  have hsize := packedSize_of_includes host h
  have hok : (getPackedObject host cmd out sz).ok = true := by
    rw [getPackedObject_eq, if_pos (by omega)]
  obtain ⟨hdr, hlen, hbytes⟩ := bytes_of_includes h hok
  refine ⟨hok, ?_, ?_⟩
  · rw [(getPackedObject_of_ok hok).1, hsize]
  · rw [hbytes, List.drop_left' hlen]

/-! ## The announced byte order -/

/-- The byte order that the Endian bit of a packet announces. -/
def announcedOrder (p : Protocol) (packet : List Byte) : ByteOrder :=
  if decodeField p packet .endian = 0 then .big else .little

theorem announcedOrder_eq (hrun : acceptAll host instantiate opts = some cmd)
    (hno : ∀ a ∈ opts, a.optionId ≠ .pktendian)
    (hext : protocolIncludes (protocolInForce opts) .ext = true)
    (hpack : (getPackedObject host cmd out sz).ok = true) :
    announcedOrder (protocolInForce opts) (getPackedObject host cmd out sz).bytes =
      endianInForce opts := by
  have hkind : ∀ a ∈ opts, kind a.optionId ≠ .field .endian :=
    fun a ha hk => hno a ha (optionId_of_kind .pktendian (by decide) hk)
  have hnone : lastOf (fieldValueOf .endian) opts = none :=
    lastOf_eq_none_iff.mpr fun a ha => fieldValueOf_eq_none (hkind a ha)
  have hbit := decodeField_of_none hrun hpack (f := .endian) (by decide)
    (fun _ _ hw => absurd hw (by decide)) hext hnone rfl
  rw [announcedOrder, hbit]
  cases endianInForce opts <;> rfl

/-- The payload of a packet starts with what the encoder had at an earlier point of
the run, as long as no write leaves the payload. -/
theorem extends_of_prefix {pre post : List ArgV} {cmd₁ : CommandData}
    (hpre : acceptAll host instantiate pre = some cmd₁)
    (hpost : acceptAll host cmd₁ post = some cmd) (hsafe : PayloadSafe host (pre ++ post)) :
    Extends cmd₁ cmd := by
  refine extends_of_acceptAll (inBounds_of_acceptAll hpre) (fun c hc => ?_) hpost
  refine (hsafe.2 c ?_).2
  unfold calls
  rw [taken_append hpre]
  exact List.mem_append_right _ hc

/-- The place of the bytes that one option of a run has appended. -/
theorem take_drop_packet {pre post : List ArgV} {a : ArgV} {cmd₁ : CommandData}
    (hpre : acceptAll host instantiate pre = some cmd₁)
    (hrun : acceptAll host instantiate (pre ++ a :: post) = some cmd)
    (hsafe : PayloadSafe host (pre ++ a :: post))
    (hpack : (getPackedObject host cmd out sz).ok = true) {x : (w : Nat) × BitVec w}
    (hx : number host a = some x) :
    ((getPackedObject host cmd out sz).bytes.drop
        (headerLength (protocolInForce (pre ++ a :: post)) + cmd₁.payloadBytes.toNat)).take
      (x.1 / 8) = (effectiveOrder cmd₁.order a).bytes x.2 := by
  obtain ⟨cmd₁', hpre', hrest⟩ := foldlM_append_some.mp hrun
  obtain rfl := Option.some.inj (hpre.symm.trans hpre')
  obtain ⟨cmd₂, hacc, hpost⟩ := foldlM_cons_some.mp hrest
  obtain ⟨hpay, hstring⟩ := isPayload_of_number hx
  obtain ⟨x', hx', hfits, rfl⟩ :=
    append_of_accept_number (inBounds_of_acceptAll hpre) hpay hstring hacc
  obtain rfl := Option.some.inj (hx.symm.trans hx')
  have hpre₂ : acceptAll host instantiate (pre ++ [a]) = some
      (cmd₁.append ((effectiveOrder cmd₁.order a).bytes x.2)) :=
    foldlM_append_some.mpr ⟨_, hpre, foldlM_cons_some.mpr ⟨_, hacc, rfl⟩⟩
  obtain ⟨bs, hbs⟩ := extends_of_prefix hpre₂ hpost (by simpa using hsafe)
  rw [payloadSlice_append hfits] at hbs
  obtain ⟨hdr, hlen, hbytes⟩ := bytes_of_includes (tracks_of_acceptAll hrun).includes hpack
  have hslice : cmd₁.payloadSlice.length = cmd₁.payloadBytes.toNat := by simp
  have hchunk := ByteOrder.length_bytes (effectiveOrder cmd₁.order a) x.2
  rw [hbytes, hbs, ← List.drop_drop, List.drop_left' hlen, List.append_assoc,
    List.drop_left' hslice, List.take_left' hchunk]

/-- The options for a number of several bytes whose byte order is not forced. -/
def selectableOptions : List OptionId :=
  [.half, .int16, .long, .word, .int32, .int64, .uint16, .uint32, .uint64, .float, .double]

/-- The options for a number of several bytes. -/
theorem kind_of_multiByte {id : OptionId} (h : id ∈ selectableOptions ++ bigEndianOptions) :
    (kind id).isPayload = true ∧ kind id ≠ .string := by
  revert id
  decide

/-- A packet has the number of the option `a` behind the options `pre`, in a byte order. -/
def FieldInOrder (host : Host) (pre : List ArgV) (a : ArgV) (p : Protocol) (packet : List Byte)
    (order : ByteOrder) : Prop :=
  ∃ before x, acceptAll host instantiate pre = some before ∧ number host a = some x ∧
    (packet.drop (headerLength p + before.payloadBytes.toNat)).take (x.1 / 8) = order.bytes x.2

/-- The number of an option is laid out in the order that is in force at its place. -/
theorem fieldInOrder {pre post : List ArgV} {a : ArgV}
    (hrun : acceptAll host instantiate (pre ++ a :: post) = some cmd)
    (hsafe : PayloadSafe host (pre ++ a :: post))
    (hpack : (getPackedObject host cmd out sz).ok = true)
    (hid : a.optionId ∈ selectableOptions ++ bigEndianOptions) :
    FieldInOrder host pre a (protocolInForce (pre ++ a :: post))
      (getPackedObject host cmd out sz).bytes (effectiveOrder (endianInForce pre) a) := by
  obtain ⟨cmd₁, hpre, hrest⟩ := foldlM_append_some.mp hrun
  obtain ⟨cmd₂, hacc, -⟩ := foldlM_cons_some.mp hrest
  obtain ⟨hpay, hstring⟩ := kind_of_multiByte hid
  obtain ⟨x, hx, -⟩ := append_of_accept_number (inBounds_of_acceptAll hpre) hpay hstring hacc
  have horder : cmd₁.order = endianInForce pre := by
    rw [CommandData.order, (tracks_of_acceptAll hpre).bigEndian]
    cases endianInForce pre <;> rfl
  exact ⟨cmd₁, x, hpre, hx, horder ▸ take_drop_packet hpre hrun hsafe hpack hx⟩

/-- What the options of a run say about the byte orders in its packet. -/
structure OrdersOf (host : Host) (opts : List ArgV) (packet : List Byte) : Prop where
  /-- The header announces the final selection. -/
  announced : announcedOrder (protocolInForce opts) packet = endianInForce opts
  /-- A number is laid out in the selection at its place. -/
  selected : ∀ pre a post, opts = pre ++ a :: post → a.optionId ∈ selectableOptions →
    FieldInOrder host pre a (protocolInForce opts) packet (endianInForce pre)
  /-- The options that are big-endian by their name do not look at the selection. -/
  forced : ∀ pre a post, opts = pre ++ a :: post → a.optionId ∈ bigEndianOptions →
    FieldInOrder host pre a (protocolInForce opts) packet .big
  /-- A number that is parsed under the final selection is laid out in the announced order. -/
  agrees : ∀ pre a post, opts = pre ++ a :: post → a.optionId ∈ selectableOptions →
    endianInForce pre = endianInForce opts →
    FieldInOrder host pre a (protocolInForce opts) packet
      (announcedOrder (protocolInForce opts) packet)

/-- In a run that comes to its end and is packed, each number is laid out in the selection at
its place, and the header announces the final one. -/
theorem number_in_announcedOrder (hrun : runOptions host instantiate opts = .accepted cmd)
    (hno : ∀ b ∈ opts, b.optionId ≠ .pktendian)
    (hext : protocolIncludes (protocolInForce opts) .ext = true)
    (hpack : (getPackedObject host cmd out sz).ok = true) :
    OrdersOf host opts (getPackedObject host cmd out sz).bytes := by
  obtain ⟨hacc, hsafe⟩ := runOptions_eq_accepted_iff.mp hrun
  have hannounced := announcedOrder_eq hacc hno hext hpack
  have hselected : ∀ pre a post, opts = pre ++ a :: post → a.optionId ∈ selectableOptions →
      FieldInOrder host pre a (protocolInForce opts) (getPackedObject host cmd out sz).bytes
        (endianInForce pre) := by
    rintro pre a post rfl hid
    have hnot : bigEndianOptions.contains a.optionId = false := by
      generalize a.optionId = id at hid
      revert id
      decide
    have hfield := fieldInOrder hacc hsafe hpack (List.mem_append_left _ hid)
    rwa [effectiveOrder, hnot] at hfield
  refine ⟨hannounced, hselected, ?_, fun pre a post hopts hid hsame => ?_⟩
  · rintro pre a post rfl hid
    have hfield := fieldInOrder hacc hsafe hpack (List.mem_append_right _ hid)
    rwa [effectiveOrder, if_pos (List.contains_iff_mem.mpr hid)] at hfield
  · rw [hannounced, ← hsame]
    exact hselected pre a post hopts hid

end

/-- A selection of little endian after a number: the header announces it, and the
number is big-endian. -/
theorem number_in_announcedOrder_fails_on_late_endian :
    ¬∀ (host : Host) (opts : List ArgV) (cmd : CommandData) (out : Mem) (sz : Nat),
      runOptions host instantiate opts = .accepted cmd →
      (∀ b ∈ opts, b.optionId ≠ .pktendian) →
      protocolIncludes (protocolInForce opts) .ext = true →
      (getPackedObject host cmd out sz).ok = true →
      ∀ pre a post, opts = pre ++ a :: post → a.optionId ∈ selectableOptions →
        FieldInOrder host pre a (protocolInForce opts) (getPackedObject host cmd out sz).bytes
          (announcedOrder (protocolInForce opts) (getPackedObject host cmd out sz).bytes) := by
  intro hall
  obtain ⟨cmd, hacc, hok, hne⟩ := exists_packed Host.little
    [⟨.protocol, str "ccsdsext"⟩, ⟨.uint16, str "1"⟩, ⟨.endian, str "LE"⟩]
    (fun _ => 0) 2048
    (fun r => (r.bytes.drop 10).take 2 ≠
      (announcedOrder .ccsdsext r.bytes).bytes (1 : BitVec 16)) (by decide)
  have hrun := runOptions_eq_accepted_iff.mpr ⟨hacc, payloadSafe_of_no_string (by decide)⟩
  obtain ⟨before, x, hbefore, hx, hfield⟩ := hall Host.little _ cmd (fun _ => 0) 2048 hrun
    (by decide) (by decide) hok [⟨.protocol, str "ccsdsext"⟩] ⟨.uint16, str "1"⟩
    [⟨.endian, str "LE"⟩] rfl (by decide)
  obtain rfl := Option.some.inj hbefore
  obtain rfl : ⟨16, 1⟩ = x := Option.some.inj hx
  exact hne hfield

/-- The same options with the selection in front. -/
theorem number_in_announcedOrder_early_endian :
    ∃ cmd,
      acceptAll Host.little instantiate
        [⟨.protocol, str "ccsdsext"⟩, ⟨.endian, str "LE"⟩, ⟨.uint16, str "1"⟩] = some cmd ∧
      ((getPackedObject Host.little cmd (fun _ => 0) 2048).bytes.drop 10).take 2 =
        (announcedOrder .ccsdsext
          (getPackedObject Host.little cmd (fun _ => 0) 2048).bytes).bytes (1 : BitVec 16) := by
  obtain ⟨cmd, hacc, hok, -⟩ := exists_packed Host.little
    [⟨.protocol, str "ccsdsext"⟩, ⟨.endian, str "LE"⟩, ⟨.uint16, str "1"⟩]
    (fun _ => 0) 2048 (fun _ => True) (by decide)
  have hrun := runOptions_eq_accepted_iff.mpr ⟨hacc, payloadSafe_of_no_string (by decide)⟩
  have horders := number_in_announcedOrder hrun (by decide) (by decide) hok
  obtain ⟨before, x, hbefore, hx, hfield⟩ := horders.agrees
    [⟨.protocol, str "ccsdsext"⟩, ⟨.endian, str "LE"⟩] ⟨.uint16, str "1"⟩ [] rfl (by decide)
    (by decide)
  obtain rfl := Option.some.inj hbefore
  obtain rfl : ⟨16, 1⟩ = x := Option.some.inj hx
  exact ⟨cmd, hacc, hfield⟩

/-! ## The layout of a protocol -/

/-- The documented name of a protocol. -/
def protocolName : Protocol → Text
  | .undefined => []
  | .raw => str "raw"
  | .ccsdspri => str "ccsdspri"
  | .ccsdsext => str "ccsdsext"
  | .cfsv1 => str "cfsv1"
  | .cfsv2 => str "cfsv2"

/-- The bytes of a sequence of payload options, in the default byte order. -/
def payloadOf (host : Host) (opts : List ArgV) : List Byte :=
  opts.flatMap fun a => (chunk host .big a).getD []

/-- `--protocol` with the name of `p` and then `opts` are all accepted, and the
packet consists of the headers of `p` and the bytes of `opts`. -/
def SelectsLayout (host : Host) (p : Protocol) (opts : List ArgV) (out : Mem) (sz : Nat) : Prop :=
  (∀ c ∈ calls host instantiate (⟨.protocol, protocolName p⟩ :: opts),
    (parseOption host c.1 c.2).retcode = .accepted) ∧
  ∃ cmd, acceptAll host instantiate (⟨.protocol, protocolName p⟩ :: opts) = some cmd ∧
    let r := getPackedObject host cmd out sz
    r.ok = true ∧ r.size = headerLength p + (payloadOf host opts).length ∧
      r.bytes.drop (headerLength p) = payloadOf host opts

section

variable {host : Host} {opts : List ArgV}

/-- Payload options whose bytes fit are all accepted, and append them. -/
theorem acceptAll_of_chunks (cmd : CommandData) (horder : cmd.order = .big)
    (hchunks : ∀ a ∈ opts, (chunk host .big a).isSome)
    (hfits : cmd.payloadBytes.toNat + (payloadOf host opts).length ≤ maxPacketSize) :
    (∀ c ∈ calls host cmd opts, (parseOption host c.1 c.2).retcode = .accepted) ∧
      acceptAll host cmd opts = some (cmd.append (payloadOf host opts)) := by
  induction opts generalizing cmd with
  | nil => exact ⟨by simp [calls], congrArg some (append_nil cmd).symm⟩
  | cons a opts ih =>
    obtain ⟨bs, hbs⟩ := Option.isSome_iff_exists.mp (hchunks a List.mem_cons_self)
    have hpayload : payloadOf host (a :: opts) = bs ++ payloadOf host opts := by
      simp [payloadOf, hbs]
    rw [hpayload, List.length_append] at hfits
    have hfits₁ : cmd.Fits bs := by
      unfold CommandData.Fits
      omega
    obtain ⟨hret, hcmd⟩ := parseOption_of_chunk (horder ▸ hbs) hfits₁
    have hacc : accept host cmd a = some (cmd.append bs) :=
      accept_eq_some_iff.mpr ⟨by rw [hret]; decide, hcmd⟩
    have hrest := ih (cmd.append bs) horder
      (fun b hb => hchunks b (List.mem_cons_of_mem _ hb))
      (by rw [toNat_payloadBytes_append hfits₁]; omega)
    refine ⟨?_, foldlM_cons_some.mpr ⟨_, hacc, ?_⟩⟩
    · exact (forall_calls_cons hacc).mpr ⟨hret, hrest.1⟩
    · rw [hpayload, ← append_append hfits₁]
      exact hrest.2

/-- Every documented name but `raw` selects its protocol. -/
theorem getProtocolFromString_name (p : Protocol) :
    getProtocolFromString (protocolName p) = if p = .raw then .undefined else p := by
  cases p <;> decide

/-- The options of a run that is accepted, and that appends only, have bytes. -/
theorem chunks_of_acceptAll {cmd cmd' : CommandData} (horder : cmd.order = .big)
    (hpay : ∀ a ∈ opts, (kind a.optionId).isPayload = true)
    (hrun : acceptAll host cmd opts = some cmd') : ∀ a ∈ opts, (chunk host .big a).isSome := by
  induction opts generalizing cmd with
  | nil => simp
  | cons a opts ih =>
    obtain ⟨cmd₁, hacc, hrest⟩ := foldlM_cons_some.mp hrun
    have hpay₁ := hpay a List.mem_cons_self
    have hsome := chunk_isSome_of_accept .big hpay₁ hacc
    have horder₁ : cmd₁.order = .big := (order_of_accept_payload hpay₁ hacc).trans horder
    exact List.forall_mem_cons.mpr
      ⟨hsome, ih horder₁ (fun b hb => hpay b (List.mem_cons_of_mem _ hb)) hrest⟩

/-- A documented name selects its layout, for every sequence of payload options
that a fresh encoder accepts, exactly when it is not `raw`. -/
theorem selectsLayout_iff {p : Protocol} (hp : p ≠ .undefined)
    (hpay : ∀ a ∈ opts, (kind a.optionId).isPayload = true)
    (hfresh : (acceptAll host instantiate opts).isSome)
    (hfits : headerLength p + (payloadOf host opts).length ≤ maxPacketSize) (out : Mem) {sz : Nat}
    (hsz : maxPacketSize ≤ sz) : SelectsLayout host p opts out sz ↔ p ≠ .raw := by
  have hname := getProtocolFromString_name p
  have hparse : parseOption host instantiate ⟨.protocol, protocolName p⟩ =
      instantiate.setProtocol (if p = .raw then .undefined else p) := by rw [← hname]; rfl
  rw [CommandData.setProtocol_eq] at hparse
  constructor
  · rintro ⟨hcalls, -⟩ rfl
    have hret := hcalls (instantiate, ⟨.protocol, protocolName .raw⟩) List.mem_cons_self
    simp only [hparse] at hret
    cases hret
  · intro hraw
    simp only [if_neg hraw, if_neg hp] at hparse
    have hacc : accept host instantiate ⟨.protocol, protocolName p⟩ =
        some (instantiate.withProtocol p) :=
      accept_eq_some_iff.mpr ⟨by rw [hparse]; exact OptParse.noConfusion, by rw [hparse]; rfl⟩
    obtain ⟨cmd₀, hrun₀⟩ := Option.isSome_iff_exists.mp hfresh
    have hchunks := chunks_of_acceptAll rfl hpay hrun₀
    have hzero : (instantiate.withProtocol p).payloadBytes.toNat = 0 := rfl
    have hempty : (instantiate.withProtocol p).payloadSlice = [] := rfl
    obtain ⟨hcalls, hrun⟩ := acceptAll_of_chunks (instantiate.withProtocol p) rfl hchunks
      (by rw [hzero]; omega)
    have hfits' : (instantiate.withProtocol p).Fits (payloadOf host opts) := by
      unfold CommandData.Fits
      rw [hzero]
      omega
    have hslice := payloadSlice_append hfits'
    rw [hempty, List.nil_append] at hslice
    have hincludes : ∀ hdr, ((instantiate.withProtocol p).append (payloadOf host opts)).includes
        hdr = protocolIncludes p hdr := by
      intro hdr
      rw [← CommandData.includes_withProtocol instantiate p hdr]
      cases hdr <;> rfl
    have hpacket := @packet_of_includes _ sz host out _ hincludes (by rw [hslice]; omega)
    rw [hslice] at hpacket
    refine ⟨?_, _, foldlM_cons_some.mpr ⟨_, hacc, hrun⟩, hpacket⟩
    exact (forall_calls_cons hacc).mpr ⟨by rw [hparse]; rfl, hcalls⟩

end

/-- The name `raw` is not accepted. -/
theorem selectsLayout_fails_on_raw :
    ¬∀ (host : Host) (p : Protocol) (opts : List ArgV) (out : Mem), p ≠ .undefined →
      (∀ a ∈ opts, (kind a.optionId).isPayload = true) →
      (acceptAll host instantiate opts).isSome → 0 < (payloadOf host opts).length →
      headerLength p + (payloadOf host opts).length ≤ maxPacketSize →
      SelectsLayout host p opts out maxPacketSize := by
  intro hall
  have hlayout := hall Host.little .raw [⟨.uint8, str "1"⟩] (fun _ => 0) (by decide) (by decide)
    (by decide) (by decide) (by decide)
  have hret := hlayout.1 (instantiate, ⟨.protocol, protocolName .raw⟩) List.mem_cons_self
  revert hret
  decide

/-- The layout of `ccsdspri`. -/
theorem selectsLayout_iff_ccsdspri :
    SelectsLayout Host.little .ccsdspri [⟨.uint8, str "1"⟩] (fun _ => 0) 2048 :=
  (selectsLayout_iff (by decide) (by decide) (by decide) (by decide) _ (by decide)).mpr (by decide)

end CmdSend.PassThru
