-- SUMMARY: The bytes that getPackedObject produces: the header words that are sent, then the payload.
import CmdSend.PassThru.Step
import CmdSend.Lib.Words

/-!
# The packed packet

`getPackedObject` works on the output memory in several steps. Its result is one
copy of `packetBytes`: the big-endian words of the selected headers, where the
low byte of the last one is the check byte of the headers, and the payload.
-/

namespace CmdSend.PassThru

open CLib

namespace CommandData

variable (host : Host) (cmd : CommandData)

/-- The words of the selected headers, in the order of the packet. -/
def headerWords : List HdrWord :=
  (if cmd.includeCCSDSPri then priWords else []) ++
    ((if cmd.includeCCSDSExt then extWords else []) ++
      (if cmd.includeCFSSec then [.cfsCmdSecHdr] else []))

/-- The big-endian bytes of some header words. -/
def bigBytes (words : List HdrWord) : List Byte :=
  words.flatMap fun w => ByteOrder.big.bytes (cmd.word host w)

/-- The word that is sent for a header word: the checksum of all headers goes into
the low byte of the secondary header. -/
def sentWord (w : HdrWord) : BitVec 16 :=
  if w = .cfsCmdSecHdr ∧ cmd.overridePktCksum = false then
    assign 0x00FF (cmd.word host w)
      ((checkByte 0xFF (cmd.bigBytes host cmd.headerWords)).setWidth 16)
  else cmd.word host w

def headerBytes : List Byte :=
  cmd.headerWords.flatMap fun w => ByteOrder.big.bytes (cmd.sentWord host w)

def payloadSlice : List Byte := cmd.payload.slice 0 cmd.payloadBytes.toNat

def packetBytes : List Byte := cmd.headerBytes host ++ cmd.payloadSlice

@[simp] theorem length_payloadSlice : cmd.payloadSlice.length = cmd.payloadBytes.toNat :=
  Mem.length_slice ..

theorem length_headerBytes : (cmd.headerBytes host).length = 2 * cmd.headerWords.length :=
  length_flatMap_bytes _ _

theorem length_packetBytes : (cmd.packetBytes host).length = cmd.packedSize := by
  rw [packetBytes, List.length_append, length_headerBytes, length_payloadSlice]
  unfold headerWords packedSize
  cases cmd.includeCCSDSPri <;> cases cmd.includeCCSDSExt <;> cases cmd.includeCFSSec <;>
    simp [priWords, extWords] <;> omega

/-! ## Copying the headers -/

theorem wordsBytes_eq (words : List HdrWord) :
    cmd.wordsBytes host words = cmd.bigBytes host words := by
  unfold wordsBytes bigBytes
  congr 1
  funext w
  exact bytes_eq_big_betoh host.order (cmd.hdr w)

theorem bigBytes_append (words words' : List HdrWord) :
    cmd.bigBytes host (words ++ words') = cmd.bigBytes host words ++ cmd.bigBytes host words' :=
  List.flatMap_append

/-- The headers are copied one behind the other; the checksum then replaces the
last byte of them. -/
theorem copyHeaders_eq_copy (out : Mem) :
    cmd.copyHeaders host out =
      let bs := cmd.bigBytes host cmd.headerWords
      if cmd.includeCFSSec && !cmd.overridePktCksum then
        (Function.update (out.copy 0 bs) (bs.length - 1) (calcChecksum (out.copy 0 bs) bs.length),
          bs.length)
      else (out.copy 0 bs, bs.length) := by
  have hcopy : ∀ (bs bs' : List Byte) (n : Nat), bs.length = n →
      (out.copy 0 bs).copy n bs' = out.copy 0 (bs ++ bs') := by
    intro bs bs' n h
    have := Mem.copy_copy_append out 0 bs bs'
    rwa [Nat.zero_add, h] at this
  have hpri : (cmd.bigBytes host priWords).length = 6 := length_flatMap_bytes _ _
  have hext : (cmd.bigBytes host extWords).length = 4 := length_flatMap_bytes _ _
  have hsec : (cmd.bigBytes host [.cfsCmdSecHdr]).length = 2 := length_flatMap_bytes _ _
  have hnil : cmd.bigBytes host [] = [] := rfl
  unfold copyHeaders headerWords
  cases cmd.includeCCSDSPri <;> cases cmd.includeCCSDSExt <;> cases cmd.includeCFSSec <;>
    simp [wordsBytes_eq, bigBytes_append, hnil, hpri, hext, hsec, hcopy]

/-- The words of the headers before the secondary header. -/
def leadingWords : List HdrWord :=
  (if cmd.includeCCSDSPri then priWords else []) ++ if cmd.includeCCSDSExt then extWords else []

theorem headerWords_of_sec (h : cmd.includeCFSSec = true) :
    cmd.headerWords = cmd.leadingWords ++ [.cfsCmdSecHdr] := by
  simp [headerWords, leadingWords, h]

theorem ne_sec_of_mem_leadingWords {w : HdrWord} (h : w ∈ cmd.leadingWords) :
    w ≠ .cfsCmdSecHdr := by
  rintro rfl
  revert h
  unfold leadingWords
  cases cmd.includeCCSDSPri <;> cases cmd.includeCCSDSExt <;> decide

/-- The word that carries the check byte. -/
theorem bytes_assign_low (x : BitVec 16) (b : Byte) :
    ByteOrder.big.bytes (assign 0x00FF x (b.setWidth 16)) = [BitField.read ⟨8, 8⟩ x, b] := by
  have hhigh : BitField.read ⟨8, 8⟩ (assign 0x00FF x (b.setWidth 16)) = BitField.read ⟨8, 8⟩ x :=
    BitField.read_assign_avoided (by decide) _ _
  have hlow : BitField.read ⟨0, 8⟩ (assign 0x00FF x (b.setWidth 16)) = b := by
    rw [BitField.read_assign_covered (by decide)]
    apply BitVec.eq_of_toNat_eq
    simpa [BitField.read] using b.isLt
  rw [bytes_big16, hhigh, hlow]

/-- Without a checksum the headers are sent as they are. -/
theorem headerBytes_of_plain (h : (cmd.includeCFSSec && !cmd.overridePktCksum) = false) :
    cmd.headerBytes host = cmd.bigBytes host cmd.headerWords := by
  refine List.flatMap_congr fun w hw => ?_
  have hplain : ¬(w = .cfsCmdSecHdr ∧ cmd.overridePktCksum = false) := by
    rintro ⟨rfl, hover⟩
    cases hsec : cmd.includeCFSSec with
    | true => simp [hsec, hover] at h
    | false =>
      have hlead : cmd.headerWords = cmd.leadingWords := by simp [headerWords, leadingWords, hsec]
      exact cmd.ne_sec_of_mem_leadingWords (hlead ▸ hw) rfl
  rw [sentWord, if_neg hplain]

/-- With a checksum the last byte of the headers is the check byte of the headers
with the byte that stands there before. -/
theorem headerBytes_of_checksum (hsec : cmd.includeCFSSec = true)
    (hover : cmd.overridePktCksum = false) :
    let x := cmd.word host .cfsCmdSecHdr
    let lead := cmd.bigBytes host cmd.leadingWords ++ [BitField.read ⟨8, 8⟩ x]
    let last := BitField.read ⟨0, 8⟩ x
    cmd.bigBytes host cmd.headerWords = lead ++ [last] ∧
      cmd.headerBytes host = lead ++ [checkByte 0xFF (lead ++ [last])] := by
  intro x lead last
  have hlast : cmd.bigBytes host [.cfsCmdSecHdr] = [BitField.read ⟨8, 8⟩ x, last] := bytes_big16 x
  have hbytes : cmd.bigBytes host cmd.headerWords = lead ++ [last] := by
    rw [cmd.headerWords_of_sec hsec, bigBytes_append, hlast]
    simp [lead]
  refine ⟨hbytes, ?_⟩
  have hlead : (cmd.leadingWords.flatMap fun w => ByteOrder.big.bytes (cmd.sentWord host w)) =
      cmd.bigBytes host cmd.leadingWords := by
    refine List.flatMap_congr fun w hw => ?_
    rw [sentWord, if_neg fun h => cmd.ne_sec_of_mem_leadingWords hw h.1]
  have hsent : ByteOrder.big.bytes (cmd.sentWord host .cfsCmdSecHdr) =
      [BitField.read ⟨8, 8⟩ x, checkByte 0xFF (lead ++ [last])] := by
    rw [sentWord, if_pos ⟨rfl, hover⟩, bytes_assign_low, hbytes]
  rw [headerBytes, cmd.headerWords_of_sec hsec, List.flatMap_append, hlead, List.flatMap_singleton,
    hsent]
  simp [lead]

theorem copyHeaders_eq (out : Mem) :
    cmd.copyHeaders host out =
      (out.copy 0 (cmd.headerBytes host), (cmd.headerBytes host).length) := by
  rw [copyHeaders_eq_copy]
  cases hsum : cmd.includeCFSSec && !cmd.overridePktCksum with
  | false => simp [cmd.headerBytes_of_plain host hsum]
  | true =>
    simp only [Bool.and_eq_true, Bool.not_eq_true'] at hsum
    obtain ⟨hbytes, hheader⟩ := cmd.headerBytes_of_checksum host hsum.1 hsum.2
    rw [hbytes, hheader]
    generalize cmd.bigBytes host cmd.leadingWords ++ _ = lead
    generalize BitField.read ⟨0, 8⟩ (cmd.word host .cfsCmdSecHdr) = last
    have hcalc : calcChecksum (out.copy 0 (lead ++ [last])) (lead ++ [last]).length =
        checkByte 0xFF (lead ++ [last]) := by
      rw [calcChecksum, Mem.slice_copy_same]
      rfl
    have hlt : lead.length < (lead ++ [last]).length := by simp
    have hset := Mem.update_copy out 0 hlt (checkByte 0xFF (lead ++ [last]))
    rw [Nat.zero_add, List.set_append_right _ _ (Nat.le_refl _)] at hset
    simp only [if_true, hcalc]
    simpa using hset

end CommandData

/-! ## The defaults -/

namespace CommandData

variable (host : Host) (cmd : CommandData)

/-- Set the bits of a field, under a condition. -/
def orWhen (c : Bool) (f : Field) : CommandData :=
  { cmd with hdr := if c then (cmd.orWord host f.word f.mask).hdr else cmd.hdr }

/-- Set the length, under a condition. -/
def lengthWhen (c : Bool) (nbytes : Nat) : CommandData :=
  let len : BitVec 16 := (BitVec.ofNat 64 nbytes - 7).setWidth 16
  { cmd with hdr := if c then (cmd.setWord (.ccsdsPri 2) (htobe host.order len)).hdr else cmd.hdr }

theorem ite_orWord (c : Bool) (f : Field) :
    (if c then cmd.orWord host f.word f.mask else cmd) = cmd.orWhen host c f := by
  cases c <;> rfl

/-- The fields that the packer sets to all ones. -/
def defaultsTo1 : Field → Bool
  | .type => !cmd.overridePktType
  | .secHdr => !cmd.overridePktSec && cmd.includeCFSSec
  | .seqFlags => !cmd.overridePktSeqFlg
  | .endian => !cmd.overridePktEndian && !cmd.bigEndian
  | _ => false

theorem setDefaults_eq (nbytes : Nat) :
    cmd.setDefaults host nbytes =
      ((((cmd.orWhen host (cmd.defaultsTo1 .type) .type).orWhen host (cmd.defaultsTo1 .secHdr)
        .secHdr).orWhen host (cmd.defaultsTo1 .seqFlags) .seqFlags).lengthWhen host
          (!cmd.overridePktLen) nbytes).orWhen host (cmd.defaultsTo1 .endian) .endian := by
  have hlen : ∀ (cmd : CommandData) (c : Bool),
      (if c then cmd.setWord (.ccsdsPri 2)
        (htobe host.order ((BitVec.ofNat 64 nbytes - 7).setWidth 16)) else cmd) =
      cmd.lengthWhen host c nbytes := by
    intro cmd c
    cases c <;> rfl
  have htype := fun (cmd : CommandData) c => cmd.ite_orWord host c .type
  have hsec := fun (cmd : CommandData) c => cmd.ite_orWord host c .secHdr
  have hflags := fun (cmd : CommandData) c => cmd.ite_orWord host c .seqFlags
  have hendian := fun (cmd : CommandData) c => cmd.ite_orWord host c .endian
  simp only [Field.word, Field.mask] at htype hsec hflags hendian
  simp only [setDefaults, htype, hsec, hflags, hendian, hlen]
  rfl

/-- The defaults change only header words. -/
theorem setDefaults_frame (nbytes : Nat) :
    cmd.setDefaults host nbytes = { cmd with hdr := (cmd.setDefaults host nbytes).hdr } := by
  rw [setDefaults_eq]
  rfl

theorem payloadSlice_setDefaults (nbytes : Nat) :
    (cmd.setDefaults host nbytes).payloadSlice = cmd.payloadSlice := by
  rw [setDefaults_frame]
  rfl

end CommandData

/-! ## The packer -/

/-- `getPackedObject` refuses a packet that does not fit, and otherwise copies the
packet to the front of the output. -/
theorem getPackedObject_eq (host : Host) (cmd : CommandData) (out : Mem) (sz : Nat) :
    getPackedObject host cmd out sz =
      if cmd.packedSize ≤ sz then
        let sent := cmd.setDefaults host cmd.packedSize
        ⟨true, sent, out.copy 0 (sent.packetBytes host), cmd.packedSize⟩
      else ⟨false, cmd, out, sz⟩ := by
  unfold getPackedObject
  by_cases hfits : cmd.packedSize ≤ sz
  · simp only [if_pos hfits, if_neg (Nat.not_lt.mpr hfits)]
    generalize hsent : cmd.setDefaults host cmd.packedSize = sent
    have hsize : cmd.packedSize = (sent.packetBytes host).length := by
      rw [sent.length_packetBytes host, ← hsent, cmd.setDefaults_frame host]
      rfl
    have hcopy := Mem.copy_copy_append out 0 (sent.headerBytes host) sent.payloadSlice
    rw [Nat.zero_add] at hcopy
    have hlen : (sent.packetBytes host).length =
        (sent.headerBytes host).length + sent.payloadBytes.toNat := by
      simp [CommandData.packetBytes]
    rw [sent.copyHeaders_eq host, hsize, hlen]
    exact congrArg (Packed.mk true sent · _) hcopy
  · simp only [if_neg hfits, if_pos (Nat.not_le.mp hfits)]

/-- The packer leaves the payload alone. -/
theorem payloadSlice_getPackedObject (host : Host) (cmd : CommandData) (out : Mem) (sz : Nat) :
    (getPackedObject host cmd out sz).cmd.payloadSlice = cmd.payloadSlice := by
  rw [getPackedObject_eq]
  split
  · exact cmd.payloadSlice_setDefaults host cmd.packedSize
  · rfl

end CmdSend.PassThru
