-- SUMMARY: Packing is exact and stable: its size and bytes depend on the state alone, and a second call repeats them.
import CmdSend.PassThru.Layout

/-!
# Packing twice

`getPackedObject` ORs its defaults into the header words that it keeps. The words
that a call leaves behind already have the defaults (`setDefaults_setDefaults`),
so that the packet of the next call is the same.
-/

namespace CmdSend.PassThru

open CLib

namespace CommandData

/-! ## The words after the defaults -/

/-- The bits of a field in a word, under a condition. -/
def maskWhen (c : Bool) (f : Field) (w : HdrWord) : BitVec 16 :=
  if c = true ∧ w = f.word then f.mask else 0

section

variable (host : Host) (cmd : CommandData)

/-- The bits that the defaults set in a word. -/
def defaultMask (w : HdrWord) : BitVec 16 :=
  maskWhen (cmd.defaultsTo1 .type) .type w ||| maskWhen (cmd.defaultsTo1 .secHdr) .secHdr w |||
    maskWhen (cmd.defaultsTo1 .seqFlags) .seqFlags w |||
    maskWhen (cmd.defaultsTo1 .endian) .endian w

theorem word_orWhen_eq (c : Bool) (f : Field) (w : HdrWord) :
    (cmd.orWhen host c f).word host w = cmd.word host w ||| maskWhen c f w := by
  rw [word_orWhen, maskWhen]
  split
  · rfl
  · exact BitVec.or_zero.symm

/-- The length apart, the defaults OR their bits into a word. -/
theorem word_setDefaults (nbytes : Nat) {w : HdrWord} (h : w ≠ .ccsdsPri 2) :
    (cmd.setDefaults host nbytes).word host w = cmd.word host w ||| cmd.defaultMask w := by
  rw [setDefaults_eq, word_orWhen_eq, word_lengthWhen_ne host _ _ _ h, word_orWhen_eq,
    word_orWhen_eq, word_orWhen_eq, defaultMask]
  simp only [BitVec.or_assoc]

/-- Two states with the same values in their header words have the same words. -/
theorem hdr_eq_of_word_eq {cmd cmd' : CommandData}
    (h : ∀ w, cmd'.word host w = cmd.word host w) : cmd'.hdr = cmd.hdr := by
  funext w
  have hback : ∀ x : BitVec 16, htobe host.order (betoh host.order x) = x :=
    htobe_betoh16 host.order
  rw [← hback (cmd'.hdr w), ← hback (cmd.hdr w)]
  exact congrArg (htobe host.order) (h w)

/-- Words that have the defaults keep them. -/
theorem setDefaults_setDefaults (nbytes : Nat) :
    (cmd.setDefaults host nbytes).setDefaults host nbytes = cmd.setDefaults host nbytes := by
  generalize hsent : cmd.setDefaults host nbytes = sent
  have hmask : ∀ w, sent.defaultMask w = cmd.defaultMask w := by
    intro w
    rw [← hsent, setDefaults_frame]
    rfl
  have hlen : sent.overridePktLen = cmd.overridePktLen := by
    rw [← hsent, setDefaults_frame]
  have hwords : ∀ w, (sent.setDefaults host nbytes).word host w = sent.word host w := by
    intro w
    -- the length is assigned anew, the bits of the other words are already there
    by_cases hw : w = .ccsdsPri 2
    · subst hw
      cases hover : cmd.overridePktLen with
      | true => exact length_setDefaults_of_override host sent (hlen.trans hover) nbytes
      | false =>
        rw [length_setDefaults host sent (hlen.trans hover), ← hsent,
          length_setDefaults host cmd hover]
    · rw [word_setDefaults host sent nbytes hw, hmask, ← hsent, word_setDefaults host cmd nbytes hw,
        BitVec.or_assoc, BitVec.or_self]
  rw [setDefaults_frame, hdr_eq_of_word_eq host hwords]

theorem packedSize_setDefaults (nbytes : Nat) :
    (cmd.setDefaults host nbytes).packedSize = cmd.packedSize := by
  rw [setDefaults_frame]
  rfl

end

/-- The bytes of the selected headers. -/
def headersSize (cmd : CommandData) : Nat :=
  (if cmd.includeCCSDSPri then 6 else 0) + (if cmd.includeCCSDSExt then 4 else 0) +
    if cmd.includeCFSSec then 2 else 0

theorem packedSize_eq (cmd : CommandData) :
    cmd.packedSize = cmd.headersSize + cmd.payloadBytes.toNat := by
  unfold packedSize headersSize
  cases cmd.includeCCSDSPri <;> cases cmd.includeCCSDSExt <;> cases cmd.includeCFSSec <;>
    simp <;> omega

end CommandData

/-! ## The packer -/

/-- What packing a state is meant to do, whatever the output holds before. -/
structure PacksExactly (host : Host) (cmd : CommandData) (out : Mem) (sz : Nat) : Prop where
  /-- The call succeeds when the headers and the payload fit. -/
  ok_iff : (getPackedObject host cmd out sz).ok = true ↔
    cmd.headersSize + cmd.payloadBytes.toNat ≤ sz
  /-- A call that fails changes nothing. -/
  refused : (getPackedObject host cmd out sz).ok = false →
    (getPackedObject host cmd out sz).out = out ∧ (getPackedObject host cmd out sz).size = sz ∧
      (getPackedObject host cmd out sz).cmd = cmd
  size : (getPackedObject host cmd out sz).ok = true →
    (getPackedObject host cmd out sz).size = cmd.headersSize + cmd.payloadBytes.toNat
  /-- The bytes are the same for every output and every size that is enough. -/
  determined : (getPackedObject host cmd out sz).ok = true → ∀ out' sz',
    (getPackedObject host cmd out' sz').ok = true →
      (getPackedObject host cmd out' sz').bytes = (getPackedObject host cmd out sz).bytes
  /-- Nothing is written behind the packet. -/
  beyond : (getPackedObject host cmd out sz).ok = true →
    ∀ i, (getPackedObject host cmd out sz).size ≤ i →
      (getPackedObject host cmd out sz).out i = out i
  /-- The packet ends with the payload. -/
  payload : (getPackedObject host cmd out sz).ok = true →
    (getPackedObject host cmd out sz).bytes.drop cmd.headersSize =
      cmd.payload.slice 0 cmd.payloadBytes.toNat
  /-- A second call, on the state that the first one leaves, repeats the packet. -/
  again : (getPackedObject host cmd out sz).ok = true → ∀ out' sz',
    (getPackedObject host cmd out sz).size ≤ sz' →
      let second := getPackedObject host (getPackedObject host cmd out sz).cmd out' sz'
      second.ok = true ∧ second.size = (getPackedObject host cmd out sz).size ∧
        second.bytes = (getPackedObject host cmd out sz).bytes

section

variable {host : Host} {cmd : CommandData} {out : Mem} {sz : Nat}

theorem ok_getPackedObject_iff :
    (getPackedObject host cmd out sz).ok = true ↔ cmd.packedSize ≤ sz := by
  rw [getPackedObject_eq]
  split
  · rename_i hfits
    exact iff_of_true rfl hfits
  · rename_i hfits
    exact iff_of_false Bool.false_ne_true hfits

theorem cmd_of_ok (h : (getPackedObject host cmd out sz).ok = true) :
    (getPackedObject host cmd out sz).cmd = cmd.setDefaults host cmd.packedSize := by
  rw [getPackedObject_eq, if_pos (ok_getPackedObject_iff.mp h)]

theorem out_of_ok (h : (getPackedObject host cmd out sz).ok = true) :
    (getPackedObject host cmd out sz).out =
      out.copy 0 ((cmd.setDefaults host cmd.packedSize).packetBytes host) := by
  rw [getPackedObject_eq, if_pos (ok_getPackedObject_iff.mp h)]

theorem length_packetBytes_setDefaults (host : Host) (cmd : CommandData) :
    ((cmd.setDefaults host cmd.packedSize).packetBytes host).length = cmd.packedSize := by
  rw [CommandData.length_packetBytes, CommandData.packedSize_setDefaults]

/-- A second call packs the same bytes. -/
theorem getPackedObject_again (h : (getPackedObject host cmd out sz).ok = true) (out' : Mem)
    {sz' : Nat} (hsz : cmd.packedSize ≤ sz') :
    let second := getPackedObject host (getPackedObject host cmd out sz).cmd out' sz'
    second.ok = true ∧ second.size = (getPackedObject host cmd out sz).size ∧
      second.bytes = (getPackedObject host cmd out sz).bytes := by
  rw [cmd_of_ok h]
  intro second
  have hsize := CommandData.packedSize_setDefaults host cmd cmd.packedSize
  have hok : second.ok = true := ok_getPackedObject_iff.mpr (hsize.symm ▸ hsz)
  have hsecond := getPackedObject_of_ok hok
  rw [hsize, CommandData.setDefaults_setDefaults] at hsecond
  have hfirst := getPackedObject_of_ok h
  exact ⟨hok, hsecond.1.trans hfirst.1.symm, hsecond.2.trans hfirst.2.symm⟩

/-- Every state packs exactly, into every output. -/
theorem packsExactly (host : Host) (cmd : CommandData) (out : Mem) (sz : Nat) :
    PacksExactly host cmd out sz where
  ok_iff := by rw [ok_getPackedObject_iff, CommandData.packedSize_eq]
  refused := by
    intro hno
    have hfits : ¬cmd.packedSize ≤ sz := by
      intro hfits
      rw [ok_getPackedObject_iff.mpr hfits] at hno
      cases hno
    rw [getPackedObject_eq, if_neg hfits]
    exact ⟨rfl, rfl, rfl⟩
  size := by
    intro hok
    rw [(getPackedObject_of_ok hok).1, CommandData.packedSize_eq]
  determined := by
    intro hok out' sz' hok'
    rw [(getPackedObject_of_ok hok').2, (getPackedObject_of_ok hok).2]
  beyond := by
    intro hok i hi
    rw [(getPackedObject_of_ok hok).1, ← length_packetBytes_setDefaults host cmd] at hi
    rw [out_of_ok hok]
    exact Mem.copy_outside (Or.inr (by omega))
  payload := by
    intro hok
    have hpayload := cmd.payloadSlice_setDefaults host cmd.packedSize
    have hlen := length_packetBytes_setDefaults host cmd
    rw [CommandData.packetBytes, List.length_append, hpayload, CommandData.length_payloadSlice]
      at hlen
    have htotal := cmd.packedSize_eq
    rw [(getPackedObject_of_ok hok).2, CommandData.packetBytes, hpayload]
    exact List.drop_left' (by omega)
  again := by
    intro hok out' sz' hsz
    rw [(getPackedObject_of_ok hok).1] at hsz
    exact getPackedObject_again hok out' hsz

end

end CmdSend.PassThru
