-- SUMMARY: The first word of a packet after --pktid: when the defaults of the packer leave it as the option has set it.
import CmdSend.PassThru.Repack

/-!
# The packet id

`--pktid` assigns all of the first word, and sets no override flag. The packer then
ORs the packet type and the secondary header flag into the word, unless the options
for these fields have been given too.
-/

namespace CmdSend.PassThru

open CLib

/-- An OR leaves a word alone exactly when the bits are set in it. -/
theorem or_eq_self_iff {w : Nat} (x m : BitVec w) :
    x ||| m = x ↔ ∀ i, m.getLsbD i = true → x.getLsbD i = true := by
  constructor
  · intro h i hi
    rw [← h, BitVec.getLsbD_or, hi, Bool.or_true]
  · intro h
    apply BitVec.eq_of_getLsbD_eq
    intro i _
    rw [BitVec.getLsbD_or]
    cases hm : m.getLsbD i with
    | false => exact Bool.or_false _
    | true => rw [h i hm, Bool.or_true]

/-- An option that sets a field of the first word. -/
def SetsFirstWord (a : ArgV) : Prop := ∃ f, kind a.optionId = .field f ∧ f.word = .ccsdsPri 0

/-- The defaults of the packer change nothing in a first word `x`: the bit of the
packet type is set, or an option has overridden it, and so is the bit for the
secondary header, or the protocol has none of it. -/
def HasDefaults (opts : List ArgV) (x : Nat) : Prop :=
  (x.testBit 12 = true ∨ ∃ a ∈ opts, kind a.optionId = .field .type) ∧
    (x.testBit 11 = true ∨ (∃ a ∈ opts, kind a.optionId = .field .secHdr) ∨
      protocolIncludes (protocolInForce opts) .sec = false)

section

variable {host : Host} {cmd cmd' : CommandData} {opts : List ArgV} {a : ArgV}

/-! ## The word along a run -/

/-- An option that sets no field of the first word leaves the word alone. -/
theorem firstWord_of_accept (hacc : accept host cmd a = some cmd') (h : ¬SetsFirstWord a) :
    cmd'.word host (.ccsdsPri 0) = cmd.word host (.ccsdsPri 0) := by
  cases accepted_of_accept hacc with
  | field f hk _ =>
    have hne : HdrWord.ccsdsPri 0 ≠ f.word := fun heq => h ⟨f, hk, heq.symm⟩
    rw [CommandData.word_setOverride]
    exact CommandData.word_setWord_ne hne host cmd _
  | payload _ _ _ _ | positional _ | ignored _ | endian _ _ _ | protocol _ _ _ _ => rfl

theorem firstWord_of_acceptAll (hrun : acceptAll host cmd opts = some cmd')
    (h : ∀ a ∈ opts, ¬SetsFirstWord a) :
    cmd'.word host (.ccsdsPri 0) = cmd.word host (.ccsdsPri 0) := by
  induction opts generalizing cmd with
  | nil =>
    obtain rfl := Option.some.inj hrun
    rfl
  | cons a opts ih =>
    obtain ⟨cmd₁, hacc, hrest⟩ := foldlM_cons_some.mp hrun
    rw [ih hrest fun b hb => h b (List.mem_cons_of_mem _ hb)]
    exact firstWord_of_accept hacc (h a List.mem_cons_self)

/-- `--pktid` assigns the whole word. -/
theorem firstWord_of_pktid {text : Text} (hacc : accept host cmd ⟨.pktid, text⟩ = some cmd') :
    cmd'.word host (.ccsdsPri 0) = (strtoul text).value.setWidth 16 := by
  cases accepted_of_accept hacc with
  | field f hk _ =>
    obtain rfl : Field.pktid = f := Kind.field.inj hk
    have hassign : ∀ x bits : BitVec 16, assign 0xFFFF x bits = bits := by
      intro x bits
      have hmask : (0xFFFF : BitVec 16) = BitVec.allOnes 16 := by decide
      rw [assign, hmask, BitVec.not_allOnes, BitVec.and_zero, BitVec.and_allOnes, BitVec.zero_or]
    rw [CommandData.word_setOverride]
    refine (CommandData.word_setWord_same host cmd _ _).trans ?_
    refine (hassign _ _).trans ?_
    simp [fieldBits, Field.bits]
  | payload _ _ _ hpay => simp [kind, Kind.isPayload] at hpay
  | positional hk | ignored hk | endian _ hk _ | protocol _ hk _ _ => cases hk

/-! ## The word that is sent -/

/-- The defaults for the first word. -/
theorem defaultMask_firstWord (cmd : CommandData) :
    cmd.defaultMask (.ccsdsPri 0) =
      (if cmd.defaultsTo1 .type then 0x1000 else 0) |||
        (if cmd.defaultsTo1 .secHdr then 0x0800 else 0) := by
  unfold CommandData.defaultMask CommandData.maskWhen
  simp [Field.word, Field.mask]

/-- The defaults leave a word alone when their bits are set in it. -/
theorem or_defaultMask_iff (cmd : CommandData) (x : BitVec 16) :
    x ||| cmd.defaultMask (.ccsdsPri 0) = x ↔
      (cmd.defaultsTo1 .type = true → x.getLsbD 12 = true) ∧
        (cmd.defaultsTo1 .secHdr = true → x.getLsbD 11 = true) := by
  -- the two masks have one bit each
  have htype : ∀ i, (0x1000 : BitVec 16).getLsbD i = decide (i = 12) := by
    intro i
    rw [show (0x1000 : BitVec 16) = BitVec.twoPow 16 12 by decide, BitVec.getLsbD_twoPow]
    grind
  have hsec : ∀ i, (0x0800 : BitVec 16).getLsbD i = decide (i = 11) := by
    intro i
    rw [show (0x0800 : BitVec 16) = BitVec.twoPow 16 11 by decide, BitVec.getLsbD_twoPow]
    grind
  have hite : ∀ (c : Bool) (m : BitVec 16) i,
      (if c = true then m else 0).getLsbD i = (c && m.getLsbD i) := by
    intro c m i
    cases c
    · exact BitVec.getLsbD_zero
    · rfl
  rw [defaultMask_firstWord, or_eq_self_iff]
  simp only [BitVec.getLsbD_or, hite, htype, hsec, Bool.or_eq_true, Bool.and_eq_true,
    decide_eq_true_eq]
  constructor
  · exact fun h => ⟨fun ht => h 12 (Or.inl ⟨ht, rfl⟩), fun hs => h 11 (Or.inr ⟨hs, rfl⟩)⟩
  · rintro ⟨ht, hs⟩ i (⟨hc, rfl⟩ | ⟨hc, rfl⟩)
    · exact ht hc
    · exact hs hc

theorem overridden_iff (h : Tracks opts cmd) {f : Field} (hf : f.hasOverride = true) :
    f.overridden cmd = true ↔ ∃ a ∈ opts, kind a.optionId = .field f := by
  rw [h.overridden f hf, Option.isSome_iff_ne_none, ne_eq, lastOf_eq_none_iff]
  simp [fieldValueOf]

/-- The first word of a packet. -/
theorem decodeWord_firstWord {out : Mem} {sz : Nat}
    (hrun : acceptAll host instantiate opts = some cmd)
    (hpri : protocolIncludes (protocolInForce opts) .pri = true)
    (hpack : (getPackedObject host cmd out sz).ok = true) :
    decodeWord (getPackedObject host cmd out sz).bytes 0 =
      cmd.word host (.ccsdsPri 0) ||| cmd.defaultMask (.ccsdsPri 0) := by
  have hword := decodeWord_packet hrun hpack (w := .ccsdsPri 0) hpri
  have hoff : HdrWord.offset (protocolInForce opts) (.ccsdsPri 0) = 0 := rfl
  rw [hoff, CommandData.sentWord, if_neg fun h => HdrWord.noConfusion h.1] at hword
  rw [hword, CommandData.word_setDefaults host cmd _ (by decide)]

/-- The value of `--pktid` is sent exactly when it has the bits of the defaults, where
no option overrides them. -/
theorem pktid_sent_iff (host : Host) {pre post : List ArgV} {text : Text} {cmd : CommandData}
    (hrun : acceptAll host instantiate (pre ++ ⟨.pktid, text⟩ :: post) = some cmd)
    (hX : (strtoul text).value.toNat ≤ 0xFFFF) (hpost : ∀ a ∈ post, ¬SetsFirstWord a)
    (hpri : protocolIncludes (protocolInForce (pre ++ ⟨.pktid, text⟩ :: post)) .pri = true)
    {out : Mem} {sz : Nat} (hpack : (getPackedObject host cmd out sz).ok = true) :
    (decodeWord (getPackedObject host cmd out sz).bytes 0).toNat = (strtoul text).value.toNat ↔
      HasDefaults (pre ++ ⟨.pktid, text⟩ :: post) (strtoul text).value.toNat := by
  have htracks := tracks_of_acceptAll hrun
  have hsec := htracks.includes .sec
  have htype := overridden_iff htracks (f := .type) rfl
  have hsecHdr := overridden_iff htracks (f := .secHdr) rfl
  rw [decodeWord_firstWord hrun hpri hpack]
  obtain ⟨cmd₁, -, hrest⟩ := foldlM_append_some.mp hrun
  obtain ⟨cmd₂, hacc, hrest⟩ := foldlM_cons_some.mp hrest
  have hword : cmd.word host (.ccsdsPri 0) = (strtoul text).value.setWidth 16 :=
    (firstWord_of_acceptAll hrest hpost).trans (firstWord_of_pktid hacc)
  generalize (strtoul text).value = v at *
  -- the id is in the range of the word, so nothing is cut off
  have hv : v.toNat = (v.setWidth 16).toNat := by
    rw [BitVec.toNat_setWidth]
    exact (Nat.mod_eq_of_lt (by omega)).symm
  have hbit : ∀ i, v.toNat.testBit i = (v.setWidth 16).getLsbD i := by
    intro i
    rw [hv]
    rfl
  rw [hword, hv, BitVec.toNat_inj, or_defaultMask_iff, HasDefaults, ← hv, hbit, hbit, ← htype,
    ← hsecHdr, ← hsec]
  simp only [CommandData.defaultsTo1, Field.overridden, CommandData.includes]
  grind

end

/-- Without the bits of the defaults, another id is sent. -/
theorem pktid_sent_fails_on_telemetry :
    ∃ cmd, acceptAll Host.little instantiate [⟨.pktid, str "0x0003"⟩] = some cmd ∧
      (getPackedObject Host.little cmd (fun _ => 0) 2048).ok = true ∧
      (decodeWord (getPackedObject Host.little cmd (fun _ => 0) 2048).bytes 0).toNat ≠
        (strtoul (str "0x0003")).value.toNat :=
  exists_packed Host.little [⟨.pktid, str "0x0003"⟩] (fun _ => 0) 2048
    (fun r => (decodeWord r.bytes 0).toNat ≠ (strtoul (str "0x0003")).value.toNat) (by decide)

/-- The id of a command with a secondary header. -/
theorem pktid_sent_iff_command :
    ∃ cmd, acceptAll Host.little instantiate [⟨.pktid, str "0x1803"⟩] = some cmd ∧
      ((decodeWord (getPackedObject Host.little cmd (fun _ => 0) 2048).bytes 0).toNat =
          (strtoul (str "0x1803")).value.toNat ↔
        HasDefaults [⟨.pktid, str "0x1803"⟩] (strtoul (str "0x1803")).value.toNat) := by
  obtain ⟨cmd, hrun, hok, -⟩ := exists_packed Host.little
    [⟨.pktid, str "0x1803"⟩] (fun _ => 0) 2048 (fun _ => True) (by decide)
  exact ⟨cmd, hrun, @pktid_sent_iff Host.little [] [] _ _ hrun (by decide)
    (fun _ h => absurd h List.not_mem_nil) (by decide) _ _ hok⟩

end CmdSend.PassThru
