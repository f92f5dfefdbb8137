-- SUMMARY: What an accepted option does to the encoder: the inversion of parseOption, and the fields it leaves alone.
import CmdSend.PassThru.Fields
import CmdSend.Lib.Run

/-!
# Accepted options

`accept` is a call of `parseOption` that does not return
`CmdSend_OptParse_INVALID`, and `Accepted` lists everything such a call can do.
The invariants of a run are case analyses on `Accepted`.
-/

namespace CmdSend.PassThru

open CLib

namespace CommandData

/-- The value of a header word. -/
def word (host : Host) (cmd : CommandData) (w : HdrWord) : BitVec 16 :=
  betoh host.order (cmd.hdr w)

/-- Assign the bits of a mask in a header word. -/
def assignWord (host : Host) (cmd : CommandData) (w : HdrWord) (mask bits : BitVec 16) :
    CommandData :=
  cmd.setWord w (htobe host.order (assign mask (cmd.word host w) bits))

/-- Select the headers of a protocol. -/
def withProtocol (cmd : CommandData) (p : Protocol) : CommandData :=
  { cmd with
    includeCCSDSPri := protocolIncludes p .pri
    includeCCSDSExt := protocolIncludes p .ext
    includeCFSSec := protocolIncludes p .sec }

/-- Exchange the payload. -/
def withPayload (cmd : CommandData) (payload : Mem) (payloadBytes : BitVec 32) : CommandData :=
  { cmd with payload := payload, payloadBytes := payloadBytes }

theorem setProtocol_eq (cmd : CommandData) (p : Protocol) :
    cmd.setProtocol p =
      (cmd.withProtocol p).answer (if p = .undefined then .invalid else .accepted) := by
  cases p <;> rfl

@[simp] theorem includes_withProtocol (cmd : CommandData) (p : Protocol) (h : Header) :
    (cmd.withProtocol p).includes h = protocolIncludes p h := by
  cases h <;> rfl

/-! ## Words -/

@[simp] theorem word_setWord_same (host : Host) (cmd : CommandData) (w : HdrWord)
    (v : BitVec 16) : (cmd.setWord w (htobe host.order v)).word host w = v := by
  simp [word, setWord]

theorem word_setWord_ne {w w' : HdrWord} (h : w' ≠ w) (host : Host) (cmd : CommandData)
    (v : BitVec 16) : (cmd.setWord w v).word host w' = cmd.word host w' := by
  simp [word, setWord, h]

@[simp] theorem word_setOverride (host : Host) (f : Field) (cmd : CommandData) (w : HdrWord) :
    (f.setOverride cmd).word host w = cmd.word host w := by
  cases f <;> rfl

@[simp] theorem includes_setOverride (f : Field) (cmd : CommandData) (h : Header) :
    (f.setOverride cmd).includes h = cmd.includes h := by
  cases f <;> cases h <;> rfl

end CommandData

/-- The bits that `processField` assigns for a field. -/
def fieldBits (f : Field) (text : Text) : BitVec 16 :=
  ((strtoul text).value <<< f.bits.lo).setWidth 16

/-- The value of a field in the encoder. -/
def CommandData.field (host : Host) (cmd : CommandData) (f : Field) : BitVec f.bits.len :=
  f.bits.read (cmd.word host f.word)

/-! ## The helpers of the parser -/

section

variable (host : Host) (cmd : CommandData)

/-- `processField` either rejects the text or assigns the shifted value. -/
theorem processField_eq_or (f : Field) (text : Text) :
    (∃ error, cmd.processField host f.word text f.mask (cmd.includes f.header) =
      cmd.reject error) ∨
    (cmd.includes f.header = true ∧
      cmd.processField host f.word text f.mask (cmd.includes f.header) =
        (cmd.assignWord host f.word f.mask (fieldBits f text)).answer .accepted) := by
  unfold CommandData.processField
  split
  · exact Or.inl ⟨_, rfl⟩
  · rename_i hexists
    simp only
    split
    · exact Or.inl ⟨_, rfl⟩
    · split
      · exact Or.inl ⟨_, rfl⟩
      · split
        · exact Or.inl ⟨_, rfl⟩
        · refine Or.inr ⟨by simpa using hexists, ?_⟩
          simp only [fieldBits, f.shiftOf_mask]
          rfl

/-- The outcome of a copy or a fill that was carried out. -/
def CommandData.appended (bytes : List Byte) (nbytes : BitVec 32) : Outcome :=
  { retcode := .accepted
    cmd := cmd.withPayload (cmd.payload.copy cmd.payloadBytes.toNat bytes)
      (cmd.payloadBytes + nbytes)
    writes := [⟨cmd.payloadBytes.toNat, nbytes.toNat⟩] }

/-- The bytes that are in use lie inside `Payload`. -/
def CommandData.InBounds : Prop :=
  cmd.payloadBytes.toNat ≤ maxPacketSize

instance : Decidable cmd.InBounds :=
  inferInstanceAs (Decidable (cmd.payloadBytes.toNat ≤ maxPacketSize))

/-- The check of `copyData` and `padData` passes. -/
def CommandData.HasRoom (nbytes : BitVec 32) : Prop :=
  (cmd.payloadBytes + nbytes).toNat ≤ maxPacketSize

instance (nbytes : BitVec 32) : Decidable (cmd.HasRoom nbytes) :=
  inferInstanceAs (Decidable ((cmd.payloadBytes + nbytes).toNat ≤ maxPacketSize))

theorem copyData_of_hasRoom {nbytes : BitVec 32} (h : cmd.HasRoom nbytes) (src : List Byte) :
    cmd.copyData src nbytes = cmd.appended (src.take nbytes.toNat) nbytes :=
  if_neg (Nat.not_lt.mpr h)

theorem copyData_of_not_hasRoom {nbytes : BitVec 32} (h : ¬cmd.HasRoom nbytes)
    (src : List Byte) : ∃ error, cmd.copyData src nbytes = cmd.reject error :=
  ⟨_, if_pos (Nat.not_le.mp h)⟩

theorem padData_of_hasRoom {nbytes : BitVec 32} (h : cmd.HasRoom nbytes) (val : Byte) :
    cmd.padData val nbytes = cmd.appended (List.replicate nbytes.toNat val) nbytes := by
  rw [CommandData.padData, if_neg (Nat.not_lt.mpr h), Mem.fill_eq_copy]
  rfl

theorem padData_of_not_hasRoom {nbytes : BitVec 32} (h : ¬cmd.HasRoom nbytes) (val : Byte) :
    ∃ error, cmd.padData val nbytes = cmd.reject error :=
  ⟨_, if_pos (Nat.not_le.mp h)⟩

/-- The text and the length of a `--string` argument `N:s`, if it has that form
and the text fits into the length. -/
def stringParts (text : Text) : Option (Text × Nat) :=
  match (strtoull text).tail with
  | [] => none
  | c :: s =>
    let n := (strtoull text).value.toNat
    if c = ch ':' ∧ n ≠ 0 ∧ s.length ≤ n then some (s, n) else none

theorem stringPayload_of_some {text s : Text} {n : Nat} (h : stringParts text = some (s, n)) :
    cmd.stringPayload text = cmd.copyAndPad s n := by
  unfold stringParts at h
  unfold CommandData.stringPayload
  cases htail : (strtoull text).tail with
  | nil =>
    rw [htail] at h
    cases h
  | cons c tail =>
    simp only [htail] at h ⊢
    split at h
    · rename_i hform
      obtain ⟨rfl, rfl⟩ := Prod.mk.inj (Option.some.inj h)
      rw [if_neg (by simp [hform.1, hform.2.1]), if_neg (Nat.not_lt.mpr hform.2.2)]
    · cases h

theorem stringPayload_of_none {text : Text} (h : stringParts text = none) :
    ∃ error, cmd.stringPayload text = cmd.reject error := by
  unfold stringParts at h
  unfold CommandData.stringPayload
  cases htail : (strtoull text).tail with
  | nil =>
    simp only [htail]
    exact ⟨_, rfl⟩
  | cons c tail =>
    simp only [htail] at h ⊢
    split
    · exact ⟨_, rfl⟩
    · rename_i hform
      split
      · exact ⟨_, rfl⟩
      · rename_i hlen
        simp only [not_or, not_not] at hform
        rw [if_pos ⟨hform.1, hform.2, Nat.not_lt.mp hlen⟩] at h
        cases h

theorem copyAndPad_of_not_hasRoom {cmd : CommandData} {s : Text} (n : Nat)
    (h : ¬cmd.HasRoom (BitVec.ofNat 32 s.length)) :
    cmd.copyAndPad s n = cmd.copyData s (BitVec.ofNat 32 s.length) := by
  obtain ⟨error, herr⟩ := copyData_of_not_hasRoom cmd h s
  unfold CommandData.copyAndPad
  simp only [herr, CommandData.reject, CommandData.answer]
  exact if_neg (by simp)

theorem copyAndPad_of_length_eq {cmd : CommandData} {s : Text} {n : Nat}
    (h : s.length = n) :
    cmd.copyAndPad s n = cmd.copyData s (BitVec.ofNat 32 s.length) :=
  if_neg (by simp [h])

theorem copyAndPad_of_hasRoom {cmd : CommandData} {s : Text} {n : Nat}
    (h : s.length ≠ n)
    (hroom : cmd.HasRoom (BitVec.ofNat 32 s.length)) :
    cmd.copyAndPad s n =
      let copied := cmd.appended (s.take (BitVec.ofNat 32 s.length).toNat)
        (BitVec.ofNat 32 s.length)
      let padded := copied.cmd.padData 0 (BitVec.ofNat 32 (n - s.length))
      { padded with writes := copied.writes ++ padded.writes } := by
  unfold CommandData.copyAndPad
  simp only [copyData_of_hasRoom cmd hroom]
  exact if_pos ⟨rfl, h⟩

/-- Everything that the block of a payload option can come to: it refuses the text, appends
bytes, or appends a string and pads it or refuses to. A string is refused at once only
where its text does not fit. -/
inductive PayloadResponse (a : ArgV) : Outcome → Prop
  | refused (error : Text) :
      (∀ s n, kind a.optionId = .string → stringParts a.text = some (s, n) →
        ¬cmd.HasRoom (BitVec.ofNat 32 s.length)) →
      PayloadResponse a (cmd.reject error)
  | appended (bytes : List Byte) {nbytes : BitVec 32} : cmd.HasRoom nbytes →
      PayloadResponse a (cmd.appended bytes nbytes)
  | padded {s : Text} {n : Nat} {copied padded : Outcome} : kind a.optionId = .string →
      stringParts a.text = some (s, n) → cmd.HasRoom (BitVec.ofNat 32 s.length) →
      copied = cmd.appended (s.take (BitVec.ofNat 32 s.length).toNat)
        (BitVec.ofNat 32 s.length) →
      copied.cmd.HasRoom (BitVec.ofNat 32 (n - s.length)) →
      padded = copied.cmd.appended (List.replicate (BitVec.ofNat 32 (n - s.length)).toNat 0)
        (BitVec.ofNat 32 (n - s.length)) →
      PayloadResponse a { padded with writes := copied.writes ++ padded.writes }
  | padRefused {s : Text} {n : Nat} {copied : Outcome} (error : Text) :
      kind a.optionId = .string → stringParts a.text = some (s, n) →
      cmd.HasRoom (BitVec.ofNat 32 s.length) →
      copied = cmd.appended (s.take (BitVec.ofNat 32 s.length).toNat)
        (BitVec.ofNat 32 s.length) →
      PayloadResponse a { copied.cmd.reject error with writes := copied.writes ++ [] }

theorem payloadResponse_copyData {a : ArgV} (h : kind a.optionId ≠ .string) (src : List Byte)
    (nbytes : BitVec 32) : PayloadResponse cmd a (cmd.copyData src nbytes) := by
  by_cases hroom : cmd.HasRoom nbytes
  · rw [copyData_of_hasRoom cmd hroom]
    exact .appended _ hroom
  · obtain ⟨error, herr⟩ := copyData_of_not_hasRoom cmd hroom src
    rw [herr]
    exact .refused _ fun _ _ hk => absurd hk h

theorem payloadResponse_floatPayload {a : ArgV} (h : kind a.optionId ≠ .string) {w : Nat}
    (line : Nat) (name : String) (text : Text) (conv : BitVec w × Text) (force : Bool) :
    PayloadResponse cmd a (cmd.floatPayload host line name text conv force) := by
  unfold CommandData.floatPayload
  split
  · exact .refused _ fun _ _ hk => absurd hk h
  · exact payloadResponse_copyData cmd h _ _

theorem payloadResponse_stringPayload {a : ArgV} (hk : kind a.optionId = .string) :
    PayloadResponse cmd a (cmd.stringPayload a.text) := by
  cases hparts : stringParts a.text with
  | none =>
    obtain ⟨error, herr⟩ := stringPayload_of_none cmd hparts
    rw [herr]
    refine .refused _ fun s n _ hsome => ?_
    rw [hparts] at hsome
    cases hsome
  | some parts =>
    obtain ⟨s, n⟩ := parts
    rw [stringPayload_of_some cmd hparts]
    by_cases hroom : cmd.HasRoom (BitVec.ofNat 32 s.length)
    · by_cases hlen : s.length = n
      · rw [copyAndPad_of_length_eq hlen, copyData_of_hasRoom cmd hroom]
        exact .appended _ hroom
      · rw [copyAndPad_of_hasRoom hlen hroom]
        dsimp only
        by_cases hpad : (cmd.appended (s.take (BitVec.ofNat 32 s.length).toNat)
            (BitVec.ofNat 32 s.length)).cmd.HasRoom (BitVec.ofNat 32 (n - s.length))
        · rw [padData_of_hasRoom _ hpad]
          exact .padded hk hparts hroom rfl hpad rfl
        · obtain ⟨error, herr⟩ := padData_of_not_hasRoom _ hpad 0
          rw [herr]
          exact .padRefused _ hk hparts hroom rfl
    · obtain ⟨error, herr⟩ := copyData_of_not_hasRoom cmd hroom s
      rw [copyAndPad_of_not_hasRoom n hroom, herr]
      refine .refused _ fun s' n' _ hsome => ?_
      obtain ⟨rfl, rfl⟩ := Prod.mk.inj (Option.some.inj (hparts.symm.trans hsome))
      exact hroom

theorem payloadResponse_parseKind {a : ArgV} (force : Bool)
    (hk : (kind a.optionId).isPayload) :
    PayloadResponse cmd a (parseKind host cmd a.text force (kind a.optionId)) := by
  cases hkind : kind a.optionId with
  | int o =>
    have hne : kind a.optionId ≠ .string := by rw [hkind]; exact Kind.noConfusion
    unfold parseKind CommandData.intPayload
    simp only
    split
    · exact .refused _ fun _ _ hk => absurd hk hne
    · exact payloadResponse_copyData cmd hne _ _
  | double | float =>
    have hne : kind a.optionId ≠ .string := by rw [hkind]; exact Kind.noConfusion
    exact payloadResponse_floatPayload host cmd hne _ _ _ _ _
  | string => exact payloadResponse_stringPayload cmd hkind
  | _ =>
    rw [hkind] at hk
    cases hk

/-- A call that is not rejected changes nothing but the payload, and the payload
fits. -/
def PayloadOnly (o : Outcome) : Prop :=
  o.retcode ≠ .invalid →
    ∃ payload payloadBytes, payloadBytes.toNat ≤ maxPacketSize ∧
      o.cmd = cmd.withPayload payload payloadBytes

theorem PayloadResponse.payloadOnly {a : ArgV} {o : Outcome} (h : PayloadResponse cmd a o) :
    PayloadOnly cmd o := by
  intro hret
  cases h with
  | refused | padRefused => exact absurd rfl hret
  | appended bytes hroom => exact ⟨_, _, hroom, rfl⟩
  | padded _ _ _ hcopied hpad hpadded =>
    subst hcopied hpadded
    exact ⟨_, _, hpad, rfl⟩

theorem parseEndian_eq_or {a : ArgV} (hid : a.optionId = .endian) :
    (∃ error, cmd.parseEndian a.text = cmd.reject error) ∨
      ∃ o, endianOf a = some o ∧
        cmd.parseEndian a.text = { cmd with bigEndian := o = ByteOrder.big }.answer .accepted := by
  unfold CommandData.parseEndian
  by_cases hle : a.text = str "LE"
  · rw [if_pos hle]
    exact Or.inr ⟨.little, by simp [endianOf, hid, hle], rfl⟩
  · by_cases hbe : a.text = str "BE"
    · rw [if_neg hle, if_pos hbe]
      exact Or.inr ⟨.big, by simp [endianOf, hid, hle], rfl⟩
    · rw [if_neg hle, if_neg hbe]
      exact Or.inl ⟨_, rfl⟩

/-- Everything that a call of `parseOption` can come to. -/
inductive Response (a : ArgV) : Outcome → Prop
  | positional : kind a.optionId = .positional →
      Response a ({ cmd with payloadError := true }.answer .undefined)
  | ignored : kind a.optionId = .ignored → Response a (cmd.answer .undefined)
  | fieldRefused (f : Field) (error : Text) : kind a.optionId = .field f →
      Response a ((cmd.reject error).override f.setOverride)
  | field (f : Field) : kind a.optionId = .field f → cmd.includes f.header = true →
      Response a (((cmd.assignWord host f.word f.mask (fieldBits f a.text)).answer
        .accepted).override f.setOverride)
  | endianRefused (error : Text) : kind a.optionId = .endian → Response a (cmd.reject error)
  | endian (o : ByteOrder) : kind a.optionId = .endian → endianOf a = some o →
      Response a ({ cmd with bigEndian := o = ByteOrder.big }.answer .accepted)
  | protocol (p : Protocol) : kind a.optionId = .protocol → protocolOf a = some p →
      Response a ((cmd.withProtocol p).answer (if p = .undefined then .invalid else .accepted))
  | payload {o : Outcome} : (kind a.optionId).isPayload → PayloadResponse cmd a o →
      Response a o

theorem response_parseOption (a : ArgV) : Response host cmd a (parseOption host cmd a) := by
  rw [parseOption_eq]
  by_cases hpay : (kind a.optionId).isPayload
  · exact .payload hpay (payloadResponse_parseKind host cmd _ hpay)
  cases hk : kind a.optionId with
  | positional => exact .positional hk
  | ignored => exact .ignored hk
  | field f =>
    simp only [parseKind]
    cases processField_eq_or host cmd f a.text with
    | inl hrej =>
      obtain ⟨error, hrej⟩ := hrej
      rw [hrej]
      exact .fieldRefused f _ hk
    | inr hacc =>
      rw [hacc.2]
      exact .field f hk hacc.1
  | endian =>
    simp only [parseKind]
    cases parseEndian_eq_or cmd (optionId_of_kind .endian (by decide) hk) with
    | inl hrej =>
      obtain ⟨error, hrej⟩ := hrej
      rw [hrej]
      exact .endianRefused _ hk
    | inr hacc =>
      obtain ⟨o, ho, hacc⟩ := hacc
      rw [hacc]
      exact .endian o hk ho
  | protocol =>
    have hid := optionId_of_kind .protocol (by decide) hk
    simp only [parseKind]
    rw [CommandData.setProtocol_eq]
    exact .protocol _ hk (by simp [protocolOf, hid])
  | _ => simp [hk, Kind.isPayload] at hpay

end

/-! ## Accepted calls -/

/-- The state behind a call of `parseOption`, unless that returns
`CmdSend_OptParse_INVALID`. Whether the call returns at all is not looked at here, see
`runOptions`. -/
def accept (host : Host) (cmd : CommandData) (a : ArgV) : Option CommandData :=
  let o := parseOption host cmd a
  if o.retcode = .invalid then none else some o.cmd

theorem accept_eq_some_iff {host : Host} {cmd cmd' : CommandData} {a : ArgV} :
    accept host cmd a = some cmd' ↔
      (parseOption host cmd a).retcode ≠ .invalid ∧ (parseOption host cmd a).cmd = cmd' := by
  unfold accept
  simp only
  split <;> simp_all

/-- Everything that an accepted call can do. -/
inductive Accepted (host : Host) (cmd : CommandData) (a : ArgV) : CommandData → Prop
  | positional : kind a.optionId = .positional →
      Accepted host cmd a { cmd with payloadError := true }
  | ignored : kind a.optionId = .ignored → Accepted host cmd a cmd
  | field (f : Field) : kind a.optionId = .field f → cmd.includes f.header = true →
      Accepted host cmd a
        (f.setOverride (cmd.assignWord host f.word f.mask (fieldBits f a.text)))
  | endian (o : ByteOrder) : kind a.optionId = .endian → endianOf a = some o →
      Accepted host cmd a { cmd with bigEndian := o = .big }
  | protocol (p : Protocol) : kind a.optionId = .protocol → protocolOf a = some p →
      p ≠ .undefined → Accepted host cmd a (cmd.withProtocol p)
  | payload (payload : Mem) (payloadBytes : BitVec 32) :
      payloadBytes.toNat ≤ maxPacketSize → (kind a.optionId).isPayload →
      Accepted host cmd a (cmd.withPayload payload payloadBytes)

theorem accepted_of_accept {host : Host} {cmd cmd' : CommandData} {a : ArgV}
    (h : accept host cmd a = some cmd') : Accepted host cmd a cmd' := by
  obtain ⟨hret, rfl⟩ := accept_eq_some_iff.mp h
  have hresp := response_parseOption host cmd a
  generalize parseOption host cmd a = o at hret hresp ⊢
  cases hresp with
  | positional hk => exact .positional hk
  | ignored hk => exact .ignored hk
  | fieldRefused | endianRefused => exact absurd rfl hret
  | field f hk hinc => exact .field f hk hinc
  | endian o hk ho => exact .endian o hk ho
  | protocol p hk hp => exact .protocol p hk hp fun hundef => hret (if_pos hundef)
  | payload hpay hresp =>
    obtain ⟨payload, payloadBytes, hle, hcmd⟩ := hresp.payloadOnly cmd hret
    rw [hcmd]
    exact .payload payload payloadBytes hle hpay

/-- The run of a sequence of options that are all accepted. -/
def acceptAll (host : Host) (cmd : CommandData) (opts : List ArgV) : Option CommandData :=
  opts.foldlM (accept host) cmd

/-- The calls of a run that stops at the first rejected option: the state each
call meets, and its option. -/
def calls (host : Host) (cmd : CommandData) (opts : List ArgV) : List (CommandData × ArgV) :=
  taken (accept host) cmd opts

/-- How a run ends: behind its last option, at the option that is refused, or with the
program. -/
inductive RunEnd
  | accepted (cmd : CommandData)
  | refused
  | died

/-- `PassThru_ParseOption` for one option after the other, up to the first
`CmdSend_OptParse_INVALID`, or to the end of the program. -/
def runOptions (host : Host) (cmd : CommandData) : List ArgV → RunEnd
  | [] => .accepted cmd
  | a :: opts =>
    let o := parseOption host cmd a
    if o.died then .died
    else if o.retcode = .invalid then .refused
    else runOptions host o.cmd opts

/-- The calls of a run are the first one and those after it. -/
theorem forall_calls_cons {host : Host} {cmd cmd' : CommandData} {a : ArgV} {opts : List ArgV}
    {P : CommandData × ArgV → Prop} (hacc : accept host cmd a = some cmd') :
    (∀ c ∈ calls host cmd (a :: opts), P c) ↔ P (cmd, a) ∧ ∀ c ∈ calls host cmd' opts, P c := by
  rw [calls, taken_cons_some hacc]
  exact List.forall_mem_cons

end CmdSend.PassThru
