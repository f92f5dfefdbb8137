-- SUMMARY: Independent options commute: rearranging them changes neither the verdict of a command line nor its packet.
import CmdSend.Lib.Reorder
import CmdSend.PassThru.Decode
import CmdSend.PassThru.HeaderValue

/-!
# Independent options

An option that is not for the payload is an update of the encoder under a condition
(`accept_update`). Such an update goes through a payload option, which looks at the
payload and the byte order only, and through another update for other fields. What is
left are the pairs of options that have to keep their order (`Kind.keepsOrder`).
-/

namespace CmdSend.PassThru

open CLib

/-! ## Options that have to keep their order -/

/-- The options whose order makes the payload. -/
def Kind.ordersPayload : Kind → Bool
  | .endian => true
  | k => k.isPayload

/-- Header options whose masks in the same word overlap keep their order, protocol
options keep theirs among each other and with the header options, and so do the options
that make the payload. -/
def Kind.keepsOrder : Kind → Kind → Bool
  | .field f, .field g => f.word = g.word ∧ f.mask &&& g.mask ≠ 0
  | .protocol, .protocol => true
  | .protocol, .field _ => true
  | .field _, .protocol => true
  | k, k' => k.ordersPayload && k'.ordersPayload

theorem Kind.keepsOrder_symm (k k' : Kind) : k.keepsOrder k' = k'.keepsOrder k := by
  cases k <;> cases k' <;> first
    | rfl
    | simp only [keepsOrder, BitVec.and_comm, eq_comm]

theorem Kind.ordersPayload_of_isPayload {k : Kind} (h : k.isPayload = true) :
    k.ordersPayload = true := by
  cases k <;> first
    | rfl
    | exact h

theorem Kind.keepsOrder_of_ordersPayload {k k' : Kind} (h : k.ordersPayload = true)
    (h' : k'.ordersPayload = true) : k.keepsOrder k' = true := by
  cases k <;> cases k' <;> first
    | rfl
    | exact absurd h Bool.false_ne_true
    | exact absurd h' Bool.false_ne_true

/-- The two options have to keep their order. -/
def Dependent (a b : ArgV) : Prop := (kind a.optionId).keepsOrder (kind b.optionId) = true

instance (a b : ArgV) : Decidable (Dependent a b) := inferInstanceAs (Decidable (_ = true))

/-! ## Options for the payload -/

/-- An update that a payload option does not see. -/
structure PayloadFrame (f : CommandData → CommandData) : Prop where
  payload : ∀ cmd, (f cmd).payload = cmd.payload
  payloadBytes : ∀ cmd, (f cmd).payloadBytes = cmd.payloadBytes
  bigEndian : ∀ cmd, (f cmd).bigEndian = cmd.bigEndian
  withPayload : ∀ cmd m n, f (cmd.withPayload m n) = (f cmd).withPayload m n

/-- The second outcome is the first one after an update. -/
def Mirrors (f : CommandData → CommandData) (o o' : Outcome) : Prop :=
  o'.retcode = o.retcode ∧ (o.retcode ≠ .invalid → o'.cmd = f o.cmd)

section

variable {f : CommandData → CommandData}

theorem mirrors_reject (cmd : CommandData) (error error' : Text) :
    Mirrors f (cmd.reject error) ((f cmd).reject error') := ⟨rfl, fun h => absurd rfl h⟩

theorem hasRoom_frame (hf : PayloadFrame f) (cmd : CommandData) (n : BitVec 32) :
    (f cmd).HasRoom n ↔ cmd.HasRoom n := by
  unfold CommandData.HasRoom
  rw [hf.payloadBytes]

theorem appended_frame (hf : PayloadFrame f) (cmd : CommandData) (bytes : List Byte)
    (n : BitVec 32) : ((f cmd).appended bytes n).cmd = f (cmd.appended bytes n).cmd := by
  simp only [CommandData.appended, hf.payload, hf.payloadBytes, hf.withPayload]

/-- An append that is refused when there is no room for it. -/
theorem mirrors_append (hf : PayloadFrame f) (cmd : CommandData) {g : CommandData → Outcome}
    {bytes : List Byte} {n : BitVec 32}
    (hroom : ∀ cmd, cmd.HasRoom n → g cmd = cmd.appended bytes n)
    (hfull : ∀ cmd, ¬cmd.HasRoom n → ∃ error, g cmd = cmd.reject error) :
    Mirrors f (g cmd) (g (f cmd)) := by
  have hsame := hasRoom_frame hf cmd n
  by_cases h : cmd.HasRoom n
  · rw [hroom cmd h, hroom (f cmd) (hsame.mpr h)]
    exact ⟨rfl, fun _ => appended_frame hf cmd _ _⟩
  · obtain ⟨error, hrej⟩ := hfull cmd h
    obtain ⟨error', hrej'⟩ := hfull (f cmd) (h ∘ hsame.mp)
    rw [hrej, hrej']
    exact mirrors_reject cmd error error'

theorem mirrors_copyData (hf : PayloadFrame f) (cmd : CommandData) (src : List Byte)
    (n : BitVec 32) : Mirrors f (cmd.copyData src n) ((f cmd).copyData src n) :=
  mirrors_append (g := fun cmd => cmd.copyData src n) hf cmd
    (fun cmd h => copyData_of_hasRoom cmd h src)
    (fun cmd h => copyData_of_not_hasRoom cmd h src)

theorem mirrors_padData (hf : PayloadFrame f) (cmd : CommandData) (val : Byte) (n : BitVec 32) :
    Mirrors f (cmd.padData val n) ((f cmd).padData val n) :=
  mirrors_append (g := fun cmd => cmd.padData val n) hf cmd
    (fun cmd h => padData_of_hasRoom cmd h val)
    (fun cmd h => padData_of_not_hasRoom cmd h val)

theorem mirrors_copyAndPad (hf : PayloadFrame f) (cmd : CommandData) (s : Text) (n : Nat) :
    Mirrors f (cmd.copyAndPad s n) ((f cmd).copyAndPad s n) := by
  have hcopy := mirrors_copyData hf cmd s (BitVec.ofNat 32 s.length)
  unfold CommandData.copyAndPad
  simp only [hcopy.1]
  split
  · rename_i hcopied
    rw [hcopy.2 (by rw [hcopied.1]; exact OptParse.noConfusion)]
    exact mirrors_padData hf _ _ _
  · exact hcopy

theorem mirrors_stringPayload (hf : PayloadFrame f) (cmd : CommandData) (text : Text) :
    Mirrors f (cmd.stringPayload text) ((f cmd).stringPayload text) := by
  cases hparts : stringParts text with
  | none =>
    obtain ⟨error, hrej⟩ := stringPayload_of_none cmd hparts
    obtain ⟨error', hrej'⟩ := stringPayload_of_none (f cmd) hparts
    rw [hrej, hrej']
    exact mirrors_reject cmd error error'
  | some parts =>
    rw [stringPayload_of_some cmd hparts, stringPayload_of_some _ hparts]
    exact mirrors_copyAndPad hf cmd _ _

theorem endianConversion_frame (hf : PayloadFrame f) (cmd : CommandData) (host : Host)
    (force : Bool) {w : Nat} (x : BitVec w) :
    (f cmd).endianConversion host force x = cmd.endianConversion host force x := by
  unfold CommandData.endianConversion
  rw [hf.bigEndian]

theorem mirrors_floatPayload (hf : PayloadFrame f) (cmd : CommandData) (host : Host) {w : Nat}
    (line : Nat) (name : String) (text : Text) (conv : BitVec w × Text) (force : Bool) :
    Mirrors f (cmd.floatPayload host line name text conv force)
      ((f cmd).floatPayload host line name text conv force) := by
  unfold CommandData.floatPayload
  simp only [endianConversion_frame hf]
  split
  · exact mirrors_reject cmd _ _
  · exact mirrors_copyData hf cmd _ _

theorem mirrors_parseKind (hf : PayloadFrame f) (cmd : CommandData) (host : Host) (text : Text)
    (force : Bool) {k : Kind} (hk : k.isPayload = true) :
    Mirrors f (parseKind host cmd text force k) (parseKind host (f cmd) text force k) := by
  cases k with
  | int o =>
    simp only [parseKind, CommandData.intPayload, endianConversion_frame hf]
    split
    · exact mirrors_reject cmd _ _
    · exact mirrors_copyData hf cmd _ _
  | double => exact mirrors_floatPayload hf cmd host ..
  | float => exact mirrors_floatPayload hf cmd host ..
  | string => exact mirrors_stringPayload hf cmd text
  | _ => cases hk

/-- A payload option goes through an update that it does not see. -/
theorem accept_frame (hf : PayloadFrame f) (cmd : CommandData) (host : Host) {b : ArgV}
    (hb : (kind b.optionId).isPayload = true) :
    accept host (f cmd) b = (accept host cmd b).map f := by
  have hmirrors := mirrors_parseKind hf cmd host b.text (forceBigEndian b.optionId) hb
  rw [← parseOption_eq, ← parseOption_eq] at hmirrors
  unfold accept
  simp only [hmirrors.1]
  split
  · rfl
  · rename_i hret
    rw [hmirrors.2 hret]
    rfl

end

/-! ## Options that are updates -/

/-- What an option that is not for the payload asks of the encoder and of its text. -/
def Passes (a : ArgV) (cmd : CommandData) : Prop :=
  match kind a.optionId with
  | .field f => cmd.includes f.header = true ∧ WholeText a.text ∧
      (strtoul a.text).value.toNat % 2 ^ (64 - f.bits.lo) < 2 ^ f.bits.len
  | .endian => a.text = str "LE" ∨ a.text = str "BE"
  | .protocol => getProtocolFromString a.text ≠ .undefined
  | _ => True

/-- What an option that is not for the payload does to the encoder. -/
def act (host : Host) (a : ArgV) (cmd : CommandData) : CommandData :=
  match kind a.optionId with
  | .positional => { cmd with payloadError := true }
  | .field f => f.setOverride (cmd.assignWord host f.word f.mask (fieldBits f a.text))
  | .endian => { cmd with bigEndian := decide (a.text = str "BE") }
  | .protocol => cmd.withProtocol (getProtocolFromString a.text)
  | _ => cmd

section

variable {host : Host} {cmd : CommandData} {a b : ArgV}

theorem accept_eq_none_iff :
    accept host cmd a = none ↔ (parseOption host cmd a).retcode = .invalid := by
  unfold accept
  simp

/-- The state that an outcome leaves to the options after it. -/
def Outcome.kept (o : Outcome) : Option CommandData :=
  if o.retcode = .invalid then none else some o.cmd

theorem accept_eq (host : Host) (cmd : CommandData) {k : Kind} (hk : kind a.optionId = k) :
    accept host cmd a = (parseKind host cmd a.text (forceBigEndian a.optionId) k).kept := by
  rw [← hk, ← parseOption_eq]
  rfl

/-- The verdict and the effect of an option for a header field. -/
theorem accept_field (host : Host) (cmd : CommandData) {f : Field}
    (hk : kind a.optionId = .field f) :
    (Passes a cmd → accept host cmd a = some (act host a cmd)) ∧
      (¬Passes a cmd → accept host cmd a = none) := by
  have hcases := processField_cases (f := f.bits) host cmd f.word a.text f.len_pos f.bits_le
  rw [run_bits, ← fieldBits] at hcases
  rw [accept_eq host cmd hk]
  simp only [Passes, act, hk, parseKind]
  cases hinc : cmd.includes f.header with
  | false => exact ⟨fun h => absurd h.1 Bool.false_ne_true, fun _ => rfl⟩
  | true =>
    cases hcases with
    | inl hrej =>
      obtain ⟨error, hrej, hno⟩ := hrej
      rw [hrej]
      exact ⟨fun h => absurd h.2 hno, fun _ => rfl⟩
    | inr hacc =>
      obtain ⟨hwhole, hfits, hacc⟩ := hacc
      rw [hacc]
      exact ⟨fun _ => rfl, fun h => absurd ⟨rfl, hwhole, hfits⟩ h⟩

/-- The verdict and the effect of an option that is not for the payload. -/
theorem accept_update (host : Host) (cmd : CommandData)
    (ha : (kind a.optionId).isPayload = false) :
    (Passes a cmd → accept host cmd a = some (act host a cmd)) ∧
      (¬Passes a cmd → accept host cmd a = none) := by
  cases hk : kind a.optionId with
  | field f => exact accept_field host cmd hk
  | positional | ignored =>
    rw [accept_eq host cmd hk]
    simp only [Passes, act, hk]
    exact ⟨fun _ => rfl, fun h => absurd trivial h⟩
  | endian =>
    have hle : str "LE" ≠ str "BE" := by decide
    rw [accept_eq host cmd hk]
    simp only [Passes, act, hk, parseKind, CommandData.parseEndian]
    by_cases hLE : a.text = str "LE"
    · rw [if_pos hLE, hLE, decide_eq_false hle]
      exact ⟨fun _ => rfl, fun h => absurd (Or.inl rfl) h⟩
    · by_cases hBE : a.text = str "BE"
      · rw [if_neg hLE, if_pos hBE, decide_eq_true hBE]
        exact ⟨fun _ => rfl, fun h => absurd (Or.inr hBE) h⟩
      · rw [if_neg hLE, if_neg hBE]
        exact ⟨fun h => absurd h (not_or.mpr ⟨hLE, hBE⟩), fun _ => rfl⟩
  | protocol =>
    rw [accept_eq host cmd hk]
    simp only [Passes, act, hk, parseKind, CommandData.setProtocol_eq]
    by_cases hp : getProtocolFromString a.text = .undefined
    · rw [if_pos hp]
      exact ⟨fun h => absurd hp h, fun _ => rfl⟩
    · rw [if_neg hp]
      exact ⟨fun _ => rfl, fun h => absurd hp h⟩
  | _ => simp [hk, Kind.isPayload] at ha

/-! ## Updates of different fields -/

/-- Assignments of different words, or through masks that share no bit, can change
places. -/
theorem assignWord_comm (host : Host) (cmd : CommandData) {w w' : HdrWord}
    {mask mask' : BitVec 16} (h : w = w' → mask &&& mask' = 0) (bits bits' : BitVec 16) :
    (cmd.assignWord host w mask bits).assignWord host w' mask' bits' =
      (cmd.assignWord host w' mask' bits').assignWord host w mask bits := by
  unfold CommandData.assignWord
  by_cases hw : w = w'
  · subst hw
    rw [CommandData.word_setWord_same, CommandData.word_setWord_same,
      BitField.assign_comm (h rfl)]
    simp [CommandData.setWord]
  · rw [CommandData.word_setWord_ne (Ne.symm hw), CommandData.word_setWord_ne hw]
    simp only [CommandData.setWord]
    rw [Function.update_comm (Ne.symm hw)]

theorem setOverride_assignWord (host : Host) (cmd : CommandData) (f : Field) (w : HdrWord)
    (mask bits : BitVec 16) :
    f.setOverride (cmd.assignWord host w mask bits) =
      (f.setOverride cmd).assignWord host w mask bits := by
  cases f <;> rfl

theorem setOverride_comm (cmd : CommandData) (f g : Field) :
    f.setOverride (g.setOverride cmd) = g.setOverride (f.setOverride cmd) := by
  cases f <;> cases g <;> rfl

/-- Two options for fields of different words, or of bits that do not overlap. -/
theorem act_field_comm (host : Host) (cmd : CommandData) {f g : Field}
    (ha : kind a.optionId = .field f) (hb : kind b.optionId = .field g)
    (h : g.word = f.word → g.mask &&& f.mask = 0) :
    act host a (act host b cmd) = act host b (act host a cmd) := by
  simp only [act, ha, hb, setOverride_assignWord, setOverride_comm _ f g]
  exact assignWord_comm host _ h _ _

/-- An option for a field and an option that is for no field and does not select the
protocol. -/
theorem act_field_through (host : Host) (cmd : CommandData) {f : Field}
    (ha : kind a.optionId = .field f) (hfield : ∀ g, kind b.optionId ≠ .field g)
    (hprotocol : kind b.optionId ≠ .protocol) :
    act host a (act host b cmd) = act host b (act host a cmd) := by
  cases hb : kind b.optionId with
  | field g => exact absurd hb (hfield g)
  | protocol => exact absurd hb hprotocol
  | positional | endian =>
    simp only [act, ha, hb]
    cases f <;> rfl
  | _ => simp only [act, hb]

/-- The updates of two options that need not keep their order can change places. -/
theorem act_comm (host : Host) (cmd : CommandData) (hab : ¬Dependent a b) :
    act host a (act host b cmd) = act host b (act host a cmd) := by
  unfold Dependent at hab
  cases ha : kind a.optionId with
  | field f =>
    cases hb : kind b.optionId with
    | field g =>
      rw [ha, hb] at hab
      refine act_field_comm host cmd ha hb fun hw => ?_
      by_contra hne
      rw [BitVec.and_comm] at hne
      exact hab (decide_eq_true ⟨hw.symm, hne⟩)
    | protocol => simp [ha, hb, Kind.keepsOrder] at hab
    | _ => exact act_field_through host cmd ha (by simp [hb]) (by simp [hb])
  | protocol =>
    cases hb : kind b.optionId with
    | field _ | protocol => simp [ha, hb, Kind.keepsOrder] at hab
    | positional | endian => simp only [act, ha, hb]; rfl
    | _ => simp only [act, hb]
  | positional =>
    cases hb : kind b.optionId with
    | field g => exact (act_field_through host cmd hb (by simp [ha]) (by simp [ha])).symm
    | protocol => simp only [act, ha, hb]; rfl
    | _ => simp only [act, ha, hb]
  | endian =>
    cases hb : kind b.optionId with
    | field g => exact (act_field_through host cmd hb (by simp [ha]) (by simp [ha])).symm
    | endian => simp [ha, hb, Kind.keepsOrder, Kind.ordersPayload] at hab
    | positional => simp only [act, ha, hb]
    | protocol => simp only [act, ha, hb]; rfl
    | _ => simp only [act, hb]
  | _ => simp only [act, ha]

/-- An option leaves alone what an option that need not keep its order with it asks. -/
theorem passes_of_accept {cmd' : CommandData} (hacc : accept host cmd b = some cmd')
    (hab : ¬Dependent a b) : Passes a cmd' ↔ Passes a cmd := by
  unfold Passes
  cases ha : kind a.optionId with
  | field f =>
    have hb : kind b.optionId ≠ .protocol := by
      intro hb
      simp [Dependent, ha, hb, Kind.keepsOrder] at hab
    have hincludes := (accepted_of_accept hacc).includes f.header
    rw [protocolOf_eq_none hb] at hincludes
    simp only [hincludes, Option.elim_none]
  | _ => exact Iff.rfl

/-- The update of an option is not seen by a payload option, the byte order apart. -/
theorem payloadFrame_act (host : Host) (ha : (kind a.optionId).ordersPayload = false) :
    PayloadFrame (act host a) := by
  cases hk : kind a.optionId with
  | field f => constructor <;> intros <;> simp only [act, hk] <;> cases f <;> rfl
  | endian => simp [hk, Kind.ordersPayload] at ha
  | positional | protocol => constructor <;> intros <;> simp only [act, hk] <;> rfl
  | _ => constructor <;> intros <;> simp only [act, hk]

/-- The steps of options that need not keep their order commute, if the first one is
not for the payload. -/
theorem stepsCommute_of_not_payload (host : Host) (ha : (kind a.optionId).isPayload = false)
    (hab : ¬Dependent a b) : StepsCommute (accept host) a b := by
  refine stepsCommute_of_update (P := Passes a) (f := act host a)
    (fun cmd => (accept_update host cmd ha).1) (fun cmd => (accept_update host cmd ha).2)
    (fun _ _ hacc => passes_of_accept hacc hab) ?_
  intro cmd hpass
  cases hb : (kind b.optionId).isPayload with
  | true =>
    -- a payload option sees the byte order, but then `a` would depend on it
    refine accept_frame (payloadFrame_act host ?_) cmd host hb
    by_contra horders
    rw [Bool.not_eq_false] at horders
    exact hab (Kind.keepsOrder_of_ordersPayload horders (Kind.ordersPayload_of_isPayload hb))
  | false =>
    have hba : ¬Dependent b a := by rwa [Dependent, Kind.keepsOrder_symm]
    -- the condition of `b` is the same before and after `a`
    have hkeep := passes_of_accept ((accept_update host cmd ha).1 hpass) hba
    by_cases hpass' : Passes b cmd
    · rw [(accept_update host cmd hb).1 hpass', (accept_update host _ hb).1 (hkeep.mpr hpass'),
        Option.map_some, act_comm host cmd hab]
    · rw [(accept_update host cmd hb).2 hpass', (accept_update host _ hb).2 (hpass' ∘ hkeep.mp),
        Option.map_none]

/-- The steps of two options that need not keep their order commute. -/
theorem stepsCommute_of_independent (host : Host) (hab : ¬Dependent a b) :
    StepsCommute (accept host) a b := by
  cases ha : (kind a.optionId).isPayload with
  | false => exact stepsCommute_of_not_payload host ha hab
  | true =>
    cases hb : (kind b.optionId).isPayload with
    | false =>
      have hba : ¬Dependent b a := by rwa [Dependent, Kind.keepsOrder_symm]
      exact (stepsCommute_of_not_payload host hb hba).symm
    | true =>
      exact absurd (Kind.keepsOrder_of_ordersPayload (Kind.ordersPayload_of_isPayload ha)
        (Kind.ordersPayload_of_isPayload hb)) hab

end

/-! ## The two runs -/

/-- Either an option is refused in both runs or in neither, and then both are packed alike. -/
structure SamePacket (host : Host) (opts opts' : List ArgV) : Prop where
  refused : runOptions host instantiate opts = .refused ↔
    runOptions host instantiate opts' = .refused
  packed : runOptions host instantiate opts ≠ .refused → ∃ cmd cmd',
    runOptions host instantiate opts = .accepted cmd ∧
    runOptions host instantiate opts' = .accepted cmd' ∧ ∀ out sz,
      (getPackedObject host cmd' out sz).ok = (getPackedObject host cmd out sz).ok ∧
      (getPackedObject host cmd' out sz).size = (getPackedObject host cmd out sz).size ∧
      (getPackedObject host cmd' out sz).bytes = (getPackedObject host cmd out sz).bytes

/-- The program outlives both runs that end in the same packet. -/
theorem SamePacket.ne_died {host : Host} {opts opts' : List ArgV} (h : SamePacket host opts opts') :
    runOptions host instantiate opts ≠ .died ∧ runOptions host instantiate opts' ≠ .died := by
  constructor
  · intro hdied
    obtain ⟨cmd, cmd', hrun, -⟩ := h.packed (by rw [hdied]; exact RunEnd.noConfusion)
    rw [hdied] at hrun
    cases hrun
  · intro hdied
    have hlive : runOptions host instantiate opts ≠ .refused := by
      intro hrefused
      rw [h.refused.mp hrefused] at hdied
      cases hdied
    obtain ⟨cmd, cmd', -, hrun, -⟩ := h.packed hlive
    rw [hdied] at hrun
    cases hrun

/-- Options that are rearranged without a change in the order of two options that have
to keep it: the run is refused, or the packet is the same, exactly when no write leaves
`Payload` in either order. -/
theorem reordered_packet (host : Host) {opts opts' : List ArgV}
    (h : Reorders Dependent opts opts') :
    SamePacket host opts opts' ↔
      (∀ c ∈ calls host instantiate opts, SumsFit c.1 c.2) ∧
        ∀ c ∈ calls host instantiate opts', SumsFit c.1 c.2 := by
  constructor
  · intro hsame
    obtain ⟨hlive, hlive'⟩ := hsame.ne_died
    exact ⟨(runOptions_ne_died_iff inBounds_instantiate).mp hlive,
      (runOptions_ne_died_iff inBounds_instantiate).mp hlive'⟩
  · rintro ⟨hsums, hsums'⟩
    have hacc : acceptAll host instantiate opts = acceptAll host instantiate opts' :=
      foldlM_reorders (fun _ _ hab => stepsCommute_of_independent host hab) h instantiate
    have hrun := runOptions_of_sumsFit inBounds_instantiate hsums
    have hrun' := runOptions_of_sumsFit inBounds_instantiate hsums'
    rw [← hacc] at hrun'
    refine ⟨by rw [hrun, hrun'], fun hlive => ?_⟩
    cases hcmd : acceptAll host instantiate opts with
    | none =>
      rw [hcmd] at hrun
      exact absurd hrun hlive
    | some cmd =>
      rw [hcmd] at hrun hrun'
      exact ⟨cmd, cmd, hrun, hrun', fun out sz => ⟨rfl, rfl, rfl⟩⟩

/-- A payload option and two header options in the reverse order. -/
theorem reordered_packet_reversed :
    SamePacket Host.little [⟨.uint16, str "7"⟩, ⟨.pktfc, str "2"⟩, ⟨.pktapid, str "5"⟩]
      [⟨.pktapid, str "5"⟩, ⟨.pktfc, str "2"⟩, ⟨.uint16, str "7"⟩] := by
  have hreorders : Reorders Dependent
      [⟨.uint16, str "7"⟩, ⟨.pktfc, str "2"⟩, ⟨.pktapid, str "5"⟩]
      [⟨.pktapid, str "5"⟩, ⟨.pktfc, str "2"⟩, ⟨.uint16, str "7"⟩] :=
    ⟨_, List.reverse_perm _, by decide, by decide⟩
  exact (reordered_packet Host.little hreorders).mpr
    ⟨sumsFit_of_payloadSafe (payloadSafe_of_no_string (by decide)),
      sumsFit_of_payloadSafe (payloadSafe_of_no_string (by decide))⟩

/-- A string whose padding leaves `Payload`, and a number that is refused: in this order the
program does not get to the number. -/
theorem reordered_packet_fails_on_wrap :
    Reorders Dependent [⟨.string, str "4294967298:abc"⟩, ⟨.pktapid, str "x"⟩]
        [⟨.pktapid, str "x"⟩, ⟨.string, str "4294967298:abc"⟩] ∧
      ¬SamePacket Host.little [⟨.string, str "4294967298:abc"⟩, ⟨.pktapid, str "x"⟩]
        [⟨.pktapid, str "x"⟩, ⟨.string, str "4294967298:abc"⟩] := by
  refine ⟨⟨_, List.reverse_perm _, by decide, by decide⟩, fun hsame => ?_⟩
  exact hsame.ne_died.1 rfl

end CmdSend.PassThru
