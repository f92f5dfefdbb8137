-- SUMMARY: The writes into Payload: they stay inside it exactly while the 32-bit sums of a --string option do not wrap.
import CmdSend.PassThru.Step

/-!
# Payload safety

`copyData` and `padData` check a sum of `unsigned int` against the size of
`Payload`. The check is worth what the sum is worth: while the mathematical sum
stays below 2^32 it keeps the write inside, and once it wraps the check passes
and the write leaves the array. Only the lengths of a `--string` option can
bring a sum that far.
-/

namespace CmdSend.PassThru

open CLib

/-- The outcome leaves the encoder in bounds, and its writes were in bounds. -/
def Outcome.Safe (o : Outcome) : Prop :=
  o.cmd.InBounds ∧ ∀ e ∈ o.writes, e.Within maxPacketSize

/-- The 32-bit sums that guard the writes of a `--string` option do not wrap: the
payload so far with the length of the text, and, if the text itself fits, with
the length of the padding. The lengths are those that are passed on, modulo
2^32. -/
def SumsFit (cmd : CommandData) (a : ArgV) : Prop :=
  a.optionId = .string → ∀ s n, stringParts a.text = some (s, n) →
    cmd.payloadBytes.toNat + s.length % 2 ^ 32 < 2 ^ 32 ∧
      (cmd.payloadBytes.toNat + s.length % 2 ^ 32 ≤ maxPacketSize →
        cmd.payloadBytes.toNat + s.length % 2 ^ 32 + (n - s.length) % 2 ^ 32 < 2 ^ 32)

/-- Every state that a run reaches, up to the first rejected option, is in
bounds, and so is every write that the run executes. -/
def PayloadSafe (host : Host) (opts : List ArgV) : Prop :=
  instantiate.InBounds ∧
    ∀ c ∈ calls host instantiate opts, c.1.InBounds ∧ (parseOption host c.1 c.2).Safe

/-! ## One write -/

section

variable {cmd : CommandData}

theorem toNat_sum (cmd : CommandData) (nbytes : BitVec 32) :
    (cmd.payloadBytes + nbytes).toNat = (cmd.payloadBytes.toNat + nbytes.toNat) % 2 ^ 32 :=
  BitVec.toNat_add ..

theorem safe_reject (h : cmd.InBounds) (error : Text) : (cmd.reject error).Safe :=
  ⟨h, by simp [CommandData.reject, CommandData.answer]⟩

theorem inBounds_appended {nbytes : BitVec 32} (hroom : cmd.HasRoom nbytes) (bytes : List Byte) :
    (cmd.appended bytes nbytes).cmd.InBounds := hroom

/-- A sum that wraps passes the check. -/
theorem hasRoom_of_wrap (h : cmd.InBounds) {nbytes : BitVec 32}
    (hwrap : 2 ^ 32 ≤ cmd.payloadBytes.toNat + nbytes.toNat) : cmd.HasRoom nbytes := by
  have := nbytes.isLt
  unfold CommandData.InBounds maxPacketSize at h
  unfold CommandData.HasRoom maxPacketSize
  rw [toNat_sum]
  omega

/-- A write that passes the check is in bounds exactly when the sum of the check
does not wrap. -/
theorem within_iff {nbytes : BitVec 32} (hroom : cmd.HasRoom nbytes) :
    (⟨cmd.payloadBytes.toNat, nbytes.toNat⟩ : Extent).Within maxPacketSize ↔
      cmd.payloadBytes.toNat + nbytes.toNat < 2 ^ 32 := by
  unfold CommandData.HasRoom maxPacketSize at hroom
  unfold Extent.Within maxPacketSize
  rw [toNat_sum] at hroom
  simp only
  omega

theorem safe_appended_iff {nbytes : BitVec 32} (hroom : cmd.HasRoom nbytes)
    (bytes : List Byte) :
    (cmd.appended bytes nbytes).Safe ↔ cmd.payloadBytes.toNat + nbytes.toNat < 2 ^ 32 := by
  rw [← within_iff hroom]
  constructor
  · exact fun hsafe => hsafe.2 _ (List.mem_singleton.mpr rfl)
  · intro hwithin
    refine ⟨inBounds_appended hroom bytes, fun e he => ?_⟩
    rw [List.mem_singleton.mp he]
    exact hwithin

theorem safe_copyData_iff (h : cmd.InBounds) (src : List Byte) (nbytes : BitVec 32) :
    (cmd.copyData src nbytes).Safe ↔ cmd.payloadBytes.toNat + nbytes.toNat < 2 ^ 32 := by
  by_cases hroom : cmd.HasRoom nbytes
  · rw [copyData_of_hasRoom cmd hroom, safe_appended_iff hroom]
  · obtain ⟨error, herr⟩ := copyData_of_not_hasRoom cmd hroom src
    rw [herr, iff_true_left (safe_reject h error)]
    exact Nat.lt_of_not_le fun hwrap => hroom (hasRoom_of_wrap h hwrap)

theorem safe_padData_iff (h : cmd.InBounds) (val : Byte) (nbytes : BitVec 32) :
    (cmd.padData val nbytes).Safe ↔ cmd.payloadBytes.toNat + nbytes.toNat < 2 ^ 32 := by
  by_cases hroom : cmd.HasRoom nbytes
  · rw [padData_of_hasRoom cmd hroom, safe_appended_iff hroom]
  · obtain ⟨error, herr⟩ := padData_of_not_hasRoom cmd hroom val
    rw [herr, iff_true_left (safe_reject h error)]
    exact Nat.lt_of_not_le fun hwrap => hroom (hasRoom_of_wrap h hwrap)

/-- A copy of a few bytes is always safe: its sum cannot wrap. -/
theorem safe_copyData_small (h : cmd.InBounds) (src : List Byte) {k : Nat} (hk : k ≤ 8) :
    (cmd.copyData src (BitVec.ofNat 32 k)).Safe := by
  unfold CommandData.InBounds maxPacketSize at h
  rw [safe_copyData_iff h, BitVec.toNat_ofNat]
  omega

/-! ## A `--string` option -/

/-- A write and a fill behind it are safe when neither sum wraps. -/
theorem safe_append_pad_iff {k : BitVec 32} (hroom : cmd.HasRoom k) (bytes : List Byte)
    (n : BitVec 32) :
    let copied := cmd.appended bytes k
    let padded := copied.cmd.padData 0 n
    ({ padded with writes := copied.writes ++ padded.writes } : Outcome).Safe ↔
      cmd.payloadBytes.toNat + k.toNat < 2 ^ 32 ∧
        cmd.payloadBytes.toNat + k.toNat + n.toNat < 2 ^ 32 := by
  intro copied padded
  have hfirst := safe_appended_iff hroom bytes
  have hsecond := safe_padData_iff (inBounds_appended hroom bytes) 0 n
  have hsum : copied.cmd.payloadBytes.toNat =
      (cmd.payloadBytes.toNat + k.toNat) % 2 ^ 32 := toNat_sum cmd k
  rw [hsum] at hsecond
  constructor
  · rintro ⟨hin, hwrites⟩
    have h₁ := hfirst.mp
      ⟨inBounds_appended hroom bytes, fun e he => hwrites e (List.mem_append_left _ he)⟩
    have h₂ := hsecond.mp ⟨hin, fun e he => hwrites e (List.mem_append_right _ he)⟩
    rw [Nat.mod_eq_of_lt h₁] at h₂
    exact ⟨h₁, h₂⟩
  · rintro ⟨h₁, h₂⟩
    rw [Nat.mod_eq_of_lt h₁] at hsecond
    obtain ⟨-, hw₁⟩ := hfirst.mpr h₁
    obtain ⟨hin, hw₂⟩ := hsecond.mpr h₂
    refine ⟨hin, fun e he => ?_⟩
    cases List.mem_append.mp he with
    | inl he => exact hw₁ e he
    | inr he => exact hw₂ e he

theorem safe_copyAndPad_iff (h : cmd.InBounds) {s : Text} {n : Nat} :
    (cmd.copyAndPad s n).Safe ↔
      cmd.payloadBytes.toNat + s.length % 2 ^ 32 < 2 ^ 32 ∧
        (cmd.payloadBytes.toNat + s.length % 2 ^ 32 ≤ maxPacketSize →
          cmd.payloadBytes.toNat + s.length % 2 ^ 32 + (n - s.length) % 2 ^ 32 < 2 ^ 32) := by
  have hcopy := safe_copyData_iff h s (BitVec.ofNat 32 s.length)
  rw [BitVec.toNat_ofNat] at hcopy
  by_cases hroom : cmd.HasRoom (BitVec.ofNat 32 s.length)
  · by_cases hlen : s.length = n
    · rw [copyAndPad_of_length_eq hlen, hcopy]
      simp only [iff_self_and]
      intro hlt _
      rw [hlen, Nat.sub_self]
      omega
    · have hle := hroom
      unfold CommandData.HasRoom at hle
      rw [toNat_sum, BitVec.toNat_ofNat] at hle
      rw [copyAndPad_of_hasRoom hlen hroom]
      simp only [safe_append_pad_iff hroom, BitVec.toNat_ofNat]
      omega
  · have hlarge : maxPacketSize < cmd.payloadBytes.toNat + s.length % 2 ^ 32 := by
      unfold CommandData.HasRoom maxPacketSize at *
      rw [toNat_sum, BitVec.toNat_ofNat] at hroom
      omega
    rw [copyAndPad_of_not_hasRoom n hroom, hcopy]
    simp only [iff_self_and]
    intro _ hle
    omega

end

/-! ## One call -/

theorem width_of_kind_int {id : OptionId} {o : IntOption} (h : kind id = .int o) :
    8 ∣ o.width ∧ 8 ≤ o.width ∧ o.width ≤ 64 := by
  cases id <;> simp only [kind, reduceCtorEq, Kind.int.injEq] at h <;> subst h <;> decide

theorem safe_floatPayload (host : Host) {cmd : CommandData} (h : cmd.InBounds) {w : Nat}
    (hw : w ≤ 64) (line : Nat) (name : String) (text : Text) (conv : BitVec w × Text)
    (force : Bool) : (cmd.floatPayload host line name text conv force).Safe := by
  unfold CommandData.floatPayload
  split
  · exact safe_reject h _
  · exact safe_copyData_small h _ (by omega)

/-- The calls for `--string` are safe exactly when their sums fit. -/
theorem safe_stringPayload_iff {cmd : CommandData} (h : cmd.InBounds) (text : Text) :
    (cmd.stringPayload text).Safe ↔ SumsFit cmd ⟨.string, text⟩ := by
  simp only [SumsFit, forall_const]
  cases hparts : stringParts text with
  | none =>
    obtain ⟨error, herr⟩ := stringPayload_of_none cmd hparts
    rw [herr, iff_true_left (safe_reject h error)]
    simp
  | some parts =>
    obtain ⟨s, n⟩ := parts
    rw [stringPayload_of_some cmd hparts, safe_copyAndPad_iff h]
    simp only [Option.some.injEq, Prod.mk.injEq]
    constructor
    · rintro hsums s' n' ⟨rfl, rfl⟩
      exact hsums
    · exact fun hsums => hsums s n ⟨rfl, rfl⟩

theorem safe_processField (host : Host) {cmd : CommandData} (h : cmd.InBounds) (f : Field)
    (text : Text) :
    ((cmd.processField host f.word text f.mask (cmd.includes f.header)).override
      f.setOverride).Safe := by
  have hin : ∀ cmd : CommandData, cmd.InBounds → (f.setOverride cmd).InBounds := by
    intro cmd h
    cases f <;> exact h
  cases processField_eq_or host cmd f text with
  | inl hrej =>
    obtain ⟨error, hrej⟩ := hrej
    rw [hrej]
    exact ⟨hin _ h, (safe_reject h error).2⟩
  | inr hacc =>
    rw [hacc.2]
    exact ⟨hin _ h, by simp [Outcome.override, CommandData.answer]⟩

/-- The other options are safe. -/
theorem safe_parseKind (host : Host) {cmd : CommandData} (h : cmd.InBounds) {id : OptionId}
    (hid : id ≠ .string) (text : Text) :
    (parseKind host cmd text (forceBigEndian id) (kind id)).Safe := by
  cases hk : kind id with
  | positional | ignored => exact ⟨h, by simp [parseKind, CommandData.answer]⟩
  | field f => exact safe_processField host h f text
  | endian =>
    simp only [parseKind, CommandData.parseEndian]
    split
    · exact ⟨h, by simp [CommandData.answer]⟩
    · split
      · exact ⟨h, by simp [CommandData.answer]⟩
      · exact safe_reject h _
  | protocol =>
    simp only [parseKind, CommandData.setProtocol_eq]
    exact ⟨h, by simp [CommandData.answer]⟩
  | int o =>
    simp only [parseKind, CommandData.intPayload]
    split
    · exact safe_reject h _
    · have := (width_of_kind_int hk).2.2
      exact safe_copyData_small h _ (by omega)
  | double => exact safe_floatPayload host h (by decide) ..
  | float => exact safe_floatPayload host h (by decide) ..
  | string =>
    have hstring : id = .string := by
      revert hk
      cases id <;> simp [kind]
    exact absurd hstring hid

theorem safe_parseOption_iff (host : Host) {cmd : CommandData} (h : cmd.InBounds) (a : ArgV) :
    (parseOption host cmd a).Safe ↔ SumsFit cmd a := by
  obtain ⟨id, text⟩ := a
  by_cases hid : id = .string
  · subst hid
    exact safe_stringPayload_iff h text
  · have hsums : SumsFit cmd ⟨id, text⟩ := fun hstring => absurd hstring hid
    rw [iff_true_right hsums, parseOption_eq]
    exact safe_parseKind host h hid text

/-! ## Runs -/

theorem inBounds_instantiate : instantiate.InBounds := by decide

theorem inBounds_setOverride {cmd : CommandData} (f : Field) (h : cmd.InBounds) :
    (f.setOverride cmd).InBounds := by
  cases f <;> exact h

/-- No accepted option leads out of bounds, whatever its writes did. -/
theorem inBounds_of_accept {host : Host} {cmd cmd' : CommandData} {a : ArgV} (h : cmd.InBounds)
    (hacc : accept host cmd a = some cmd') : cmd'.InBounds := by
  cases accepted_of_accept hacc with
  | field f _ _ => exact inBounds_setOverride f h
  | payload _ _ hle _ => exact hle
  | positional _ | ignored _ | endian _ _ _ | protocol _ _ _ _ => exact h

theorem inBounds_of_acceptAll {host : Host} {cmd : CommandData} {opts : List ArgV}
    (hrun : acceptAll host instantiate opts = some cmd) : cmd.InBounds :=
  foldlM_invariant (I := fun _ cmd => cmd.InBounds) inBounds_instantiate
    (fun _ _ _ _ h hacc => inBounds_of_accept h hacc) hrun

theorem inBounds_of_mem_calls {host : Host} {opts : List ArgV} {c : CommandData × ArgV}
    (hc : c ∈ calls host instantiate opts) : c.1.InBounds :=
  taken_invariant (fun _ _ _ h hacc => inBounds_of_accept h hacc) opts _ inBounds_instantiate c hc

theorem payloadSafe_of_sumsFit {host : Host} {opts : List ArgV}
    (h : ∀ c ∈ calls host instantiate opts, SumsFit c.1 c.2) : PayloadSafe host opts := by
  refine ⟨inBounds_instantiate, fun c hc => ⟨inBounds_of_mem_calls hc, ?_⟩⟩
  exact (safe_parseOption_iff host (inBounds_of_mem_calls hc) c.2).mpr (h c hc)

theorem sumsFit_of_payloadSafe {host : Host} {opts : List ArgV} (h : PayloadSafe host opts) :
    ∀ c ∈ calls host instantiate opts, SumsFit c.1 c.2 :=
  fun c hc => (safe_parseOption_iff host (inBounds_of_mem_calls hc) c.2).mp (h.2 c hc).2

/-- A run without a `--string` option is safe. -/
theorem payloadSafe_of_no_string {host : Host} {opts : List ArgV}
    (h : ∀ a ∈ opts, a.optionId ≠ .string) : PayloadSafe host opts :=
  payloadSafe_of_sumsFit fun c hc hstring => absurd hstring (h c.2 (mem_of_mem_taken hc))

/-- A run is safe exactly when the sums of each of its calls fit. -/
theorem payloadSafe_iff_sumsFit (host : Host) (opts : List ArgV) :
    PayloadSafe host opts ↔ ∀ c ∈ calls host instantiate opts, SumsFit c.1 c.2 :=
  ⟨sumsFit_of_payloadSafe, payloadSafe_of_sumsFit⟩

/-! ## The end of the program -/

theorem died_eq_false_iff {o : Outcome} :
    o.died = false ↔ ∀ e ∈ o.writes, e.Within maxPacketSize := by
  simp [Outcome.died]

theorem inBounds_of_payloadResponse {cmd : CommandData} {a : ArgV} {o : Outcome}
    (h : cmd.InBounds) (hresp : PayloadResponse cmd a o) : o.cmd.InBounds := by
  cases hresp with
  | refused => exact h
  | appended bytes hroom => exact inBounds_appended hroom bytes
  | padded _ _ _ hcopied hpad hpadded =>
    subst hcopied hpadded
    exact inBounds_appended hpad _
  | padRefused _ _ _ hroom hcopied =>
    subst hcopied
    exact hroom

/-- A call leaves the counter in bounds, also when it refuses the option. -/
theorem inBounds_parseOption (host : Host) {cmd : CommandData} (h : cmd.InBounds) (a : ArgV) :
    (parseOption host cmd a).cmd.InBounds := by
  have hresp := response_parseOption host cmd a
  generalize parseOption host cmd a = o at hresp ⊢
  cases hresp with
  | fieldRefused f | field f => exact inBounds_setOverride f h
  | payload _ hpay => exact inBounds_of_payloadResponse h hpay
  | _ => exact h

/-- A call returns exactly when the sums fit. -/
theorem died_parseOption_iff (host : Host) {cmd : CommandData} (h : cmd.InBounds) (a : ArgV) :
    (parseOption host cmd a).died = false ↔ SumsFit cmd a := by
  rw [died_eq_false_iff, ← safe_parseOption_iff host h a]
  exact (and_iff_right (inBounds_parseOption host h a)).symm

section

variable {host : Host} {opts : List ArgV} {cmd : CommandData}

/-- A run whose sums fit comes to its last option, or to the one that is refused. -/
theorem runOptions_of_sumsFit (hin : cmd.InBounds)
    (h : ∀ c ∈ calls host cmd opts, SumsFit c.1 c.2) :
    runOptions host cmd opts = (acceptAll host cmd opts).elim .refused .accepted := by
  induction opts generalizing cmd with
  | nil => rfl
  | cons a opts ih =>
    have hdied := (died_parseOption_iff host hin a).mpr (h (cmd, a) List.mem_cons_self)
    unfold runOptions acceptAll
    dsimp only
    rw [hdied, if_neg Bool.false_ne_true, List.foldlM_cons]
    by_cases hret : (parseOption host cmd a).retcode = .invalid
    · have hacc : accept host cmd a = none := if_pos hret
      rw [if_pos hret, hacc]
      rfl
    · have hacc : accept host cmd a = some (parseOption host cmd a).cmd := if_neg hret
      rw [if_neg hret, hacc]
      exact ih (inBounds_of_accept hin hacc) ((forall_calls_cons hacc).mp h).2

/-- A run with a sum that does not fit is the end of the program. -/
theorem runOptions_of_not_sumsFit (hin : cmd.InBounds)
    (h : ¬∀ c ∈ calls host cmd opts, SumsFit c.1 c.2) : runOptions host cmd opts = .died := by
  induction opts generalizing cmd with
  | nil => exact absurd (fun c hc => absurd hc List.not_mem_nil) h
  | cons a opts ih =>
    unfold runOptions
    dsimp only
    by_cases hsums : SumsFit cmd a
    · rw [(died_parseOption_iff host hin a).mpr hsums, if_neg Bool.false_ne_true]
      by_cases hret : (parseOption host cmd a).retcode = .invalid
      · have hacc : accept host cmd a = none := if_pos hret
        refine absurd (fun c hc => ?_) h
        rw [calls, taken_cons_none hacc, List.mem_singleton] at hc
        rw [hc]
        exact hsums
      · have hacc : accept host cmd a = some (parseOption host cmd a).cmd := if_neg hret
        rw [if_neg hret]
        exact ih (inBounds_of_accept hin hacc)
          fun hrest => h ((forall_calls_cons hacc).mpr ⟨hsums, hrest⟩)
    · have hdied := (died_parseOption_iff host hin a).not.mpr hsums
      rw [Bool.not_eq_false] at hdied
      rw [if_pos hdied]

/-- The program outlives a run exactly when the sums of each of its calls fit. -/
theorem runOptions_ne_died_iff (hin : cmd.InBounds) :
    runOptions host cmd opts ≠ .died ↔ ∀ c ∈ calls host cmd opts, SumsFit c.1 c.2 := by
  constructor
  · intro hlive
    by_contra h
    exact hlive (runOptions_of_not_sumsFit hin h)
  · intro h
    rw [runOptions_of_sumsFit hin h]
    cases acceptAll host cmd opts <;> exact RunEnd.noConfusion

/-- A run that comes to its last option has refused nothing, and wrote inside `Payload`. -/
theorem runOptions_eq_accepted_iff :
    runOptions host instantiate opts = .accepted cmd ↔
      acceptAll host instantiate opts = some cmd ∧ PayloadSafe host opts := by
  by_cases h : ∀ c ∈ calls host instantiate opts, SumsFit c.1 c.2
  · rw [runOptions_of_sumsFit inBounds_instantiate h, and_iff_left (payloadSafe_of_sumsFit h)]
    cases acceptAll host instantiate opts <;> simp
  · rw [runOptions_of_not_sumsFit inBounds_instantiate h]
    exact iff_of_false RunEnd.noConfusion fun hrun => h (sumsFit_of_payloadSafe hrun.2)

end

/-- A little-endian host whose floating-point conversions read nothing. -/
def Host.little : Host :=
  { order := .little
    strerror := fun _ => []
    strtod := fun text => (0, text)
    strtof := fun text => (0, text) }

/-- A length that wraps: three bytes are copied, then the fill of 2^32 - 1 bytes
passes the check. -/
theorem payloadSafe_fails_on_wrap :
    ¬PayloadSafe Host.little [⟨.string, str "4294967298:abc"⟩] := by
  rintro ⟨-, hsafe⟩
  have hcall := hsafe (instantiate, ⟨.string, str "4294967298:abc"⟩) List.mem_cons_self
  have hwrite : ¬(⟨3, 4294967295⟩ : Extent).Within maxPacketSize := by decide
  exact hwrite (hcall.2.2 ⟨3, 4294967295⟩ (by decide))

end CmdSend.PassThru
