-- SUMMARY: Recorded payload errors: when an encoder whose error flag is up still builds a packet.
import CmdSend.PassThru.Pack
import CmdSend.PassThru.Safety
import CmdSend.Eds.Lookup

/-!
# Payload errors

Both encoders have a flag `PayloadError`, which a rejected argument raises. Neither
`getPackedObject` looks at it, so that the packet is built unless something else
prevents it.
-/

namespace CmdSend

open CLib

/-! ## The flag of the PassThru encoder -/

namespace PassThru

section

variable (host : Host) (cmd : CommandData)

theorem payloadError_of_payloadResponse {a : ArgV} {o : Outcome}
    (h : PayloadResponse cmd a o) : o.cmd.payloadError = cmd.payloadError := by
  cases h with
  | refused | appended => rfl
  | padded _ _ _ hcopied _ hpadded =>
    subst hcopied hpadded
    rfl
  | padRefused _ _ _ _ hcopied =>
    subst hcopied
    rfl

/-- The call is for a positional argument. -/
def setsPayloadError (_ : CommandData) (a : ArgV) : Bool := a.optionId = .none

theorem payloadError_parseOption (a : ArgV) :
    (parseOption host cmd a).cmd.payloadError = (setsPayloadError cmd a || cmd.payloadError) := by
  by_cases hid : a.optionId = .none
  · obtain ⟨id, text⟩ := a
    obtain rfl : id = .none := hid
    rfl
  · have hsets : setsPayloadError cmd a = false := decide_eq_false hid
    have hresp := response_parseOption host cmd a
    rw [hsets, Bool.false_or]
    generalize parseOption host cmd a = o at hresp ⊢
    cases hresp with
    | positional hk => exact absurd (optionId_of_kind .none (by decide) hk) hid
    | fieldRefused f | field f => cases f <;> rfl
    | payload _ hpay => exact payloadError_of_payloadResponse cmd hpay
    | _ => rfl

end

/-- The state after a sequence of calls, whatever they return. -/
def run (host : Host) (cmd : CommandData) (opts : List ArgV) : CommandData :=
  opts.foldl (fun cmd a => (parseOption host cmd a).cmd) cmd

/-- The calls of the sequence, with the states they meet. -/
def runCalls (host : Host) (cmd : CommandData) (opts : List ArgV) : List (CommandData × ArgV) :=
  visited (fun cmd a => (parseOption host cmd a).cmd) cmd opts

theorem payloadError_run (host : Host) (opts : List ArgV) :
    (run host instantiate opts).payloadError = true ↔
      ∃ c ∈ runCalls host instantiate opts, setsPayloadError c.1 c.2 = true := by
  refine (foldl_flag (payloadError_parseOption host) opts instantiate).trans ?_
  simp [instantiate, CommandData.setProtocol, CommandData.answer, runCalls]

/-- If some call has recorded a payload error, no packet is built. -/
def ErrorBlocks (host : Host) (opts : List ArgV) (out : Mem) (sz : Nat) : Prop :=
  (∃ c ∈ runCalls host instantiate opts, setsPayloadError c.1 c.2 = true) →
    (getPackedObject host (run host instantiate opts) out sz).ok = false

theorem errorBlocks_iff (host : Host) (opts : List ArgV) (out : Mem) (sz : Nat) :
    ErrorBlocks host opts out sz ↔
      (∀ c ∈ runCalls host instantiate opts, setsPayloadError c.1 c.2 = false) ∨
        sz < (run host instantiate opts).packedSize := by
  have hok : (getPackedObject host (run host instantiate opts) out sz).ok = false ↔
      sz < (run host instantiate opts).packedSize := by
    rw [getPackedObject_eq]
    split <;> simp <;> omega
  unfold ErrorBlocks
  rw [hok, imp_iff_not_or]
  simp

end PassThru

/-! ## The flag of the EDS encoder -/

namespace Eds

/-- The state after a sequence of calls, whatever they return. -/
def run (host : Host) (cmd : CommandData) (opts : List ArgV) : CommandData :=
  opts.foldl (fun cmd a => (parseOption host cmd a).cmd) cmd

/-- The calls of the sequence, with the states they meet. -/
def runCalls (host : Host) (cmd : CommandData) (opts : List ArgV) : List (CommandData × ArgV) :=
  visited (fun cmd a => (parseOption host cmd a).cmd) cmd opts

theorem payloadError_run {host : Host} {obj : CommandData} (hobj : instantiate host = some obj)
    (opts : List ArgV) :
    (run host obj opts).payloadError = true ↔
      ∃ c ∈ runCalls host obj opts, setsPayloadError host c.1 c.2 = true := by
  refine (foldl_flag (payloadError_parseOption host) opts obj).trans ?_
  have hclear : obj.payloadError = false := by
    unfold instantiate at hobj
    split at hobj
    · cases hobj
    · obtain rfl := Option.some.inj hobj
      rfl
  simp [hclear, runCalls]

/-- If some call has recorded a payload error, no packet is built. -/
def ErrorBlocks (host : Host) (obj : CommandData) (opts : List ArgV) (out : Mem) (sz : Nat) :
    Prop :=
  (∃ c ∈ runCalls host obj opts, setsPayloadError host c.1 c.2 = true) →
    (getPackedObject host (run host obj opts) out sz).ok = false

/-- EdsLib refuses to pack the object that the encoder holds. -/
def PackRefused (host : Host) (cmd : CommandData) (out : Mem) (sz : Nat) : Prop :=
  (host.packCompleteObjectVarSize cmd.actualArg out cmd.buf sz).1 ≠ host.edsSuccess

theorem errorBlocks_iff {host : Host} {obj : CommandData} (hobj : instantiate host = some obj)
    (opts : List ArgV) (out : Mem) (sz : Nat) :
    ErrorBlocks host obj opts out sz ↔
      (∀ c ∈ runCalls host obj opts, setsPayloadError host c.1 c.2 = false) ∨
        PackRefused host (run host obj opts) out sz := by
  have hflag := payloadError_run hobj opts
  unfold ErrorBlocks
  by_cases herror : ∃ c ∈ runCalls host obj opts, setsPayloadError host c.1 c.2 = true
  · have hknown : ErrorKnown obj := by
      intro herr
      have hempty := (payloadError_run hobj []).mp herr
      simp [runCalls, visited] at hempty
    have hstate := foldl_invariant (I := ErrorKnown) (errorKnown_parseOption host) opts hknown
      (hflag.mpr herror)
    have hcheck := checkValidPayload_of_known host (run host obj opts)
      (by unfold run; rw [hstate]; exact LookupState.noConfusion)
    have hok : (getPackedObject host (run host obj opts) out sz).ok = false ↔
        PackRefused host (run host obj opts) out sz := by
      unfold getPackedObject PackRefused
      have hsuccess : decide ((run host obj opts).payloadState = .success) = true :=
        decide_eq_true hstate
      simp only [hcheck, hsuccess]
      generalize host.packCompleteObjectVarSize _ _ _ _ = packed
      by_cases hpacked : packed.1 = host.edsSuccess
      · simp [hpacked]
      · simp [hpacked]
    have hno : ¬∀ c ∈ runCalls host obj opts, setsPayloadError host c.1 c.2 = false := by
      obtain ⟨c, hc, hset⟩ := herror
      intro hall
      rw [hall c hc] at hset
      cases hset
    rw [hok, or_iff_right hno]
    exact ⟨fun h => h herror, fun h _ => h⟩
  · have hall : ∀ c ∈ runCalls host obj opts, setsPayloadError host c.1 c.2 = false := by
      intro c hc
      by_contra hset
      exact herror ⟨c, hc, by simpa using hset⟩
    exact iff_of_true (fun h => absurd h herror) (Or.inl hall)

end Eds

/-! ## Both encoders -/

/-- A recorded payload error keeps an encoder from building a packet only where
something else does: for the PassThru encoder a packet that is too long, for the
EDS encoder a refusal of EdsLib. -/
theorem recordedError_blocks_iff (host : PassThru.Host) (ehost : Eds.Host) {obj : Eds.CommandData}
    (hobj : Eds.instantiate ehost = some obj) (opts : List ArgV) (out : Mem) (sz : Nat) :
    (PassThru.ErrorBlocks host opts out sz ↔
      (∀ c ∈ PassThru.runCalls host PassThru.instantiate opts,
        PassThru.setsPayloadError c.1 c.2 = false) ∨
      sz < (PassThru.run host PassThru.instantiate opts).packedSize) ∧
    (Eds.ErrorBlocks ehost obj opts out sz ↔
      (∀ c ∈ Eds.runCalls ehost obj opts, Eds.setsPayloadError ehost c.1 c.2 = false) ∨
      Eds.PackRefused ehost (Eds.run ehost obj opts) out sz) :=
  ⟨PassThru.errorBlocks_iff host opts out sz, Eds.errorBlocks_iff hobj opts out sz⟩

/-- Libraries that refuse to pack. -/
def Eds.Host.refusing : Eds.Host :=
  { Eds.Host.sample with packCompleteObjectVarSize := fun id out _ sz => (-1, id, out, sz) }

/-- Both encoders reject `Delay=1` and then build no packet: the one for a buffer of four
bytes, the other because EdsLib refuses. -/
theorem recordedError_blocks_iff_refused :
    (PassThru.getPackedObject PassThru.Host.little (PassThru.run PassThru.Host.little
        PassThru.instantiate [⟨.none, str "Delay=1"⟩]) (fun _ => 0) 4).ok = false ∧
      ∃ obj, Eds.instantiate Eds.Host.refusing = some obj ∧
        (Eds.getPackedObject Eds.Host.refusing (Eds.run Eds.Host.refusing obj
          [⟨.none, str "Delay=1"⟩]) (fun _ => 0) 4).ok = false := by
  have hiff := recordedError_blocks_iff PassThru.Host.little Eds.Host.refusing rfl
    [⟨.none, str "Delay=1"⟩] (fun _ => 0) 4
  refine ⟨hiff.1.mpr (Or.inr (by decide)) ⟨_, List.mem_cons_self, rfl⟩, _, rfl, ?_⟩
  exact hiff.2.mpr (Or.inr (by unfold Eds.PackRefused; decide)) ⟨_, List.mem_cons_self, rfl⟩

/-- Both encoders build a packet after they have rejected `Delay=1`: the PassThru
encoder knows no parameters, and the command of the sample database has none. -/
theorem recordedError_blocks_fails_on_positional :
    ¬PassThru.ErrorBlocks PassThru.Host.little [⟨.none, str "Delay=1"⟩] (fun _ => 0) 2048 ∧
      ∃ obj, Eds.instantiate Eds.Host.sample = some obj ∧
        ¬Eds.ErrorBlocks Eds.Host.sample obj [⟨.none, str "Delay=1"⟩] (fun _ => 0) 2048 := by
  refine ⟨?_, _, rfl, ?_⟩
  · rw [PassThru.errorBlocks_iff, not_or]
    refine ⟨fun hall => ?_, by decide⟩
    exact absurd (hall _ List.mem_cons_self) (by decide)
  · rw [Eds.errorBlocks_iff rfl, not_or]
    refine ⟨fun hall => ?_, ?_⟩
    · exact absurd (hall _ List.mem_cons_self) (by decide)
    · unfold Eds.PackRefused
      decide

end CmdSend
