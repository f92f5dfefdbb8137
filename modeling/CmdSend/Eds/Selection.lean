-- SUMMARY: The selection of a command among the derived types of its interface.
import CmdSend.Eds.Lookup
import CmdSend.Lib.Loop

/-!
# The selection of a command

The interface argument has a list of derived types, one for each command.
`EDS_ProcessCmdCode` looks for the one that `CmdName` names, by its base name, or by a
constraint value when the name is a number. It keeps one match record for the whole
search, which is lowered whenever a type is examined (`examine_iff`).
-/

namespace CmdSend.Eds

open CLib

/-! ## What a command name selects -/

/-- The whole text is a numeral for `strtoul` with base 0. -/
def IsNumeral (text : Text) : Prop := ∃ n, scanNumeral text = some n ∧ n.tail = []

/-- A number names the types with a constraint of this value, and another text the types
with this base name. -/
def Matches (host : Host) (cmd : CommandData) (id : EdsId) : Prop :=
  (IsNumeral cmd.cmdNameText ∧ ∃ value ∈ host.constraints cmd.intfArg id,
      value = .signedInt (strtoul cmd.cmdNameText).value ∨
        value = .unsignedInt (strtoul cmd.cmdNameText).value) ∨
    (¬IsNumeral cmd.cmdNameText ∧ host.getBaseName id = cmd.cmdNameText)

/-- What a search for the first type that meets a condition finds. -/
def FirstOf (types : List EdsId) (P : EdsId → Prop) : Option EdsId → Prop
  | none => ∀ id ∈ types, ¬P id
  | some id => ∃ i : Nat, types[i]? = some id ∧ P id ∧
      ∀ j < i, ∀ id', types[j]? = some id' → ¬P id'

/-! ## The loop -/

/-- The match record after a derived type has been examined. -/
def examine (host : Host) (intfArg : EdsId) (cmdName : Text) (conv : Conversion 64)
    (isMatch : Bool) (possibleId : EdsId) : Bool :=
  if conv.tail ≠ cmdName ∧ conv.tail = [] then
    (host.constraints intfArg possibleId).foldl (CommandData.matchConstraint conv.value) isMatch
  else host.getBaseName possibleId = cmdName

/-- A round of the loop of `EDS_ProcessCmdCode`, from an index and the match record. -/
def derivedRound (host : Host) (intfArg : EdsId) (cmdName : Text) (conv : Conversion 64)
    (s : BitVec 16 × Bool) : Option ((BitVec 16 × Bool) ⊕ Option EdsId) :=
  match host.getDerivedTypeById intfArg s.1 with
  | none => some (.inr none)
  | some possibleId =>
    let isMatch := examine host intfArg cmdName conv s.2 possibleId
    if isMatch then some (.inr (some possibleId)) else some (.inl (s.1 + 1, isMatch))

/-- The round at a state, for the command name of `cmd`. -/
def CommandData.derivedRound (host : Host) (cmd : CommandData) :=
  Eds.derivedRound host cmd.intfArg cmd.cmdNameText (strtoul cmd.cmdNameText)

theorem findDerived_eq_run (host : Host) (intfArg : EdsId) (cmdName : Text)
    (conv : Conversion 64) (fuel : Nat) (idx : BitVec 16) (isMatch : Bool) :
    CommandData.findDerived host intfArg cmdName conv fuel idx isMatch =
      (Loop.run (derivedRound host intfArg cmdName conv) fuel (idx, isMatch)).join := by
  induction fuel generalizing idx isMatch with
  | zero => rfl
  | succ fuel ih =>
    rw [CommandData.findDerived, Loop.run]
    unfold derivedRound
    cases host.getDerivedTypeById intfArg idx with
    | none => rfl
    | some possibleId =>
      simp only
      change (if examine host intfArg cmdName conv isMatch possibleId = true then _ else _) = _
      split
      · rfl
      · exact ih _ _

/-- The loop ends within 2^16 rounds, whatever the database: the 16-bit index meets the end
of the list. -/
theorem derivedRound_ends (host : Host) (intfArg : EdsId) (cmdName : Text)
    (conv : Conversion 64) (s : BitVec 16 × Bool) :
    ∃ found, Loop.run (derivedRound host intfArg cmdName conv) (2 ^ 16) s = some found := by
  obtain ⟨last, hlast⟩ := host.getDerivedTypeById_ends intfArg
  refine Loop.ends_of_measure (fun s => (last - s.1).toNat) ?_ (last - s.1).isLt
  rintro ⟨idx, isMatch⟩
  unfold derivedRound
  simp only
  cases hid : host.getDerivedTypeById intfArg idx with
  | none => exact Or.inr ⟨_, rfl⟩
  | some possibleId =>
    simp only
    split
    · exact Or.inr ⟨_, rfl⟩
    · have hne : last ≠ idx := by
        rintro rfl
        rw [hlast] at hid
        cases hid
      refine Or.inl ⟨_, rfl, ?_⟩
      simp only
      bv_omega

/-- More rounds than 2^16 make no difference. -/
theorem findDerived_add (host : Host) (intfArg : EdsId) (cmdName : Text) (conv : Conversion 64)
    (extra : Nat) (isMatch : Bool) :
    CommandData.findDerived host intfArg cmdName conv (2 ^ 16 + extra) 0 isMatch =
      CommandData.findDerived host intfArg cmdName conv (2 ^ 16) 0 isMatch := by
  obtain ⟨found, hrun⟩ := derivedRound_ends host intfArg cmdName conv (0, isMatch)
  rw [findDerived_eq_run, findDerived_eq_run, hrun, Loop.run_mono (Nat.le_add_right ..) hrun]

/-! ## One derived type -/

section

variable (host : Host) (cmd : CommandData)

theorem isNumeral_iff (text : Text) :
    (strtoul text).tail ≠ text ∧ (strtoul text).tail = [] ↔ IsNumeral text := by
  unfold IsNumeral
  cases h : scanNumeral text with
  | none => simp [strtoul, strtoull_of_none h]
  | some n =>
    have htail : (strtoul text).tail = n.tail := strtoull_tail h
    rw [htail]
    simpa using fun _ => scanNumeral_tail_ne h

/-- The callback raises the record at a constraint with the value, and never lowers it. -/
theorem foldl_matchConstraint (v : BitVec 64) (values : List ConstraintValue) (isMatch : Bool) :
    values.foldl (CommandData.matchConstraint v) isMatch = true ↔
      isMatch = true ∨ ∃ value ∈ values, value = .signedInt v ∨ value = .unsignedInt v := by
  induction values generalizing isMatch with
  | nil => simp
  | cons value values ih =>
    have hvalue : CommandData.matchConstraint v isMatch value = true ↔
        isMatch = true ∨ value = .signedInt v ∨ value = .unsignedInt v := by
      cases value <;> simp [CommandData.matchConstraint]
    rw [List.foldl_cons, ih, hvalue]
    simp only [List.mem_cons, exists_eq_or_imp, or_assoc]

/-- A type that is examined with the record down raises it exactly when it matches. -/
theorem examine_iff (id : EdsId) :
    examine host cmd.intfArg cmd.cmdNameText (strtoul cmd.cmdNameText) false id = true ↔
      Matches host cmd id := by
  unfold examine Matches
  by_cases hnum : IsNumeral cmd.cmdNameText
  · rw [if_pos ((isNumeral_iff _).mpr hnum), foldl_matchConstraint]
    simp [hnum]
  · rw [if_neg (mt (isNumeral_iff _).mp hnum), decide_eq_true_iff]
    simp [hnum]

/-! ## The search -/

/-- The search goes on with the record down. -/
theorem derivedRound_next {s s' : BitVec 16 × Bool}
    (h : cmd.derivedRound host s = some (.inl s')) : s'.2 = false := by
  unfold CommandData.derivedRound derivedRound at h
  split at h
  · cases h
  · simp only at h
    split at h
    · cases h
    · rename_i hmatch
      obtain rfl := Sum.inl.inj (Option.some.inj h)
      exact Bool.eq_false_of_not_eq_true hmatch

theorem isMatch_of_reaches {s : BitVec 16 × Bool}
    (h : Loop.Reaches (cmd.derivedRound host) (0, false) s) : s.2 = false :=
  h.invariant (I := fun s => s.2 = false) (fun _ _ _ => derivedRound_next host cmd) rfl

theorem derivedRound_of_end {idx : BitVec 16}
    (hend : host.getDerivedTypeById cmd.intfArg idx = none) :
    cmd.derivedRound host (idx, false) = some (.inr none) := by
  unfold CommandData.derivedRound derivedRound
  simp only [hend]

theorem derivedRound_of_matches {idx : BitVec 16} {id : EdsId}
    (hid : host.getDerivedTypeById cmd.intfArg idx = some id) (hmatch : Matches host cmd id) :
    cmd.derivedRound host (idx, false) = some (.inr (some id)) := by
  unfold CommandData.derivedRound derivedRound
  simp only [hid, (examine_iff host cmd id).mpr hmatch, if_true]

theorem derivedRound_of_not_matches {idx : BitVec 16} {id : EdsId}
    (hid : host.getDerivedTypeById cmd.intfArg idx = some id) (hmatch : ¬Matches host cmd id) :
    cmd.derivedRound host (idx, false) = some (.inl (idx + 1, false)) := by
  have hrecord := Bool.eq_false_of_not_eq_true (mt (examine_iff host cmd id).mp hmatch)
  unfold CommandData.derivedRound derivedRound
  simp only [hid, hrecord, Bool.false_eq_true, if_false]

variable {types : List EdsId}

/-- The record is down, and the types before the index do not match. -/
structure SearchedTo (types : List EdsId) (s : BitVec 16 × Bool) : Prop where
  isMatch : s.2 = false
  le : s.1.toNat ≤ types.length
  before : ∀ j < s.1.toNat, ∀ id, types[j]? = some id → ¬Matches host cmd id

/-- The search ends within a round for each type and one more, and finds the first type
that matches. -/
theorem search_ends
    (htypes : ∀ idx, host.getDerivedTypeById cmd.intfArg idx = types[idx.toNat]?)
    (hlen : types.length < 65536) :
    ∃ found, Loop.run (cmd.derivedRound host) (types.length + 1) (0, false) = some found ∧
      FirstOf types (Matches host cmd) found := by
  refine Loop.run_of_measure (I := SearchedTo host cmd types)
    (fun s => types.length - s.1.toNat) ?_ ?_ ?_
  · rintro ⟨idx, isMatch⟩ ⟨hdown, hle, hbefore⟩
    obtain rfl : isMatch = false := hdown
    cases hid : types[idx.toNat]? with
    | none =>
      refine Or.inr ⟨none, derivedRound_of_end host cmd ((htypes idx).trans hid), ?_⟩
      intro id hmem
      obtain ⟨j, hj⟩ := List.mem_iff_getElem?.mp hmem
      have hlt := (List.getElem?_eq_some_iff.mp hj).1
      exact hbefore j (Nat.lt_of_lt_of_le hlt (List.getElem?_eq_none_iff.mp hid)) id hj
    | some id =>
      by_cases hmatch : Matches host cmd id
      · exact Or.inr ⟨some id, derivedRound_of_matches host cmd ((htypes idx).trans hid) hmatch,
          idx.toNat, hid, hmatch, hbefore⟩
      · have hlt := (List.getElem?_eq_some_iff.mp hid).1
        have hnext : (idx + 1).toNat = idx.toNat + 1 := by
          rw [BitVec.toNat_add]
          exact Nat.mod_eq_of_lt (by simp; omega)
        refine Or.inl ⟨_, derivedRound_of_not_matches host cmd ((htypes idx).trans hid) hmatch,
          ⟨rfl, by simp only [hnext]; omega, fun j hj id' hid' => ?_⟩, by simp only [hnext]; omega⟩
        simp only [hnext] at hj
        cases Nat.lt_succ_iff_lt_or_eq.mp hj with
        | inl hj => exact hbefore j hj id' hid'
        | inr heq =>
          rw [heq, hid] at hid'
          exact Option.some.inj hid' ▸ hmatch
  · exact ⟨rfl, Nat.zero_le _, fun j hj => absurd hj (Nat.not_lt_zero j)⟩
  · simp

/-- The loop of `EDS_ProcessCmdCode` finds what its rounds find, in the list's length of
rounds and one more. -/
theorem findDerived_of_run {found : Option EdsId} (hlen : types.length < 65536)
    (h : Loop.run (cmd.derivedRound host) (types.length + 1) (0, false) = some found) :
    CommandData.findDerived host cmd.intfArg cmd.cmdNameText (strtoul cmd.cmdNameText) (2 ^ 16)
      0 false = found := by
  rw [findDerived_eq_run]
  have hall := Loop.run_mono (show types.length + 1 ≤ 2 ^ 16 by omega) h
  unfold CommandData.derivedRound at hall
  rw [hall]
  rfl

/-! ## The command -/

/-- The command name selects the first of the derived types that it matches. -/
structure SelectsCommand (types : List EdsId) : Prop where
  /-- The loop ends, and comes to what `EDS_ProcessCmdCode` goes on with. -/
  ends : ∃ found, Loop.run (cmd.derivedRound host) (types.length + 1) (0, false) = some found ∧
    CommandData.findDerived host cmd.intfArg cmd.cmdNameText (strtoul cmd.cmdNameText) (2 ^ 16)
      0 false = found
  /-- Whenever the loop examines a type, the record is up afterwards exactly when this
  type matches. -/
  noLeak : ∀ s id, Loop.Reaches (cmd.derivedRound host) (0, false) s →
    host.getDerivedTypeById cmd.intfArg s.1 = some id →
    (examine host cmd.intfArg cmd.cmdNameText (strtoul cmd.cmdNameText) s.2 id = true ↔
      Matches host cmd id)
  found_iff : host.getDerivedInfo cmd.intfArg = host.edsSuccess →
    ((cmd.processCmdCode host).1 = true ↔ ∃ id ∈ types, Matches host cmd id)
  selected : host.getDerivedInfo cmd.intfArg = host.edsSuccess →
    (cmd.processCmdCode host).1 = true →
    FirstOf types (Matches host cmd) (some (cmd.processCmdCode host).2.actualArg)
  underived_iff : host.getDerivedInfo cmd.intfArg ≠ host.edsSuccess →
    ((cmd.processCmdCode host).1 = true ↔ cmd.cmdNameText = [])
  rejected : (cmd.processCmdCode host).1 = false →
    (cmd.processCmdCode host).2.actualArg = cmd.intfArg

variable {host} {cmd}

theorem actualArg_findArgument (h : (cmd.findArgument host).1 = true) :
    (cmd.findArgument host).2.actualArg = (cmd.findArgument host).2.intfArg := by
  unfold CommandData.findArgument at h ⊢
  simp only at h ⊢
  split at h
  · cases h
  · rename_i hrc
    rw [if_neg hrc]

theorem actualArg_processNumericDest {midVal : BitVec 64}
    (h : (cmd.processNumericDest host midVal).1 = true) :
    (cmd.processNumericDest host midVal).2.actualArg =
      (cmd.processNumericDest host midVal).2.intfArg := by
  unfold CommandData.processNumericDest at h ⊢
  simp only at h ⊢
  split at h
  · cases h
  · rename_i htopic
    rw [if_neg htopic]
    exact actualArg_findArgument h

theorem actualArg_processNamedDest (h : (cmd.processNamedDest host).1 = true) :
    (cmd.processNamedDest host).2.actualArg = (cmd.processNamedDest host).2.intfArg := by
  unfold CommandData.processNamedDest at h ⊢
  simp only at h ⊢
  split at h
  · cases h
  · rename_i htopic
    rw [if_neg htopic]
    split at h
    · cases h
    · rename_i hinfo
      rw [if_neg hinfo]
      exact actualArg_findArgument h

/-- The search starts with the argument of the interface selected. -/
theorem actualArg_processDestIntf (h : (cmd.processDestIntf host).1 = true) :
    (cmd.processDestIntf host).2.actualArg = (cmd.processDestIntf host).2.intfArg := by
  unfold CommandData.processDestIntf at h ⊢
  simp only at h ⊢
  split at h
  · rename_i hnum
    rw [if_pos hnum]
    exact actualArg_processNumericDest h
  · rename_i hname
    rw [if_neg hname]
    exact actualArg_processNamedDest h

theorem processCmdCode_of_underived (h : host.getDerivedInfo cmd.intfArg ≠ host.edsSuccess) :
    ((cmd.processCmdCode host).1 = true ↔ cmd.cmdNameText = []) ∧
      (cmd.processCmdCode host).2.actualArg = cmd.actualArg := by
  have hempty : cmd.cmdNameText = [] ↔ cmd.cmdName 0 = 0 :=
    cmd.cmdName.cstr_eq_nil_iff (by decide)
  rw [hempty]
  unfold CommandData.processCmdCode
  rw [if_neg h]
  split
  · rename_i hne
    exact ⟨iff_of_false Bool.false_ne_true hne, rfl⟩
  · rename_i hzero
    exact ⟨iff_of_true rfl (not_not.mp hzero), rfl⟩

/-- The verdict and the selected type after the search. A type that is found is told from
none by its id, which is not the one of the interface. -/
theorem processCmdCode_of_derived (h : host.getDerivedInfo cmd.intfArg = host.edsSuccess)
    (hactual : cmd.actualArg = cmd.intfArg) {found : Option EdsId}
    (hfound : CommandData.findDerived host cmd.intfArg cmd.cmdNameText (strtoul cmd.cmdNameText)
      (2 ^ 16) 0 false = found)
    (hne : found ≠ some cmd.intfArg) :
    (cmd.processCmdCode host).1 = found.isSome ∧
      (cmd.processCmdCode host).2.actualArg = found.getD cmd.intfArg := by
  unfold CommandData.processCmdCode
  simp only [if_pos h, hfound, hactual]
  cases found with
  | none =>
    rw [Option.getD_none, if_pos rfl]
    split <;> exact ⟨rfl, rfl⟩
  | some id =>
    have hid : id ≠ cmd.intfArg := fun heq => hne (congrArg some heq)
    rw [Option.getD_some, if_neg hid]
    exact ⟨rfl, rfl⟩

/-- `EDS_ProcessCmdCode` ends. It selects the first derived type that the command name
matches, rejects a name that matches none, and wants no name where no type is derived. -/
theorem selectsCommand
    (htypes : ∀ idx, host.getDerivedTypeById cmd.intfArg idx = types[idx.toNat]?)
    (hlen : types.length < 65536) (hactual : cmd.actualArg = cmd.intfArg)
    (hintf : cmd.intfArg ∉ types) : SelectsCommand host cmd types := by
  obtain ⟨found, hrun, hfirst⟩ := search_ends host cmd htypes hlen
  have hfound := findDerived_of_run host cmd hlen hrun
  have hne : found ≠ some cmd.intfArg := by
    rintro rfl
    obtain ⟨i, hi, -, -⟩ := hfirst
    exact hintf (List.mem_of_getElem? hi)
  refine ⟨⟨found, hrun, hfound⟩, ?_, fun h => ?_, fun h hok => ?_, fun h => ?_, fun hrej => ?_⟩
  · intro s id hreach _
    rw [isMatch_of_reaches host cmd hreach]
    exact examine_iff host cmd id
  · rw [(processCmdCode_of_derived h hactual hfound hne).1]
    cases found with
    | none =>
      refine iff_of_false Bool.false_ne_true ?_
      rintro ⟨id, hid, hmatch⟩
      exact hfirst id hid hmatch
    | some id =>
      obtain ⟨i, hi, hmatch, -⟩ := hfirst
      exact iff_of_true rfl ⟨id, List.mem_of_getElem? hi, hmatch⟩
  · have hcode := processCmdCode_of_derived h hactual hfound hne
    rw [hcode.1] at hok
    obtain ⟨id, rfl⟩ := Option.isSome_iff_exists.mp hok
    rw [hcode.2]
    exact hfirst
  · exact (processCmdCode_of_underived h).1
  · by_cases h : host.getDerivedInfo cmd.intfArg = host.edsSuccess
    · have hcode := processCmdCode_of_derived h hactual hfound hne
      rw [hcode.1] at hrej
      rw [hcode.2, Option.not_isSome_iff_eq_none.mp (Bool.eq_false_iff.mp hrej)]
      rfl
    · rw [(processCmdCode_of_underived h).2, hactual]

end

/-- A destination with the second of two commands. -/
theorem selectsCommand_reset :
    let host : Host := { Host.sample with
      getDerivedInfo := fun _ => 0
      getDerivedTypeById := fun _ idx => ([5, 6] : List EdsId)[idx.toNat]?
      getDerivedTypeById_ends := fun _ => ⟨2, rfl⟩
      getBaseName := fun id => if id = 5 then str "NOOP" else str "RESET" }
    ∃ obj, instantiate host = some obj ∧
      let cmd := ((parseOption host obj ⟨.pktid, str "ES.RESET"⟩).cmd.processDestIntf host).2
      SelectsCommand host cmd [5, 6] ∧ (cmd.processCmdCode host).2.actualArg = 6 := by
  refine ⟨_, rfl, ?_, by decide⟩
  exact selectsCommand (fun _ => rfl) (by decide) (actualArg_processDestIntf (by decide))
    (by decide)

end CmdSend.Eds
