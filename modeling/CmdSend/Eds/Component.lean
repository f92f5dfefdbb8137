-- SUMMARY: The implicit component that EDS_ProcessDestIntf inserts into the name of an interface.
import CmdSend.Eds.Selection
import CmdSend.Lib.Store

/-!
# The implicit component

When the library does not know the name in `DestIntf`, the encoder inserts
`Application` before the last part of the name and asks again. It does so in the array
itself, with the three stores of `insertion`.
-/

namespace CmdSend.Eds

open CLib

/-! ## The stores -/

/-- The stores of the insertion, in the order of `EDS_ProcessDestIntf`: the end of the
name is moved, and the component and the separator before it are written. -/
def insertion (destIntf : Mem) : List Store :=
  let fullLen := (destIntf.cstr optargSize).length
  let size := DEFAULT_COMPONENT.length + 1
  match strrchr (destIntf.cstr optargSize) (ch '/') with
  | none => []
  | some separator =>
    if fullLen + size < optargSize then
      [.memmove (separator + size) separator (1 + fullLen - separator),
        .write (separator + 1) DEFAULT_COMPONENT,
        .write separator [ch '/']]
    else []

/-- The array after the part of `EDS_ProcessDestIntf` that inserts the component. -/
theorem getD_insertComponent (destIntf : Mem) :
    (CommandData.insertComponent destIntf).getD destIntf =
      Store.applyAll destIntf (insertion destIntf) := by
  unfold CommandData.insertComponent insertion
  simp only
  cases strrchr (destIntf.cstr optargSize) (ch '/') with
  | none => rfl
  | some separator =>
    simp only
    split
    · rw [Option.getD_some, Mem.update_eq_copy]
      rfl
    · rfl

/-! ## What the stores do -/

variable {destIntf : Mem}

/-- The stores stay inside the array. -/
theorem insertion_within (destIntf : Mem) : ∀ s ∈ insertion destIntf, s.Within optargSize := by
  have hsize : DEFAULT_COMPONENT.length = 11 := by decide
  intro s hs
  unfold insertion at hs
  simp only at hs
  cases hsep : strrchr (destIntf.cstr optargSize) (ch '/') with
  | none => simp [hsep] at hs
  | some separator =>
    have hlt : separator < (destIntf.cstr optargSize).length := strrchr_lt hsep
    rw [hsep] at hs
    simp only at hs
    split at hs
    · rename_i hroom
      rw [hsize] at hroom hs
      simp only [List.mem_cons, List.not_mem_nil, or_false] at hs
      rcases hs with rfl | rfl | rfl
      · refine ⟨?_, fun e he => ?_⟩
        · simp only [Extent.Within, Store.target]
          omega
        · obtain rfl := Option.some.inj he
          simp only [Extent.Within]
          omega
      · refine ⟨?_, fun e he => by cases he⟩
        simp only [Extent.Within, Store.target, hsize]
        omega
      · refine ⟨?_, fun e he => by cases he⟩
        simp only [Extent.Within, Store.target, List.length_singleton]
        omega
    · simp at hs

/-- The array is left alone without a separator, and without room. -/
theorem insertion_of_not
    (h : ¬(ch '/' ∈ destIntf.cstr optargSize ∧
      (destIntf.cstr optargSize).length + 12 < optargSize)) : insertion destIntf = [] := by
  unfold insertion
  simp only
  cases hsep : strrchr (destIntf.cstr optargSize) (ch '/') with
  | none => rfl
  | some separator =>
    have hmem : ch '/' ∈ destIntf.cstr optargSize := by
      by_contra hno
      rw [strrchr_eq_none_iff.mpr hno] at hsep
      cases hsep
    have hroom : ¬(destIntf.cstr optargSize).length + 12 < optargSize := fun hlt => h ⟨hmem, hlt⟩
    exact if_neg hroom

/-- The stores come to one copy, of the component and of what was there from the last
separator on, with its terminator. -/
theorem applyAll_insertion {before after : Text}
    (hsplit : destIntf.cstr optargSize = before ++ ch '/' :: after) (hlast : ch '/' ∉ after)
    (hroom : (destIntf.cstr optargSize).length + 12 < optargSize) :
    Store.applyAll destIntf (insertion destIntf) = destIntf.copy before.length
      (str "/Application" ++ (ch '/' :: after ++ [0])) := by
  have hlen := congrArg List.length hsplit
  rw [List.length_append, List.length_cons] at hlen
  have htail := (Mem.slice_of_cstr_append hsplit (by omega)).2
  rw [List.length_cons, show after.length + 1 + 1 =
    1 + (destIntf.cstr optargSize).length - before.length by omega] at htail
  have hstores : insertion destIntf =
      [.memmove (before.length + 12) before.length
          (1 + (destIntf.cstr optargSize).length - before.length),
        .write (before.length + 1) DEFAULT_COMPONENT, .write before.length [ch '/']] := by
    unfold insertion
    simp only
    rw [hsplit, strrchr_append before hlast, ← hsplit]
    exact if_pos hroom
  rw [hstores]
  change ((destIntf.copy (before.length + 12) (destIntf.slice _ _)).copy _ _).copy _ _ = _
  rw [htail]
  -- The later store comes first: the three pieces lie side by side.
  exact (congrArg (Mem.copy · _ _) (Mem.copy_copy_prepend destIntf (before.length + 1)
    DEFAULT_COMPONENT _)).trans (Mem.copy_copy_prepend destIntf before.length [ch '/'] _)

/-- A name with the component between its parts. -/
def withComponent (before after : Text) : Text :=
  before ++ str "/Application" ++ ch '/' :: after

theorem length_withComponent (before after : Text) :
    (withComponent before after).length = (before ++ ch '/' :: after).length + 12 := by
  have hcomp : (str "/Application").length = 12 := by decide
  simp only [withComponent, List.length_append, hcomp]
  omega

theorem zero_notMem_withComponent {before after : Text} (h : 0 ∉ before ++ ch '/' :: after) :
    0 ∉ withComponent before after := by
  have hcomp : 0 ∉ str "/Application" := by decide
  intro hmem
  rw [withComponent, List.append_assoc, List.mem_append, List.mem_append] at hmem
  rcases hmem with hmem | hmem | hmem
  · exact h (List.mem_append_left _ hmem)
  · exact hcomp hmem
  · exact h (List.mem_append_right _ hmem)

/-- The array holds the name with the component, and its terminator. -/
theorem cstr_applyAll_insertion {before after : Text}
    (hsplit : destIntf.cstr optargSize = before ++ ch '/' :: after) (hlast : ch '/' ∉ after)
    (hroom : (destIntf.cstr optargSize).length + 12 < optargSize) :
    (Store.applyAll destIntf (insertion destIntf)).slice 0
        ((destIntf.cstr optargSize).length + 13) = withComponent before after ++ [0] ∧
      (Store.applyAll destIntf (insertion destIntf)).cstr optargSize =
        withComponent before after ∧
      (withComponent before after).length = (destIntf.cstr optargSize).length + 12 := by
  have hlen : (withComponent before after).length = (destIntf.cstr optargSize).length + 12 := by
    rw [hsplit, length_withComponent]
  have hbytes : withComponent before after ++ [0] =
      before ++ (str "/Application" ++ (ch '/' :: after ++ [0])) := by
    simp only [withComponent, List.append_assoc]
  have hslice : (Store.applyAll destIntf (insertion destIntf)).slice 0
      ((withComponent before after).length + 1) = withComponent before after ++ [0] := by
    have hcopy := destIntf.slice_copy_append before.length
      (str "/Application" ++ (ch '/' :: after ++ [0]))
    rw [(Mem.slice_of_cstr_append hsplit (by omega)).1,
      ← applyAll_insertion hsplit hlast hroom, ← List.length_append, ← hbytes,
      List.length_append, List.length_singleton] at hcopy
    exact hcopy
  have hzero : 0 ∉ withComponent before after :=
    zero_notMem_withComponent (hsplit ▸ destIntf.zero_notMem_cstr optargSize)
  exact ⟨by rw [← hslice, hlen], Mem.cstr_of_slice hslice hzero (by omega), hlen⟩

/-! ## The name of the interface -/

section

variable (host : Host) (cmd : CommandData)

theorem destIntf_rejectIntf : cmd.rejectIntf.destIntf = cmd.destIntf := by
  unfold CommandData.rejectIntf
  split <;> rfl

theorem destIntf_findTopic (rc : Int) : (cmd.findTopic host rc).2.destIntf = cmd.destIntf := by
  unfold CommandData.findTopic
  split <;> rfl

theorem destIntf_findArgument : (cmd.findArgument host).2.destIntf = cmd.destIntf := by
  unfold CommandData.findArgument
  simp only
  split <;> rfl

/-- A name that the library does not know goes through the insertion. -/
theorem destIntf_findInterface
    (hfail : (host.findComponentInterfaceByFullName cmd.destIntfText cmd.intfEdsId).1 ≠
      host.edsSuccess) :
    (cmd.findInterface host).2.destIntf =
      Store.applyAll cmd.destIntf (insertion cmd.destIntf) := by
  rw [← getD_insertComponent]
  unfold CommandData.findInterface
  simp only [if_pos hfail]
  cases CommandData.insertComponent cmd.destIntf <;> rfl

/-- Nothing after the lookup of the interface touches its name. -/
theorem destIntf_processNamedDest :
    (cmd.processNamedDest host).2.destIntf = (cmd.findInterface host).2.destIntf := by
  unfold CommandData.processNamedDest
  simp only
  split
  · rw [destIntf_rejectIntf, destIntf_findTopic]
  · split
    · exact destIntf_findTopic host _ _
    · rw [destIntf_findArgument]
      exact destIntf_findTopic host _ _

/-- The component is inserted before the last separator, where there is one and there
is room, and the name is left alone otherwise. -/
structure InsertsComponent : Prop where
  stores : (cmd.processDestIntf host).2.destIntf =
    Store.applyAll cmd.destIntf (insertion cmd.destIntf)
  within : ∀ s ∈ insertion cmd.destIntf, s.Within optargSize
  beyond : ∀ i, optargSize ≤ i → (cmd.processDestIntf host).2.destIntf i = cmd.destIntf i
  inserted : ch '/' ∈ cmd.destIntfText → cmd.destIntfText.length + 12 < optargSize →
    ∃ before after, cmd.destIntfText = before ++ ch '/' :: after ∧ ch '/' ∉ after ∧
      (cmd.processDestIntf host).2.destIntf.slice 0 (cmd.destIntfText.length + 13) =
        withComponent before after ++ [0] ∧
      (cmd.processDestIntf host).2.destIntfText = withComponent before after ∧
      (cmd.processDestIntf host).2.destIntfText.length = cmd.destIntfText.length + 12
  unchanged : ¬(ch '/' ∈ cmd.destIntfText ∧ cmd.destIntfText.length + 12 < optargSize) →
    (cmd.processDestIntf host).2.destIntf = cmd.destIntf

variable {host} {cmd}

/-- What a name becomes when the library does not know it. -/
theorem insertsComponent (hname : ¬IsNumeral cmd.destIntfText)
    (hfail : (host.findComponentInterfaceByFullName cmd.destIntfText cmd.intfEdsId).1 ≠
      host.edsSuccess) : InsertsComponent host cmd := by
  have hstores : (cmd.processDestIntf host).2.destIntf =
      Store.applyAll cmd.destIntf (insertion cmd.destIntf) := by
    unfold CommandData.processDestIntf
    simp only [if_neg (mt (isNumeral_iff _).mp hname)]
    rw [destIntf_processNamedDest, destIntf_findInterface host cmd hfail]
  refine ⟨hstores, insertion_within _, fun i hi => ?_, fun hmem hroom => ?_, fun h => ?_⟩
  · rw [hstores]
    exact Store.applyAll_beyond (insertion_within _) hi
  · obtain ⟨before, after, hsplit, hlast⟩ := exists_split_last hmem
    obtain ⟨hslice, htext, hlen⟩ := cstr_applyAll_insertion hsplit hlast hroom
    rw [← hstores] at hslice htext
    exact ⟨before, after, hsplit, hlast, hslice, htext, (congrArg List.length htext).trans hlen⟩
  · rw [hstores, insertion_of_not h, Store.applyAll_nil]

end

/-- A name of two parts that the library does not know. -/
theorem insertsComponent_two_parts :
    let host : Host := { Host.sample with findComponentInterfaceByFullName := fun _ _ => (-1, 0) }
    ∃ obj, instantiate host = some obj ∧
      let cmd := (parseOption host obj ⟨.pktid, str "CFE_ES/CMD"⟩).cmd
      InsertsComponent host cmd ∧
        (cmd.processDestIntf host).2.destIntfText = str "CFE_ES/Application/CMD" := by
  refine ⟨_, rfl, insertsComponent ?_ (by decide), by decide⟩
  exact mt (isNumeral_iff _).mpr (by decide)

end CmdSend.Eds
