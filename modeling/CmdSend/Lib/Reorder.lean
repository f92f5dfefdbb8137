-- SUMMARY: Rearranging the inputs of a guarded run: inputs whose steps commute can change places.
import CmdSend.Lib.Run
import Mathlib.Data.List.Range
import Mathlib.Data.List.Perm.Basic

/-!
# Rearranged runs

A run does not depend on the order of two inputs whose steps commute, in the verdicts
and in the states. `Reorders dep as bs` says that `bs` has the entries of `as`, where
two entries that depend on each other stand in the same order. Such lists have the same
run (`foldlM_reorders`).
-/

namespace CLib

variable {σ α : Type}

/-- The second list has the entries of the first one, in an order that `entries` lists
with their places in the first list. An entry that stands before one that it has to
keep its order with has stood before it. -/
def Reorders (dep : α → α → Prop) (as bs : List α) : Prop :=
  ∃ entries : List (α × Nat), entries.Perm as.zipIdx ∧ entries.map Prod.fst = bs ∧
    entries.Pairwise fun x y => dep x.1 y.1 → x.2 < y.2

/-- The steps of two inputs commute, from every state. -/
def StepsCommute (step : σ → α → Option σ) (a b : α) : Prop :=
  ∀ s, (step s a).bind (step · b) = (step s b).bind (step · a)

section

variable {step : σ → α → Option σ}

theorem StepsCommute.symm {a b : α} (h : StepsCommute step a b) : StepsCommute step b a :=
  fun s => (h s).symm

/-- The step of `a` is an update `f` under a condition `P`. It commutes with a step that
does not touch the condition and that the update goes through. -/
theorem stepsCommute_of_update {a b : α} {P : σ → Prop} {f : σ → σ}
    (hsome : ∀ s, P s → step s a = some (f s)) (hnone : ∀ s, ¬P s → step s a = none)
    (hkeep : ∀ s s', step s b = some s' → (P s' ↔ P s))
    (hthrough : ∀ s, P s → step (f s) b = (step s b).map f) : StepsCommute step a b := by
  intro s
  by_cases hP : P s
  · rw [hsome s hP, Option.bind_some, hthrough s hP]
    cases hb : step s b with
    | none => rfl
    | some s' => exact (hsome s' ((hkeep s s' hb).mpr hP)).symm
  · rw [hnone s hP, Option.bind_none]
    cases hb : step s b with
    | none => rfl
    | some s' => exact (hnone s' (hP ∘ (hkeep s s' hb).mp)).symm

/-- An input whose step commutes with those before it can be taken to the front. -/
theorem foldlM_to_front {x : α} {front : List α} (h : ∀ y ∈ front, StepsCommute step y x)
    (rest : List α) (s : σ) :
    (front ++ x :: rest).foldlM step s = (x :: (front ++ rest)).foldlM step s := by
  induction front generalizing s with
  | nil => rfl
  | cons y front ih =>
    have hrest := fun s₁ => ih (fun z hz => h z (List.mem_cons_of_mem _ hz)) s₁
    have hswap := h y List.mem_cons_self s
    simp only [List.cons_append, List.foldlM_cons, Option.bind_eq_bind] at hrest ⊢
    simp only [hrest]
    rw [← Option.bind_assoc, hswap, Option.bind_assoc]

/-- The entries of a list in another order, where every two that have changed places
commute. -/
theorem foldlM_entries {dep : α → α → Prop} (hcomm : ∀ a b, ¬dep a b → StepsCommute step a b)
    {as bs : List (α × Nat)} (hsorted : as.Pairwise fun x y => x.2 < y.2) (hperm : bs.Perm as)
    (hdep : bs.Pairwise fun x y => dep x.1 y.1 → x.2 < y.2) (s : σ) :
    (as.map Prod.fst).foldlM step s = (bs.map Prod.fst).foldlM step s := by
  induction as generalizing bs s with
  | nil =>
    obtain rfl := List.Perm.eq_nil hperm
    rfl
  | cons x as ih =>
    obtain ⟨front, rest, rfl⟩ := List.append_of_mem (hperm.mem_iff.mpr List.mem_cons_self)
    have hrest : (front ++ rest).Perm as := (List.perm_middle.symm.trans hperm).cons_inv
    have hkeep := hdep.sublist (List.Sublist.append_left (List.sublist_cons_self x rest) front)
    -- the entries before `x` have stood behind it, so they do not depend on it
    have hfront : ∀ y ∈ front, StepsCommute step y.1 x.1 := by
      intro y hy
      apply hcomm
      intro hyx
      have hbefore := (List.pairwise_append.mp hdep).2.2 y hy x List.mem_cons_self hyx
      have hbehind := (List.pairwise_cons.mp hsorted).1 y (hrest.mem_iff.mp
        (List.mem_append_left _ hy))
      exact Nat.lt_asymm hbefore hbehind
    have hmove : (front.map Prod.fst ++ x.1 :: rest.map Prod.fst).foldlM step s =
        (x.1 :: (front.map Prod.fst ++ rest.map Prod.fst)).foldlM step s :=
      foldlM_to_front (by simpa using fun a i h => hfront (a, i) h) (rest.map Prod.fst) s
    rw [List.map_append, List.map_cons, List.map_cons, hmove, List.foldlM_cons, List.foldlM_cons]
    refine congrArg _ (funext fun s₁ => ?_)
    rw [ih hsorted.of_cons hrest hkeep s₁, List.map_append]

/-- A run is the same for rearranged inputs, if the inputs that have changed places
commute. -/
theorem foldlM_reorders {dep : α → α → Prop} (hcomm : ∀ a b, ¬dep a b → StepsCommute step a b)
    {as bs : List α} (h : Reorders dep as bs) (s : σ) : as.foldlM step s = bs.foldlM step s := by
  obtain ⟨entries, hperm, rfl, hdep⟩ := h
  have hsorted : as.zipIdx.Pairwise fun x y => x.2 < y.2 := by
    have hrange := List.pairwise_lt_range' (s := 0) (n := as.length)
    rw [← List.zipIdx_map_snd, List.pairwise_map] at hrange
    exact hrange
  have hrun := foldlM_entries hcomm hsorted hperm hdep s
  rwa [List.zipIdx_map_fst] at hrun

end

end CLib
