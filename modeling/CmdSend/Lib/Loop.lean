-- SUMMARY: Loops as a round function that goes on, ends or fails, and the rules for their end and their invariants.
import Mathlib.Logic.Relation

/-!
# Loops

A round of a loop goes on with a new state (`inl`), ends the loop with a result
(`inr`), or has itself no result (`none`), which is how a loop inside the round that
runs out of fuel shows. `Loop.run` makes a bounded number of rounds and tells a loop
that has ended from one that has run out of rounds.
-/

namespace CLib

variable {σ β : Type}

/-- At most `fuel` rounds of a loop, and its result when it has ended by then. -/
def Loop.run (round : σ → Option (σ ⊕ β)) : Nat → σ → Option β
  | 0, _ => none
  | fuel + 1, s =>
    match round s with
    | none => none
    | some (.inl s') => Loop.run round fuel s'
    | some (.inr b) => some b

/-- The round at `s` goes on with `s'`. -/
def Loop.Next (round : σ → Option (σ ⊕ β)) (s s' : σ) : Prop := round s = some (.inl s')

/-- The loop that starts at `s` comes to `s'`. -/
def Loop.Reaches (round : σ → Option (σ ⊕ β)) : σ → σ → Prop :=
  Relation.ReflTransGen (Loop.Next round)

namespace Loop

variable {round : σ → Option (σ ⊕ β)} {s s' : σ} {b : β}

theorem run_succ_of_next (h : round s = some (.inl s')) (fuel : Nat) :
    run round (fuel + 1) s = run round fuel s' := by
  simp only [run, h]

theorem run_succ_of_done (h : round s = some (.inr b)) (fuel : Nat) :
    run round (fuel + 1) s = some b := by
  simp only [run, h]

/-- A loop that has ended does not look at the rounds that are left. -/
theorem run_mono {fuel fuel' : Nat} (hle : fuel ≤ fuel') (h : run round fuel s = some b) :
    run round fuel' s = some b := by
  induction fuel generalizing s fuel' with
  | zero => cases h
  | succ fuel ih =>
    obtain ⟨extra, rfl⟩ := Nat.exists_eq_add_of_le' hle
    rw [← Nat.add_assoc]
    cases hround : round s with
    | none => simp [run, hround] at h
    | some r =>
      cases r with
      | inl s' =>
        rw [run_succ_of_next hround] at h ⊢
        exact ih (Nat.le_add_left ..) h
      | inr b' =>
        rw [run_succ_of_done hround] at h ⊢
        exact h

/-- A loop ends, with a result that meets `Q`, when each round from a state of the
invariant either goes on to another one with a lower measure or ends with such a
result. -/
theorem run_of_measure {I : σ → Prop} {Q : β → Prop} (measure : σ → Nat)
    (hround : ∀ s, I s →
      (∃ s', round s = some (.inl s') ∧ I s' ∧ measure s' < measure s) ∨
        ∃ b, round s = some (.inr b) ∧ Q b)
    {fuel : Nat} (h : I s) (hfuel : measure s < fuel) :
    ∃ b, run round fuel s = some b ∧ Q b := by
  induction fuel generalizing s with
  | zero => exact absurd hfuel (Nat.not_lt_zero _)
  | succ fuel ih =>
    cases hround s h with
    | inl hnext =>
      obtain ⟨s', hs', hinv, hlt⟩ := hnext
      rw [run_succ_of_next hs']
      exact ih hinv (by omega)
    | inr hdone =>
      obtain ⟨b, hb, hQ⟩ := hdone
      exact ⟨b, run_succ_of_done hb fuel, hQ⟩

/-- A loop whose rounds lower a measure ends. -/
theorem ends_of_measure (measure : σ → Nat)
    (hround : ∀ s, (∃ s', round s = some (.inl s') ∧ measure s' < measure s) ∨
      ∃ b, round s = some (.inr b))
    {fuel : Nat} (hfuel : measure s < fuel) : ∃ b, run round fuel s = some b := by
  have hends : ∃ b, run round fuel s = some b ∧ True := by
    refine run_of_measure (I := fun _ => True) measure (fun s _ => ?_) trivial hfuel
    cases hround s with
    | inl hnext =>
      obtain ⟨s', hs', hlt⟩ := hnext
      exact Or.inl ⟨s', hs', trivial, hlt⟩
    | inr hdone =>
      obtain ⟨b, hb⟩ := hdone
      exact Or.inr ⟨b, hb, trivial⟩
  obtain ⟨b, hb, -⟩ := hends
  exact ⟨b, hb⟩

/-- An invariant of the rounds holds in every state that the loop comes to. -/
theorem Reaches.invariant {I : σ → Prop} (hnext : ∀ s s', I s → round s = some (.inl s') → I s')
    (h : Reaches round s s') (hs : I s) : I s' := by
  induction h with
  | refl => exact hs
  | tail _ hstep ih => exact hnext _ _ ih hstep

end Loop

end CLib
