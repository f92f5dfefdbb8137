-- SUMMARY: Runs of a step function that can refuse a step: the steps taken, and the rules that carry an invariant or a flag along a run.
import Mathlib.Data.List.Induction

/-!
# Guarded runs

A guarded step `step : σ → α → Option σ` takes an input and refuses it with
`none`. `List.foldlM step s xs` is the run over a list of inputs that succeeds
when no step is refused, and `taken step s xs` lists the steps of the run that
stops at the first refusal.
-/

namespace CLib

variable {σ α : Type}

/-- The steps that a run takes: each input with the state it meets, up to the
first one that is refused, included. -/
def taken (step : σ → α → Option σ) : σ → List α → List (σ × α)
  | _, [] => []
  | s, a :: as =>
    (s, a) :: match step s a with
      | some s' => taken step s' as
      | none => []

variable {step : σ → α → Option σ}

@[simp] theorem taken_nil (s : σ) : taken step s [] = [] := rfl

theorem taken_cons_some {s s' : σ} {a : α} (h : step s a = some s') (as : List α) :
    taken step s (a :: as) = (s, a) :: taken step s' as := by
  simp [taken, h]

theorem taken_cons_none {s : σ} {a : α} (h : step s a = none) (as : List α) :
    taken step s (a :: as) = [(s, a)] := by
  simp [taken, h]

theorem mem_taken_cons_iff {s : σ} {a : α} {as : List α} {c : σ × α} :
    c ∈ taken step s (a :: as) ↔ c = (s, a) ∨ ∃ s', step s a = some s' ∧ c ∈ taken step s' as := by
  cases h : step s a with
  | none => simp [taken_cons_none h]
  | some s' => simp [taken_cons_some h]

theorem mem_of_mem_taken {as : List α} {s : σ} {c : σ × α} (h : c ∈ taken step s as) :
    c.2 ∈ as := by
  induction as generalizing s with
  | nil => simp at h
  | cons a as ih =>
    cases hstep : step s a with
    | none =>
      rw [taken_cons_none hstep, List.mem_singleton] at h
      rw [h]
      exact List.mem_cons_self
    | some s' =>
      rw [taken_cons_some hstep, List.mem_cons] at h
      cases h with
      | inl h => rw [h]; exact List.mem_cons_self
      | inr h => exact List.mem_cons_of_mem _ (ih h)

/-- An invariant of the accepted steps holds in every state that a run meets. -/
theorem taken_invariant {I : σ → Prop} (hstep : ∀ s a s', I s → step s a = some s' → I s') :
    ∀ (as : List α) (s : σ), I s → ∀ c ∈ taken step s as, I c.1 := by
  intro as
  induction as with
  | nil => simp
  | cons a as ih =>
    intro s hs c hc
    cases h : step s a with
    | none =>
      rw [taken_cons_none h, List.mem_singleton] at hc
      rw [hc]
      exact hs
    | some s' =>
      rw [taken_cons_some h, List.mem_cons] at hc
      cases hc with
      | inl hc => rw [hc]; exact hs
      | inr hc => exact ih s' (hstep s a s' hs h) c hc

/-- A run succeeds exactly when every step it takes is accepted. -/
theorem foldlM_isSome_iff (as : List α) (s : σ) :
    (as.foldlM step s).isSome ↔ ∀ c ∈ taken step s as, (step c.1 c.2).isSome := by
  induction as generalizing s with
  | nil => simp [List.foldlM]
  | cons a as ih =>
    rw [List.foldlM_cons]
    cases h : step s a with
    | none => simp [taken_cons_none h, h]
    | some s' => simp [taken_cons_some h, h, ih]

/-- The invariant rule for a run that succeeds, with the inputs so far as part of
the invariant. -/
theorem foldlM_invariant {I : List α → σ → Prop} {s₀ : σ} (h₀ : I [] s₀)
    (hstep : ∀ as s a s', I as s → step s a = some s' → I (as ++ [a]) s')
    {as : List α} {s : σ} (h : as.foldlM step s₀ = some s) : I as s := by
  induction as using List.reverseRecOn generalizing s with
  | nil =>
    simp only [List.foldlM_nil, Option.pure_def, Option.some.injEq] at h
    exact h ▸ h₀
  | append_singleton as a ih =>
    rw [List.foldlM_append] at h
    simp only [Option.bind_eq_bind, Option.bind_eq_some_iff] at h
    obtain ⟨s₁, h₁, h₂⟩ := h
    simp only [List.foldlM_cons, List.foldlM_nil, Option.bind_eq_bind, Option.pure_def,
      Option.bind_fun_some] at h₂
    exact hstep as s₁ a s (ih h₁) h₂

theorem taken_append {as : List α} {s s' : σ} (h : as.foldlM step s = some s') (bs : List α) :
    taken step s (as ++ bs) = taken step s as ++ taken step s' bs := by
  induction as generalizing s with
  | nil =>
    obtain rfl := Option.some.inj h
    rfl
  | cons a as ih =>
    rw [List.foldlM_cons] at h
    obtain ⟨s₁, h₁, h₂⟩ := Option.bind_eq_some_iff.mp h
    rw [List.cons_append, taken_cons_some h₁, taken_cons_some h₁, ih h₂, List.cons_append]

/-- A run that succeeds takes a step for every input. -/
theorem map_snd_taken {as : List α} {s s' : σ} (h : as.foldlM step s = some s') :
    (taken step s as).map Prod.snd = as := by
  induction as generalizing s with
  | nil => rfl
  | cons a as ih =>
    obtain ⟨s₁, h₁, h₂⟩ := Option.bind_eq_some_iff.mp ((List.foldlM_cons ..).symm.trans h)
    rw [taken_cons_some h₁, List.map_cons, ih h₂]

/-- A run splits where its list of inputs does. -/
theorem foldlM_append_some {as bs : List α} {s s' : σ} :
    (as ++ bs).foldlM step s = some s' ↔
      ∃ s₁, as.foldlM step s = some s₁ ∧ bs.foldlM step s₁ = some s' := by
  rw [List.foldlM_append]
  exact Option.bind_eq_some_iff

theorem foldlM_cons_some {a : α} {as : List α} {s s' : σ} :
    (a :: as).foldlM step s = some s' ↔
      ∃ s₁, step s a = some s₁ ∧ as.foldlM step s₁ = some s' := by
  rw [List.foldlM_cons]
  exact Option.bind_eq_some_iff

/-- Two runs over the same inputs stay related, and one is refused where the other is. -/
theorem foldlM_rel {τ : Type} {step' : τ → α → Option τ} {R : σ → τ → Prop} {as : List α}
    (hstep : ∀ a ∈ as, ∀ s t, R s t → Option.Rel R (step s a) (step' t a)) {s : σ} {t : τ}
    (h : R s t) : Option.Rel R (as.foldlM step s) (as.foldlM step' t) := by
  induction as generalizing s t with
  | nil => exact .some h
  | cons a as ih =>
    obtain ⟨hfirst, hrest⟩ := List.forall_mem_cons.mp hstep
    have hnext := hfirst s t h
    rw [List.foldlM_cons, List.foldlM_cons]
    generalize step s a = os at hnext
    generalize step' t a = ot at hnext
    cases hnext with
    | none => exact .none
    | some h => exact ih hrest h

/-- A run with an input that is refused in every state is refused. -/
theorem foldlM_eq_none_of_mem {as : List α} {a : α} (hmem : a ∈ as) (ha : ∀ s, step s a = none)
    (s : σ) : as.foldlM step s = none := by
  cases h : as.foldlM step s with
  | none => rfl
  | some s' =>
    obtain ⟨before, after, rfl⟩ := List.append_of_mem hmem
    obtain ⟨s₁, -, hrest⟩ := foldlM_append_some.mp h
    obtain ⟨s₂, hstep, -⟩ := foldlM_cons_some.mp hrest
    rw [ha s₁] at hstep
    cases hstep

/-! ## Where a run ends -/

/-- Where a run ends: in the state after its last input, or at the first input that is
refused, with the state that it meets. -/
def ends (step : σ → α → Option σ) : σ → List α → Except (σ × α) σ
  | s, [] => .ok s
  | s, a :: as =>
    match step s a with
    | some s' => ends step s' as
    | none => .error (s, a)

theorem ends_cons_some {s s' : σ} {a : α} (h : step s a = some s') (as : List α) :
    ends step s (a :: as) = ends step s' as := by
  simp [ends, h]

theorem ends_cons_none {s : σ} {a : α} (h : step s a = none) (as : List α) :
    ends step s (a :: as) = .error (s, a) := by
  simp [ends, h]

/-- A run ends in a state exactly when it succeeds. -/
theorem ends_eq_ok_iff {as : List α} {s s' : σ} :
    ends step s as = .ok s' ↔ as.foldlM step s = some s' := by
  induction as generalizing s with
  | nil => simp [ends]
  | cons a as ih =>
    rw [List.foldlM_cons]
    cases h : step s a with
    | none => simp [ends_cons_none h]
    | some s₁ =>
      rw [ends_cons_some h, ih]
      rfl

/-- The input at which a run ends is the last step that it takes, and it is refused. -/
theorem ends_eq_error {as : List α} {s : σ} {c : σ × α} (h : ends step s as = .error c) :
    c ∈ taken step s as ∧ step c.1 c.2 = none := by
  induction as generalizing s with
  | nil => cases h
  | cons a as ih =>
    cases hstep : step s a with
    | none =>
      rw [ends_cons_none hstep] at h
      obtain rfl := Except.error.inj h
      exact ⟨by simp [taken_cons_none hstep], hstep⟩
    | some s₁ =>
      rw [ends_cons_some hstep] at h
      obtain ⟨hmem, hrefused⟩ := ih h
      rw [taken_cons_some hstep]
      exact ⟨List.mem_cons_of_mem _ hmem, hrefused⟩

/-! ## Inputs that have their place in a run -/

/-- An input that is taken from a rank up to `k` and leads past `k` is taken once. -/
theorem count_le_one_of_rank [DecidableEq α] {rank : σ → Nat} {a : α} {k : Nat}
    (hmono : ∀ s b s', step s b = some s' → rank s ≤ rank s')
    (hpast : ∀ s s', step s a = some s' → rank s ≤ k ∧ k < rank s') {as : List α} {s s' : σ}
    (h : as.foldlM step s = some s') : as.count a ≤ 1 := by
  have hnone : ∀ (as : List α) (s : σ), k < rank s → as.foldlM step s = some s' →
      as.count a = 0 := by
    intro as
    induction as with
    | nil => exact fun _ _ _ => rfl
    | cons b as ih =>
      intro s hlt h
      obtain ⟨s₁, h₁, h₂⟩ := foldlM_cons_some.mp h
      have hne : b ≠ a := by
        rintro rfl
        exact absurd (hpast s s₁ h₁).1 (Nat.not_le.mpr hlt)
      rw [List.count_cons_of_ne hne]
      exact ih s₁ (Nat.lt_of_lt_of_le hlt (hmono s b s₁ h₁)) h₂
  induction as generalizing s with
  | nil => exact Nat.zero_le 1
  | cons b as ih =>
    obtain ⟨s₁, h₁, h₂⟩ := foldlM_cons_some.mp h
    by_cases hb : b = a
    · subst hb
      have hrest := hnone as s₁ (hpast s s₁ h₁).2 h₂
      have hcount : (b :: as).count b = as.count b + 1 := List.count_cons_self
      omega
    · rw [List.count_cons_of_ne hb]
      exact ih h₂

/-- An input that needs what only the input `a` brings about comes after `a`. -/
theorem mem_of_needs {Q : σ → Prop} {a b : α} (hneeds : ∀ s s', step s b = some s' → Q s)
    (hbrings : ∀ s c s', step s c = some s' → Q s' → Q s ∨ c = a) {l r : List α} {s s' : σ}
    (hs : ¬Q s) (h : (l ++ b :: r).foldlM step s = some s') : a ∈ l := by
  induction l generalizing s with
  | nil =>
    obtain ⟨s₁, h₁, -⟩ := foldlM_cons_some.mp h
    exact absurd (hneeds s s₁ h₁) hs
  | cons c l ih =>
    obtain ⟨s₁, h₁, h₂⟩ := foldlM_cons_some.mp h
    by_cases hs₁ : Q s₁
    · cases hbrings s c s₁ h₁ hs₁ with
      | inl hQ => exact absurd hQ hs
      | inr hc => exact List.mem_cons.mpr (Or.inl hc.symm)
    · exact List.mem_cons_of_mem c (ih hs₁ h₂)

/-! ## Runs without a refusal -/

section

variable {f : σ → α → σ}

/-- The steps of a run that never stops: each input with the state it meets. -/
def visited (f : σ → α → σ) : σ → List α → List (σ × α)
  | _, [] => []
  | s, a :: as => (s, a) :: visited f (f s a) as

/-- An invariant of the steps holds at the end of a run. -/
theorem foldl_invariant {I : σ → Prop} (hstep : ∀ s a, I s → I (f s a)) (as : List α) {s : σ}
    (h : I s) : I (as.foldl f s) := by
  induction as generalizing s with
  | nil => exact h
  | cons a as ih => exact ih (hstep s a h)

/-- Of the values that the inputs give, the last one stays. -/
theorem foldl_last {β : Type} {I : σ → Prop} {g : σ → β} {given : α → Option β}
    (hstep : ∀ s a, I s → I (f s a) ∧ g (f s a) = (given a).getD (g s)) (as : List α) {s : σ}
    (h : I s) : g (as.foldl f s) = (as.reverse.findSome? given).getD (g s) := by
  induction as generalizing s with
  | nil => rfl
  | cons a as ih =>
    obtain ⟨hnext, hvalue⟩ := hstep s a h
    rw [List.foldl_cons, ih hnext, hvalue, List.reverse_cons, List.findSome?_append]
    cases as.reverse.findSome? given with
    | none => cases hgiven : given a <;> simp [hgiven]
    | some b => rfl

/-- A flag that steps raise and never lower is up at the end exactly when it was up
before or some step raised it. -/
theorem foldl_flag {flag : σ → Bool} {raises : σ → α → Bool}
    (hstep : ∀ s a, flag (f s a) = (raises s a || flag s)) (as : List α) (s : σ) :
    flag (as.foldl f s) = true ↔
      flag s = true ∨ ∃ c ∈ visited f s as, raises c.1 c.2 = true := by
  induction as generalizing s with
  | nil => simp [visited]
  | cons a as ih =>
    rw [List.foldl_cons, ih, hstep, visited]
    simp only [Bool.or_eq_true, List.mem_cons, exists_eq_or_imp]
    constructor
    · rintro ((hraise | hflag) | hrest)
      · exact Or.inr (Or.inl hraise)
      · exact Or.inl hflag
      · exact Or.inr (Or.inr hrest)
    · rintro (hflag | hraise | hrest)
      · exact Or.inl (Or.inr hflag)
      · exact Or.inl (Or.inl hraise)
      · exact Or.inr hrest

end

end CLib
