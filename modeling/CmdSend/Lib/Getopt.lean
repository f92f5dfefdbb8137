-- SUMMARY: getopt_long: the options that it reports, the order that it gives the words of the command line, and what a second scan of them reports.
import CmdSend.Lib.Text

/-!
# The option scanner of the C library

`getopt_long` for tables whose options take an argument or none, with the default order:
the words that are no options are moved behind the others, which a program sees when the
scan is over. A call reads an option off the current word (`Parsed`), and takes the next
word as its argument where it needs one.

A program that scans its words again starts from what the first scan has left, so that
the two scans need not agree: an option at the end that lacks its argument gets one when
words are moved behind it (`Getopt.lacksArg`).
-/

namespace CLib

/-! ## Tables -/

/-- `struct option`, with a null `flag`. -/
structure LongOption where
  name : Text
  hasArg : Bool
  val : Byte
deriving DecidableEq, Repr

/-- What a program tells `getopt_long` of its options. -/
structure OptionTable where
  optstring : Text
  longOptions : List LongOption

/-- What a call returns when it does not return -1: the option character and `optarg`. -/
structure OptionReport where
  opt : Byte
  optarg : Option Text
deriving DecidableEq, Repr

/-- How the current word goes on: with a report, and the rest of the word where it holds
more short options, or with an option that needs an argument from the next word. -/
inductive Parsed
  | report (r : OptionReport) (nextchar : Text)
  | needs (opt : Byte)
deriving DecidableEq, Repr

/-- What a word is to the scanner. -/
inductive Word
  | positional
  | dashes
  | option (p : Parsed)
deriving DecidableEq, Repr

namespace OptionTable

variable (t : OptionTable)

/-- Whether a short option takes an argument, if there is one with this character. -/
def shortHasArg (c : Byte) : Option Bool :=
  if c = ch ':' ∨ c = ch ';' then none
  else
    match t.optstring.dropWhile (· ≠ c) with
    | [] => none
    | _ :: following => some (following.head? = some (ch ':'))

/-- The long option with a name, or the one that a beginning of a name stands for.
Several options can share a beginning only when they are the same to the program. -/
def findLong (name : Text) : Option LongOption :=
  match t.longOptions.find? fun o => o.name = name with
  | some o => some o
  | none =>
    match t.longOptions.filter fun o => name.isPrefixOf o.name with
    | [] => none
    | o :: others =>
      if others.all fun p => p.hasArg = o.hasArg ∧ p.val = o.val then some o else none

/-- The short option `c`, with the characters after it. -/
def short (c : Byte) (cs : Text) : Parsed :=
  match t.shortHasArg c with
  | none => .report ⟨ch '?', none⟩ cs
  | some false => .report ⟨c, none⟩ cs
  | some true => if cs = [] then .needs c else .report ⟨c, some cs⟩ []

/-- The long option in a word, without its two dashes. -/
def long (body : Text) : Parsed :=
  match t.findLong (body.takeWhile (· ≠ ch '=')) with
  | none => .report ⟨ch '?', none⟩ []
  | some o =>
    match body.dropWhile (· ≠ ch '=') with
    | [] => if o.hasArg then .needs o.val else .report ⟨o.val, none⟩ []
    | _ :: value => if o.hasArg then .report ⟨o.val, some value⟩ [] else .report ⟨ch '?', none⟩ []

/-- A word is an option when it starts with a dash and has more than the dash. -/
def word (w : Text) : Word :=
  match w with
  | d :: c :: cs =>
    if d ≠ ch '-' then .positional
    else if c ≠ ch '-' then .option (t.short c cs)
    else if cs = [] then .dashes
    else .option (t.long cs)
  | _ => .positional

end OptionTable

/-! ## The scanner -/

/-- The scanner: the words that it has taken as options and their arguments, those that it
has passed over, the rest of the current word, and the words after it. `lacksArg` says that
an option has found no word for its argument, which is the message on the console. -/
structure Getopt where
  done : List Text
  skipped : List Text
  nextchar : Text
  rest : List Text
  lacksArg : Bool
deriving DecidableEq, Repr

namespace Getopt

/-- The scanner before the first call, with `optind` at the first word. -/
def start (words : List Text) : Getopt := ⟨[], [], [], words, false⟩

/-- The words, with those passed over behind the ones that have been taken. -/
def words (s : Getopt) : List Text := s.done ++ s.skipped ++ s.rest

/-- Take the next word as the argument of an option. -/
def takeArg (s : Getopt) (opt : Byte) : OptionReport × Getopt :=
  match s.rest with
  | [] => (⟨ch '?', none⟩, { s with lacksArg := true })
  | arg :: rest => (⟨opt, some arg⟩, { s with done := s.done ++ [arg], rest := rest })

/-- Return what the current word says. -/
def finish (s : Getopt) : Parsed → OptionReport × Getopt
  | .report r nextchar => (r, { s with nextchar := nextchar })
  | .needs opt => takeArg { s with nextchar := [] } opt

/-- Go on to the next word that is an option. -/
def advance (t : OptionTable) (s : Getopt) : List Text → Option OptionReport × Getopt
  | [] => (none, { s with rest := [] })
  | w :: rest =>
    match t.word w with
    | .positional => advance t { s with skipped := s.skipped ++ [w] } rest
    | .dashes => (none, { s with done := s.done ++ [w], skipped := s.skipped ++ rest, rest := [] })
    | .option p =>
      let r := finish { s with done := s.done ++ [w], rest := rest } p
      (some r.1, r.2)

/-- `getopt_long`. It returns -1, which is `none`, at the end of the words and at `--`. -/
def next (t : OptionTable) (s : Getopt) : Option OptionReport × Getopt :=
  match s.nextchar with
  | [] => advance t s s.rest
  | c :: cs =>
    let r := s.finish (t.short c cs)
    (some r.1, r.2)

/-- At most `n` calls, up to the one that returns -1: what they report, and the scanner
after them. -/
def calls (t : OptionTable) : Nat → Getopt → List OptionReport × Getopt
  | 0, s => ([], s)
  | n + 1, s =>
    match s.next t with
    | (none, s') => ([], s')
    | (some r, s') =>
      let others := calls t n s'
      (r :: others.1, others.2)

/-- What is left to read. -/
def size (s : Getopt) : Nat := s.nextchar.length + (s.rest.map fun w => w.length + 1).sum

/-- The calls of a loop that ends at -1. Each call shortens what is left to read. -/
def scan (t : OptionTable) (words : List Text) : List OptionReport × Getopt :=
  (start words).calls t ((start words).size + 1)

end Getopt

/-! ## A call -/

section

variable {t : OptionTable}

/-- The option character of an option that takes an argument. -/
def OptionTable.TakesArg (t : OptionTable) (opt : Byte) : Prop :=
  t.shortHasArg opt = some true ∨ ∃ o ∈ t.longOptions, o.hasArg = true ∧ o.val = opt

theorem OptionTable.mem_of_shortHasArg {c : Byte} {b : Bool} (h : t.shortHasArg c = some b) :
    c ∈ t.optstring := by
  unfold shortHasArg at h
  split at h
  · cases h
  · split at h
    · cases h
    · rename_i d following hdrop
      have hhead := List.head?_dropWhile_not (fun x : Byte => decide (x ≠ c)) t.optstring
      rw [hdrop] at hhead
      obtain rfl : d = c := not_not.mp (of_decide_eq_false hhead)
      have hsuffix := List.dropWhile_suffix (fun x : Byte => decide (x ≠ d)) (l := t.optstring)
      rw [hdrop] at hsuffix
      exact hsuffix.subset List.mem_cons_self

theorem OptionTable.findLong_mem {name : Text} {o : LongOption} (h : t.findLong name = some o) :
    o ∈ t.longOptions := by
  unfold findLong at h
  split at h
  · rename_i o' hfind
    obtain rfl := Option.some.inj h
    exact List.mem_of_find?_eq_some hfind
  · split at h
    · cases h
    · rename_i o' others hfilter
      split at h
      · obtain rfl := Option.some.inj h
        have hmem : o' ∈ t.longOptions.filter fun o => name.isPrefixOf o.name := by
          rw [hfilter]
          exact List.mem_cons_self
        exact List.mem_of_mem_filter hmem
      · cases h

theorem OptionTable.takesArg_of_short {c opt : Byte} {cs : Text} (h : t.short c cs = .needs opt) :
    t.TakesArg opt := by
  unfold short at h
  split at h
  · cases h
  · cases h
  · rename_i harg
    split at h
    · obtain rfl := Parsed.needs.inj h
      exact Or.inl harg
    · cases h

theorem OptionTable.takesArg_of_long {opt : Byte} {body : Text} (h : t.long body = .needs opt) :
    t.TakesArg opt := by
  unfold long at h
  split at h
  · cases h
  · rename_i o hfind
    split at h
    · split at h
      · rename_i harg
        exact Or.inr ⟨o, findLong_mem hfind, harg, Parsed.needs.inj h⟩
      · cases h
    · split at h <;> cases h

theorem OptionTable.takesArg_of_word {opt : Byte} {w : Text}
    (h : t.word w = .option (.needs opt)) : t.TakesArg opt := by
  unfold word at h
  split at h
  · split at h
    · cases h
    · split at h
      · exact takesArg_of_short (Word.option.inj h)
      · split at h
        · cases h
        · exact takesArg_of_long (Word.option.inj h)
  · cases h

/-- The option character of an option that takes none. -/
def OptionTable.TakesNone (t : OptionTable) (opt : Byte) : Prop :=
  t.shortHasArg opt = some false ∨ ∃ o ∈ t.longOptions, o.hasArg = false ∧ o.val = opt

/-- What a report says fits the table: a complaint, or an option with an argument exactly
when it takes one. -/
def OptionTable.Fits (t : OptionTable) (r : OptionReport) : Prop :=
  r = ⟨ch '?', none⟩ ∨ (t.TakesArg r.opt ∧ r.optarg ≠ none) ∨
    (t.TakesNone r.opt ∧ r.optarg = none)

theorem OptionTable.fits_of_short {c : Byte} {cs nextchar : Text} {r : OptionReport}
    (h : t.short c cs = .report r nextchar) : t.Fits r := by
  unfold short at h
  split at h
  · exact Or.inl (Parsed.report.inj h).1.symm
  · rename_i harg
    rw [← (Parsed.report.inj h).1]
    exact Or.inr (Or.inr ⟨Or.inl harg, rfl⟩)
  · rename_i harg
    split at h
    · cases h
    · rw [← (Parsed.report.inj h).1]
      exact Or.inr (Or.inl ⟨Or.inl harg, Option.some_ne_none cs⟩)

theorem OptionTable.fits_of_long {body nextchar : Text} {r : OptionReport}
    (h : t.long body = .report r nextchar) : t.Fits r := by
  unfold long at h
  split at h
  · exact Or.inl (Parsed.report.inj h).1.symm
  · rename_i o hfind
    have hmem := findLong_mem hfind
    split at h
    · split at h
      · cases h
      · rename_i harg
        rw [← (Parsed.report.inj h).1]
        exact Or.inr (Or.inr ⟨Or.inr ⟨o, hmem, Bool.eq_false_iff.mpr harg, rfl⟩, rfl⟩)
    · split at h
      · rename_i value _ harg
        rw [← (Parsed.report.inj h).1]
        exact Or.inr (Or.inl ⟨Or.inr ⟨o, hmem, harg, rfl⟩, Option.some_ne_none value⟩)
      · exact Or.inl (Parsed.report.inj h).1.symm

theorem OptionTable.fits_of_word {w nextchar : Text} {r : OptionReport}
    (h : t.word w = .option (.report r nextchar)) : t.Fits r := by
  unfold word at h
  split at h
  · split at h
    · cases h
    · split at h
      · exact fits_of_short (Word.option.inj h)
      · split at h
        · cases h
        · exact fits_of_long (Word.option.inj h)
  · cases h

namespace Getopt

theorem fits_takeArg {opt : Byte} (h : t.TakesArg opt) (s : Getopt) :
    t.Fits (s.takeArg opt).1 := by
  unfold takeArg
  split
  · exact Or.inl rfl
  · exact Or.inr (Or.inl ⟨h, Option.some_ne_none _⟩)

theorem advance_append {s : Getopt} {passed : List Text}
    (h : ∀ w ∈ passed, t.word w = .positional) (ws : List Text) :
    advance t s (passed ++ ws) = advance t { s with skipped := s.skipped ++ passed } ws := by
  induction passed generalizing s with
  | nil => rw [List.nil_append, List.append_nil]
  | cons w passed ih =>
    rw [List.cons_append, advance, h w List.mem_cons_self]
    refine (ih fun x hx => h x (List.mem_cons_of_mem w hx)).trans ?_
    rw [List.append_assoc, List.singleton_append]

/-- Words are all positional, or there is a first one that is not. -/
theorem exists_first_option (t : OptionTable) (ws : List Text) :
    (∀ w ∈ ws, t.word w = .positional) ∨ ∃ passed w rest, ws = passed ++ w :: rest ∧
      (∀ x ∈ passed, t.word x = .positional) ∧ t.word w ≠ .positional := by
  induction ws with
  | nil => exact Or.inl fun _ h => absurd h List.not_mem_nil
  | cons w ws ih =>
    by_cases hw : t.word w = .positional
    · cases ih with
      | inl hall => exact Or.inl (List.forall_mem_cons.mpr ⟨hw, hall⟩)
      | inr hfirst =>
        obtain ⟨passed, x, rest, rfl, hpassed, hx⟩ := hfirst
        exact Or.inr ⟨w :: passed, x, rest, rfl, List.forall_mem_cons.mpr ⟨hw, hpassed⟩, hx⟩
    · exact Or.inr ⟨[], w, ws, rfl, fun _ h => absurd h List.not_mem_nil, hw⟩

/-- Everything that a call can come to. -/
inductive Outcome (t : OptionTable) (s : Getopt) : Option OptionReport × Getopt → Prop
  | within {c : Byte} {cs : Text} : s.nextchar = c :: cs →
      Outcome t s (some (s.finish (t.short c cs)).1, (s.finish (t.short c cs)).2)
  | option {s' : Getopt} {passed rest : List Text} {w : Text} {p : Parsed} : s.nextchar = [] →
      s.rest = passed ++ w :: rest → (∀ x ∈ passed, t.word x = .positional) →
      t.word w = .option p →
      s' = { s with done := s.done ++ [w], skipped := s.skipped ++ passed, rest := rest } →
      Outcome t s (some (s'.finish p).1, (s'.finish p).2)
  | dashes {passed rest : List Text} {w : Text} : s.nextchar = [] →
      s.rest = passed ++ w :: rest → (∀ x ∈ passed, t.word x = .positional) →
      t.word w = .dashes →
      Outcome t s (none, { s with
        done := s.done ++ [w], skipped := s.skipped ++ passed ++ rest, rest := [] })
  | ended : s.nextchar = [] → (∀ x ∈ s.rest, t.word x = .positional) →
      Outcome t s (none, { s with skipped := s.skipped ++ s.rest, rest := [] })

theorem outcome_next (t : OptionTable) (s : Getopt) : Outcome t s (s.next t) := by
  unfold next
  split
  · rename_i hchar
    cases exists_first_option t s.rest with
    | inl hall =>
      have hadv := advance_append (s := s) hall []
      rw [List.append_nil] at hadv
      rw [hadv]
      exact .ended hchar hall
    | inr hfirst =>
      obtain ⟨passed, w, rest, hrest, hpassed, hw⟩ := hfirst
      rw [hrest, advance_append hpassed, advance]
      cases hword : t.word w with
      | positional => exact absurd hword hw
      | dashes => exact .dashes hchar hrest hpassed hword
      | option p => exact .option hchar hrest hpassed hword rfl
  · exact .within ‹_›

/-- A report fits the table. -/
theorem fits_next {s s' : Getopt} {r : OptionReport} (h : s.next t = (some r, s')) :
    t.Fits r := by
  have hout := outcome_next t s
  rw [h] at hout
  generalize hres : (some r, s') = res at hout
  cases hout with
  | @within c cs hchar =>
    obtain rfl := Option.some.inj (Prod.mk.inj hres).1
    cases hshort : t.short c cs with
    | report r nextchar => exact OptionTable.fits_of_short hshort
    | needs opt => exact fits_takeArg (OptionTable.takesArg_of_short hshort) _
  | @option s₁ _ _ w p _ _ _ hword _ =>
    obtain rfl := Option.some.inj (Prod.mk.inj hres).1
    cases p with
    | report r nextchar => exact OptionTable.fits_of_word hword
    | needs opt => exact fits_takeArg (OptionTable.takesArg_of_word hword) _
  | dashes => cases hres
  | ended => cases hres

theorem perm_words_takeArg (s : Getopt) (opt : Byte) : (s.takeArg opt).2.words.Perm s.words := by
  unfold takeArg
  split
  · exact List.Perm.refl _
  · rename_i arg rest hrest
    refine List.perm_iff_count.mpr fun w => ?_
    simp only [words, hrest, List.count_append, List.count_cons, List.count_nil]
    omega

theorem perm_words_finish (s : Getopt) (p : Parsed) : (s.finish p).2.words.Perm s.words := by
  cases p with
  | report r nextchar => exact List.Perm.refl _
  | needs opt => exact perm_words_takeArg { s with nextchar := [] } opt

/-- A call moves words, and loses none. -/
theorem perm_words_next (t : OptionTable) (s : Getopt) : (s.next t).2.words.Perm s.words := by
  have hout := outcome_next t s
  generalize s.next t = res at hout ⊢
  cases hout with
  | within => exact perm_words_finish _ _
  | option _ hrest _ _ hs =>
    refine (perm_words_finish _ _).trans (List.perm_iff_count.mpr fun w => ?_)
    rw [hs]
    simp only [words, hrest, List.count_append, List.count_cons, List.count_nil]
    omega
  | dashes _ hrest =>
    refine List.perm_iff_count.mpr fun w => ?_
    simp only [words, hrest, List.count_append, List.count_cons, List.count_nil]
    omega
  | ended =>
    refine List.perm_iff_count.mpr fun w => ?_
    simp only [words, List.count_append, List.count_nil]
    omega

end Getopt

end

/-! ## Calls -/

/-- Calls of the scanner that return these reports. -/
inductive Calls (t : OptionTable) : Getopt → List OptionReport → Getopt → Prop
  | nil (s : Getopt) : Calls t s [] s
  | cons {s s₁ s' : Getopt} {r : OptionReport} {rs : List OptionReport} :
      s.next t = (some r, s₁) → Calls t s₁ rs s' → Calls t s (r :: rs) s'

namespace Calls

variable {t : OptionTable} {s s₁ s' : Getopt} {r : OptionReport} {rs rs' : List OptionReport}

theorem single (h : s.next t = (some r, s')) : Calls t s [r] s' := .cons h (.nil s')

theorem append (h : Calls t s rs s₁) (h' : Calls t s₁ rs' s') : Calls t s (rs ++ rs') s' := by
  induction h with
  | nil => exact h'
  | cons hnext _ ih => exact .cons hnext (ih h')

theorem calls_eq (h : Calls t s rs s') : s.calls t rs.length = (rs, s') := by
  induction h with
  | nil => rfl
  | cons hnext _ ih => simp only [List.length_cons, Getopt.calls, hnext, ih]

/-- A loop that ends at -1 makes the calls before it. -/
theorem calls_eq_of_end (h : Calls t s rs s₁) (hend : s₁.next t = (none, s')) {n : Nat}
    (hn : rs.length < n) : s.calls t n = (rs, s') := by
  induction h generalizing n with
  | nil =>
    obtain ⟨n, rfl⟩ := Nat.exists_eq_succ_of_ne_zero (Nat.ne_of_gt hn)
    simp only [Getopt.calls, hend]
  | cons hnext _ ih =>
    obtain ⟨n, rfl⟩ := Nat.exists_eq_succ_of_ne_zero (Nat.ne_of_gt (Nat.zero_lt_of_lt hn))
    simp only [Getopt.calls, hnext, ih hend (Nat.lt_of_succ_lt_succ hn)]

theorem perm_words (h : Calls t s rs s') : s'.words.Perm s.words := by
  induction h with
  | nil => exact List.Perm.refl _
  | @cons s s₁ s' r rs hnext _ ih =>
    have hperm := Getopt.perm_words_next t s
    rw [hnext] at hperm
    exact ih.trans hperm

theorem fits (h : Calls t s rs s') : ∀ r ∈ rs, t.Fits r := by
  induction h with
  | nil => exact fun _ h => absurd h List.not_mem_nil
  | cons hnext _ ih => exact List.forall_mem_cons.mpr ⟨Getopt.fits_next hnext, ih⟩

end Calls

/-! ## The end of a scan -/

namespace Getopt

variable {t : OptionTable} {s s₁ s' : Getopt} {r : OptionReport} {rs : List OptionReport}

theorem size_takeArg_le (s : Getopt) (opt : Byte) : (s.takeArg opt).2.size ≤ s.size := by
  unfold takeArg
  split
  · exact Nat.le_refl _
  · rename_i arg rest hrest
    simp only [size, hrest, List.map_cons, List.sum_cons]
    omega

theorem size_finish_le (s : Getopt) (p : Parsed) {n : Nat}
    (hp : ∀ r nextchar, p = .report r nextchar → nextchar.length ≤ n) :
    (s.finish p).2.size ≤ n + (s.rest.map fun w => w.length + 1).sum := by
  cases p with
  | report r nextchar => exact Nat.add_le_add_right (hp r nextchar rfl) _
  | needs opt =>
    refine (size_takeArg_le _ opt).trans ?_
    simp [size]

/-- What is read off a word are ends of it. -/
structure Ends (r : OptionReport) (nextchar w : Text) : Prop where
  optarg : ∀ arg ∈ r.optarg, arg <:+ w
  nextchar : nextchar <:+ w

theorem Ends.trans {nextchar v w : Text} (h : Ends r nextchar v) (hv : v <:+ w) :
    Ends r nextchar w :=
  ⟨fun arg harg => (h.optarg arg harg).trans hv, h.nextchar.trans hv⟩

theorem ends_short {c : Byte} {cs nextchar : Text} (h : t.short c cs = .report r nextchar) :
    Ends r nextchar cs := by
  unfold OptionTable.short at h
  split at h
  · obtain ⟨rfl, rfl⟩ := Parsed.report.inj h
    exact ⟨nofun, List.suffix_refl _⟩
  · obtain ⟨rfl, rfl⟩ := Parsed.report.inj h
    exact ⟨nofun, List.suffix_refl _⟩
  · split at h
    · cases h
    · obtain ⟨rfl, rfl⟩ := Parsed.report.inj h
      refine ⟨fun arg harg => ?_, List.nil_suffix⟩
      obtain rfl := Option.some.inj harg
      exact List.suffix_refl _

theorem ends_long {body nextchar : Text} (h : t.long body = .report r nextchar) :
    Ends r nextchar body := by
  unfold OptionTable.long at h
  split at h
  · obtain ⟨rfl, rfl⟩ := Parsed.report.inj h
    exact ⟨nofun, List.nil_suffix⟩
  · split at h
    · split at h
      · cases h
      · obtain ⟨rfl, rfl⟩ := Parsed.report.inj h
        exact ⟨nofun, List.nil_suffix⟩
    · rename_i c value hvalue
      have hbody := List.dropWhile_suffix (fun x : Byte => decide (x ≠ ch '=')) (l := body)
      rw [hvalue] at hbody
      split at h
      · obtain ⟨rfl, rfl⟩ := Parsed.report.inj h
        refine ⟨fun arg harg => ?_, List.nil_suffix⟩
        obtain rfl := Option.some.inj harg
        exact (List.suffix_cons c value).trans hbody
      · obtain ⟨rfl, rfl⟩ := Parsed.report.inj h
        exact ⟨nofun, List.nil_suffix⟩

theorem ends_word {w nextchar : Text} (h : t.word w = .option (.report r nextchar)) :
    Ends r nextchar w := by
  unfold OptionTable.word at h
  split at h
  · rename_i d c cs
    have hcs : cs <:+ d :: c :: cs := (List.suffix_cons c cs).trans (List.suffix_cons d _)
    split at h
    · cases h
    · split at h
      · exact (ends_short (Word.option.inj h)).trans hcs
      · split at h
        · cases h
        · exact (ends_long (Word.option.inj h)).trans hcs
  · cases h

/-- A call that does not return -1 shortens what is left to read. -/
theorem size_next (h : s.next t = (some r, s')) : s'.size < s.size := by
  have hout := outcome_next t s
  rw [h] at hout
  generalize hres : (some r, s') = res at hout
  cases hout with
  | @within c cs hchar =>
    obtain rfl := (Prod.mk.inj hres).2
    refine Nat.lt_of_le_of_lt (size_finish_le s _ fun r n hp =>
      (ends_short hp).nextchar.length_le) ?_
    simp only [size, hchar, List.length_cons]
    omega
  | @option s₁ passed rest w p hchar hrest hpassed hword hs =>
    obtain rfl := (Prod.mk.inj hres).2
    refine Nat.lt_of_le_of_lt
      (size_finish_le s₁ p (n := w.length) fun r n hp =>
        (ends_word (hp ▸ hword)).nextchar.length_le) ?_
    rw [hs]
    simp only [size, hrest, List.map_append, List.map_cons, List.sum_append, List.sum_cons]
    omega
  | dashes => cases hres
  | ended => cases hres

/-- The calls come to an end. -/
theorem exists_calls (t : OptionTable) (s : Getopt) :
    ∃ rs s₁ s', Calls t s rs s₁ ∧ s₁.next t = (none, s') ∧ rs.length ≤ s.size := by
  induction hn : s.size using Nat.strongRecOn generalizing s with
  | ind n ih =>
    subst hn
    cases hnext : s.next t with
    | mk report s₁ =>
      cases report with
      | none => exact ⟨[], s, s₁, .nil s, hnext, Nat.zero_le _⟩
      | some r =>
        have hlt := size_next hnext
        obtain ⟨rs, s₂, s', hcalls, hend, hlen⟩ := ih s₁.size hlt s₁ rfl
        exact ⟨r :: rs, s₂, s', .cons hnext hcalls, hend, by rw [List.length_cons]; omega⟩

/-- A scan makes calls until one returns -1. -/
theorem scan_spec (t : OptionTable) (ws : List Text) :
    ∃ s₁, Calls t (start ws) (scan t ws).1 s₁ ∧ s₁.next t = (none, (scan t ws).2) := by
  obtain ⟨rs, s₁, s', hcalls, hend, hlen⟩ := exists_calls t (start ws)
  have hscan : scan t ws = (rs, s') := hcalls.calls_eq_of_end hend (Nat.lt_succ_of_le hlen)
  rw [hscan]
  exact ⟨s₁, hcalls, hend⟩

theorem scan_eq {ws : List Text} (h : Calls t (start ws) rs s₁)
    (hend : s₁.next t = (none, s')) : scan t ws = (rs, s') := by
  obtain ⟨s₂, hcalls, hend₂⟩ := scan_spec t ws
  have hself := hcalls.calls_eq_of_end hend₂ (Nat.lt_succ_of_le (Nat.le_add_right _ rs.length))
  have hother := h.calls_eq_of_end hend (Nat.lt_succ_of_le (Nat.le_add_left _ (scan t ws).1.length))
  exact hself.symm.trans hother

/-- The words after a scan are those before it. -/
theorem perm_words_scan (t : OptionTable) (ws : List Text) :
    (scan t ws).2.words.Perm ws := by
  obtain ⟨s₁, hcalls, hend⟩ := scan_spec t ws
  have hperm := perm_words_next t s₁
  rw [hend] at hperm
  exact hperm.trans hcalls.perm_words

end Getopt

/-! ## The characters of the arguments -/

/-- The characters that the scanner has yet to read. -/
structure Getopt.Reads (P : Byte → Prop) (s : Getopt) : Prop where
  nextchar : ∀ c ∈ s.nextchar, P c
  rest : ∀ w ∈ s.rest, ∀ c ∈ w, P c

/-- The characters of an argument, if there is one. -/
def OptionReport.Holds (P : Byte → Prop) (r : OptionReport) : Prop :=
  ∀ arg ∈ r.optarg, ∀ c ∈ arg, P c

namespace Getopt

variable {t : OptionTable} {P : Byte → Prop} {s s' : Getopt} {r : OptionReport}
  {rs : List OptionReport}

theorem reads_start {ws : List Text} (h : ∀ w ∈ ws, ∀ c ∈ w, P c) : (start ws).Reads P :=
  ⟨fun _ hc => absurd hc List.not_mem_nil, h⟩

theorem Reads.takeArg (h : s.Reads P) (opt : Byte) :
    (s.takeArg opt).1.Holds P ∧ (s.takeArg opt).2.Reads P := by
  unfold Getopt.takeArg
  split
  · exact ⟨nofun, h.nextchar, h.rest⟩
  · rename_i arg rest hrest
    obtain ⟨harg, hothers⟩ := List.forall_mem_cons.mp (hrest ▸ h.rest)
    refine ⟨fun x hx => ?_, h.nextchar, hothers⟩
    obtain rfl := Option.some.inj hx
    exact harg

theorem Reads.finish {w : Text} {p : Parsed} (h : s.Reads P) (hw : ∀ c ∈ w, P c)
    (hp : ∀ r nextchar, p = .report r nextchar → Ends r nextchar w) :
    (s.finish p).1.Holds P ∧ (s.finish p).2.Reads P := by
  cases p with
  | report r nextchar =>
    obtain ⟨harg, hnext⟩ := hp r nextchar rfl
    exact ⟨fun arg hmem c hc => hw c ((harg arg hmem).subset hc),
      fun c hc => hw c (hnext.subset hc), h.rest⟩
  | needs opt =>
    have hread : Reads P { s with nextchar := [] } :=
      ⟨fun c hc => absurd hc List.not_mem_nil, h.rest⟩
    exact hread.takeArg opt

/-- An argument has the characters of the words that are left to read. -/
theorem Reads.next (h : s.Reads P) (hnext : s.next t = (some r, s')) : r.Holds P ∧ s'.Reads P := by
  have hout := outcome_next t s
  rw [hnext] at hout
  generalize hres : (some r, s') = res at hout
  cases hout with
  | @within c cs hchar =>
    obtain ⟨hr, rfl⟩ := Prod.mk.inj hres
    obtain rfl := Option.some.inj hr
    have hword : ∀ x ∈ c :: cs, P x := hchar ▸ h.nextchar
    exact h.finish (List.forall_mem_cons.mp hword).2 fun r nextchar => ends_short
  | @option s₁ passed rest w p hchar hrest hpassed hword hs =>
    obtain ⟨hr, rfl⟩ := Prod.mk.inj hres
    obtain rfl := Option.some.inj hr
    have hall : ∀ x ∈ passed ++ w :: rest, ∀ c ∈ x, P c := hrest ▸ h.rest
    obtain ⟨hw, hothers⟩ := List.forall_mem_cons.mp (List.forall_mem_append.mp hall).2
    have hread : s₁.Reads P := hs ▸ ⟨h.nextchar, hothers⟩
    exact hread.finish hw fun r nextchar hp => ends_word (hp ▸ hword)
  | dashes => cases hres
  | ended => cases hres

theorem Reads.calls (h : s.Reads P) (hcalls : Calls t s rs s') : ∀ r ∈ rs, r.Holds P := by
  induction hcalls with
  | nil => exact fun _ hr => absurd hr List.not_mem_nil
  | cons hnext _ ih =>
    obtain ⟨hr, hread⟩ := h.next hnext
    exact List.forall_mem_cons.mpr ⟨hr, ih hread⟩

end Getopt

/-! ## A second scan -/

namespace Getopt

variable {t : OptionTable} {s s₁ s' : Getopt} {r : OptionReport} {rs : List OptionReport}
  {ws : List Text}

/-- The scanner in a second scan, which has passed over no word. -/
def again (done : List Text) (nextchar : Text) (rest : List Text) : Getopt :=
  ⟨done, [], nextchar, rest, false⟩

/-- What a call needs of the words is the part `used`, and a second scan reads it again
whatever comes behind it. -/
structure Rereads (t : OptionTable) (s : Getopt) (used : List Text) (rs : List OptionReport)
    (s' : Getopt) : Prop where
  done : s'.done = s.done ++ used
  lacksArg : s'.lacksArg = false
  again : ∀ done rest, Calls t (again done s.nextchar (used ++ rest)) rs
    (again (done ++ used) s'.nextchar rest)

/-- The last call lacks an argument, which a second scan takes from what comes behind. -/
structure Starved (t : OptionTable) (s : Getopt) (used : List Text) (rs : List OptionReport)
    (s' : Getopt) (rs₀ : List OptionReport) (opt : Byte) : Prop where
  done : s'.done = s.done ++ used
  lacksArg : s'.lacksArg = true
  rest : s'.rest = []
  nextchar : s'.nextchar = []
  reports : rs = rs₀ ++ [⟨ch '?', none⟩]
  takesArg : t.TakesArg opt
  again : ∀ done rest, Calls t (again done s.nextchar (used ++ rest))
    (rs₀ ++ [((again (done ++ used) [] rest).takeArg opt).1])
    ((again (done ++ used) [] rest).takeArg opt).2

/-- Reading an option again. The words that it used are its argument. -/
theorem finish_again (s : Getopt) (hs : s.lacksArg = false) (p : Parsed) :
    (∃ args, (s.finish p).2.done = s.done ++ args ∧ (s.finish p).2.lacksArg = false ∧
      ∀ done nextchar rest, finish (again done nextchar (args ++ rest)) p =
        ((s.finish p).1, again (done ++ args) (s.finish p).2.nextchar rest)) ∨
    ∃ opt, p = .needs opt ∧ s.rest = [] := by
  cases p with
  | report r nextchar =>
    refine Or.inl ⟨[], (List.append_nil _).symm, hs, fun done _ rest => ?_⟩
    rw [List.append_nil]
    rfl
  | needs opt =>
    cases hrest : s.rest with
    | nil => exact Or.inr ⟨opt, rfl, rfl⟩
    | cons arg rest =>
      refine Or.inl ⟨[arg], ?_, ?_, fun done _ others => ?_⟩
      · simp only [finish, takeArg, hrest]
      · simp only [finish, takeArg, hrest, hs]
      · simp only [finish, takeArg, hrest, Getopt.again, List.singleton_append]

theorem finish_starved {opt : Byte} (h : s.rest = []) :
    s.finish (.needs opt) = (⟨ch '?', none⟩, { s with nextchar := [], lacksArg := true }) := by
  simp only [finish, takeArg, h]

/-- Reading the current word again. -/
theorem rereads_or_starved_within {c : Byte} {cs : Text} (hs : s.lacksArg = false)
    (hchar : s.nextchar = c :: cs) :
    (∃ used, Rereads t s used [(s.finish (t.short c cs)).1] (s.finish (t.short c cs)).2) ∨
      ∃ used rs₀ opt, Starved t s used [(s.finish (t.short c cs)).1]
        (s.finish (t.short c cs)).2 rs₀ opt := by
  cases finish_again s hs (t.short c cs) with
  | inl hread =>
    obtain ⟨args, hdone, hlacks, hagain⟩ := hread
    refine Or.inl ⟨args, hdone, hlacks, fun done rest => .single ?_⟩
    rw [hchar]
    exact congrArg (fun q : OptionReport × Getopt => (some q.1, q.2)) (hagain done (c :: cs) rest)
  | inr hstarved =>
    obtain ⟨opt, hneeds, hrest⟩ := hstarved
    rw [hneeds, finish_starved hrest]
    refine Or.inr ⟨[], [], opt, (List.append_nil _).symm, rfl, hrest, rfl, rfl,
      OptionTable.takesArg_of_short hneeds, fun done rest => .single ?_⟩
    rw [hchar, List.append_nil, List.nil_append]
    exact congrArg (fun p => (some (finish (again done (c :: cs) rest) p).1,
      (finish (again done (c :: cs) rest) p).2)) hneeds

/-- Reading a word and what it needs again. -/
theorem rereads_or_starved_option {passed rest : List Text} {w : Text} {p : Parsed}
    (hs : s.lacksArg = false) (hchar : s.nextchar = []) (hword : t.word w = .option p)
    (h₁ : s₁ = { s with done := s.done ++ [w], skipped := s.skipped ++ passed, rest := rest }) :
    (∃ used, Rereads t s used [(s₁.finish p).1] (s₁.finish p).2) ∨
      ∃ used rs₀ opt, Starved t s used [(s₁.finish p).1] (s₁.finish p).2 rs₀ opt := by
  have hnext : ∀ done others, (again done s.nextchar (w :: others)).next t =
      (some (finish (again (done ++ [w]) [] others) p).1,
        (finish (again (done ++ [w]) [] others) p).2) := by
    intro done others
    rw [hchar]
    simp only [next, Getopt.again, advance, hword]
  have hdone₁ : s₁.done = s.done ++ [w] := by rw [h₁]
  cases finish_again s₁ (by rw [h₁]; exact hs) p with
  | inl hread =>
    obtain ⟨args, hdone, hlacks, hagain⟩ := hread
    refine Or.inl ⟨w :: args, ?_, hlacks, fun done others => .single ?_⟩
    · rw [hdone, hdone₁, List.append_assoc, List.singleton_append]
    · rw [List.cons_append, hnext, hagain, List.append_assoc, List.singleton_append]
  | inr hstarved =>
    obtain ⟨opt, hneeds, hrest⟩ := hstarved
    subst hneeds
    rw [finish_starved hrest]
    refine Or.inr ⟨[w], [], opt, hdone₁, rfl, hrest, rfl, rfl,
      OptionTable.takesArg_of_word hword, fun done others => .single ?_⟩
    rw [List.singleton_append, hnext]
    rfl

theorem rereads_or_starved_next (hs : s.lacksArg = false) (h : s.next t = (some r, s')) :
    (∃ used, Rereads t s used [r] s') ∨ ∃ used rs₀ opt, Starved t s used [r] s' rs₀ opt := by
  have hout := outcome_next t s
  rw [h] at hout
  generalize hres : (some r, s') = res at hout
  cases hout with
  | within hchar =>
    obtain ⟨hr, rfl⟩ := Prod.mk.inj hres
    obtain rfl := Option.some.inj hr
    exact rereads_or_starved_within hs hchar
  | option hchar _ _ hword h₁ =>
    obtain ⟨hr, rfl⟩ := Prod.mk.inj hres
    obtain rfl := Option.some.inj hr
    exact rereads_or_starved_option hs hchar hword h₁
  | dashes => cases hres
  | ended => cases hres

theorem calls_of_over (hchar : s.nextchar = []) (hrest : s.rest = []) (h : Calls t s rs s') :
    rs = [] ∧ s' = s := by
  cases h with
  | nil => exact ⟨rfl, rfl⟩
  | cons hnext =>
    simp only [next, hchar, hrest, advance] at hnext
    cases hnext

/-- The calls of a scan can be made again, up to the last one when it lacks its argument. -/
theorem rereads_or_starved (h : Calls t s rs s') (hs : s.lacksArg = false) :
    (∃ used, Rereads t s used rs s') ∨ ∃ used rs₀ opt, Starved t s used rs s' rs₀ opt := by
  induction h with
  | nil s =>
    refine Or.inl ⟨[], (List.append_nil _).symm, hs, fun done rest => ?_⟩
    rw [List.append_nil]
    exact .nil _
  | @cons s s₁ s' r rs hnext hcalls ih =>
    cases rereads_or_starved_next hs hnext with
    | inr hstarved =>
      obtain ⟨used, rs₀, opt, hstarved⟩ := hstarved
      obtain ⟨rfl, rfl⟩ := calls_of_over hstarved.nextchar hstarved.rest hcalls
      exact Or.inr ⟨used, rs₀, opt, hstarved⟩
    | inl hread =>
      obtain ⟨used, hread⟩ := hread
      cases ih hread.lacksArg with
      | inl hmore =>
        obtain ⟨used', hmore⟩ := hmore
        refine Or.inl ⟨used ++ used', ?_, hmore.lacksArg, fun done rest => ?_⟩
        · rw [hmore.done, hread.done, List.append_assoc]
        · rw [List.append_assoc, ← List.append_assoc done]
          exact (hread.again done (used' ++ rest)).append (hmore.again (done ++ used) rest)
      | inr hmore =>
        obtain ⟨used', rs₀, opt, hmore⟩ := hmore
        refine Or.inr ⟨used ++ used', r :: rs₀, opt, ?_, hmore.lacksArg, hmore.rest,
          hmore.nextchar, ?_, hmore.takesArg, fun done rest => ?_⟩
        · rw [hmore.done, hread.done, List.append_assoc]
        · rw [hmore.reports, List.cons_append]
        · rw [List.append_assoc, ← List.append_assoc done]
          exact (hread.again done (used' ++ rest)).append (hmore.again (done ++ used) rest)

/-- The call that returns -1 moves the words that were passed over to the end. -/
theorem end_spec (h : s.next t = (none, s')) :
    ∃ taken, s'.done = s.done ++ taken ∧ s'.rest = [] ∧ s'.lacksArg = s.lacksArg ∧
      (s.rest = [] → taken = []) := by
  have hout := outcome_next t s
  rw [h] at hout
  generalize hres : (none, s') = res at hout
  cases hout with
  | within => cases hres
  | option => cases hres
  | dashes hchar hrest =>
    obtain rfl := (Prod.mk.inj hres).2
    refine ⟨_, rfl, rfl, rfl, fun hnil => ?_⟩
    rw [hrest] at hnil
    exact absurd hnil (by simp)
  | ended =>
    obtain rfl := (Prod.mk.inj hres).2
    exact ⟨[], (List.append_nil _).symm, rfl, rfl, fun _ => rfl⟩

/-- The words after a scan, and its calls made again on them. -/
theorem scan_again_cases (t : OptionTable) (ws : List Text) :
    ((scan t ws).2.lacksArg = false ∧
      ∃ s', Calls t (start (scan t ws).2.words) (scan t ws).1 s' ∧
        s'.words = (scan t ws).2.words) ∨
    ((scan t ws).2.lacksArg = true ∧ (scan t ws).2.rest = [] ∧ ∃ used rs₀ opt,
      (scan t ws).2.done = used ∧ (scan t ws).1 = rs₀ ++ [⟨ch '?', none⟩] ∧ t.TakesArg opt ∧
        ∀ rest, Calls t (start (used ++ rest))
          (rs₀ ++ [((again used [] rest).takeArg opt).1])
          ((again used [] rest).takeArg opt).2) := by
  obtain ⟨s₁, hcalls, hend⟩ := scan_spec t ws
  obtain ⟨taken, hdone, hrest, hlacks, htaken⟩ := end_spec hend
  cases rereads_or_starved hcalls rfl with
  | inl hread =>
    obtain ⟨used, hread⟩ := hread
    have hwords : (scan t ws).2.words = used ++ (taken ++ (scan t ws).2.skipped) := by
      rw [words, hdone, hread.done, hrest, List.append_nil, List.append_assoc]
      rfl
    have hagain := hread.again [] (taken ++ (scan t ws).2.skipped)
    rw [hwords]
    refine Or.inl ⟨hlacks.trans hread.lacksArg, _, hagain, ?_⟩
    simp [words, Getopt.again]
  | inr hstarved =>
    obtain ⟨used, rs₀, opt, hstarved⟩ := hstarved
    refine Or.inr ⟨hlacks.trans hstarved.lacksArg, hrest, used, rs₀, opt, ?_, hstarved.reports,
      hstarved.takesArg, fun rest => ?_⟩
    · rw [hdone, hstarved.done, htaken hstarved.rest, List.append_nil]
      rfl
    · exact hstarved.again [] rest

/-- A second scan reports what the first one did, unless the option at the end lacks its
argument and there are words to be moved behind it. -/
theorem scan_again (h : (scan t ws).2.lacksArg = false ∨ (scan t ws).2.skipped = []) :
    ∃ s', Calls t (start (scan t ws).2.words) (scan t ws).1 s' ∧
      s'.words = (scan t ws).2.words := by
  cases scan_again_cases t ws with
  | inl hread => exact hread.2
  | inr hstarved =>
    obtain ⟨hlacks, hrest, used, rs₀, opt, hdone, hreports, -, hagain⟩ := hstarved
    have hskipped := h.resolve_left (by rw [hlacks]; exact Bool.noConfusion)
    have hwords : (scan t ws).2.words = used := by
      rw [words, hdone, hskipped, hrest, List.append_nil, List.append_nil]
    have hcalls := hagain []
    rw [List.append_nil] at hcalls
    rw [hwords, hreports]
    refine ⟨_, hcalls, ?_⟩
    simp [words, takeArg, Getopt.again]

/-- Otherwise the option takes the first word that was passed over as its argument. -/
theorem scan_again_of_lacksArg {x : Text} {xs : List Text}
    (hlacks : (scan t ws).2.lacksArg = true) (hskipped : (scan t ws).2.skipped = x :: xs) :
    ∃ rs₀ opt s', (scan t ws).1 = rs₀ ++ [⟨ch '?', none⟩] ∧ t.TakesArg opt ∧
      Calls t (start (scan t ws).2.words) (rs₀ ++ [⟨opt, some x⟩]) s' ∧
      s'.words = (scan t ws).2.words := by
  cases scan_again_cases t ws with
  | inl hread =>
    rw [hread.1] at hlacks
    cases hlacks
  | inr hstarved =>
    obtain ⟨-, hrest, used, rs₀, opt, hdone, hreports, htakes, hagain⟩ := hstarved
    have hwords : (scan t ws).2.words = used ++ x :: xs := by
      rw [words, hdone, hskipped, hrest, List.append_nil]
    rw [hwords]
    refine ⟨rs₀, opt, _, hreports, htakes, hagain (x :: xs), ?_⟩
    simp [words, takeArg, Getopt.again]

end Getopt

end CLib
