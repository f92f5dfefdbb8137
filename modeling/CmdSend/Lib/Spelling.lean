-- SUMMARY: The command lines that spell a list of options and positional words, and the scan of such a line.
import CmdSend.Lib.Getopt

/-!
# Spelling a command line

The ways to write options and positional words for `getopt_long`, as a relation between
what is meant and the words (`CommandLine`), and the proof that the scan of a command line
finds what is meant, however it is written.
-/

namespace CLib

/-- The words that spell some options: a long option with its value in the same word or in
the next one, or several short options in one word, of which the last can have a value. -/
inductive Spells (t : OptionTable) : List OptionReport → List Text → Prop
  | longFlag {name : Text} {o : LongOption} : t.findLong name = some o → o.hasArg = false →
      ch '=' ∉ name → name ≠ [] → Spells t [⟨o.val, none⟩] [str "--" ++ name]
  | longJoined {name value : Text} {o : LongOption} : t.findLong name = some o →
      o.hasArg = true → ch '=' ∉ name →
      Spells t [⟨o.val, some value⟩] [str "--" ++ (name ++ ch '=' :: value)]
  | longSeparate {name value : Text} {o : LongOption} : t.findLong name = some o →
      o.hasArg = true → ch '=' ∉ name → name ≠ [] →
      Spells t [⟨o.val, some value⟩] [str "--" ++ name, value]
  | flags {c : Byte} {flags : Text} : (∀ x ∈ c :: flags, t.shortHasArg x = some false) →
      Spells t ((c :: flags).map fun x => ⟨x, none⟩) [ch '-' :: c :: flags]
  | shortJoined {c : Byte} {flags value : Text} : (∀ x ∈ flags, t.shortHasArg x = some false) →
      t.shortHasArg c = some true → value ≠ [] →
      Spells t (flags.map (fun x => ⟨x, none⟩) ++ [⟨c, some value⟩])
        [ch '-' :: (flags ++ c :: value)]
  | shortSeparate {c : Byte} {flags value : Text} :
      (∀ x ∈ flags, t.shortHasArg x = some false) → t.shortHasArg c = some true →
      Spells t (flags.map (fun x => ⟨x, none⟩) ++ [⟨c, some value⟩])
        [ch '-' :: (flags ++ [c]), value]

/-- The command lines for these options and positional words, which can stand between the
options or, whatever they look like, behind `--`. -/
inductive CommandLine (t : OptionTable) : List OptionReport → List Text → List Text → Prop
  | nil : CommandLine t [] [] []
  | option {rs rs' : List OptionReport} {ws positional line : List Text} : Spells t rs ws →
      CommandLine t rs' positional line → CommandLine t (rs ++ rs') positional (ws ++ line)
  | positional {rs : List OptionReport} {w : Text} {positional line : List Text} :
      t.word w = .positional → CommandLine t rs positional line →
      CommandLine t rs (w :: positional) (w :: line)
  | dashes (positional : List Text) : CommandLine t [] positional (str "--" :: positional)

/-- The calls up to the one that returns -1. -/
def Scans (t : OptionTable) (s : Getopt) (rs : List OptionReport) (s' : Getopt) : Prop :=
  ∃ s₁, Calls t s rs s₁ ∧ s₁.next t = (none, s')

namespace Getopt

variable {t : OptionTable} {s s₁ s₂ s' : Getopt} {rs rs' : List OptionReport}

theorem scans_of_calls (h : Calls t s rs s₁) (h' : Scans t s₁ rs' s') :
    Scans t s (rs ++ rs') s' := by
  obtain ⟨s₂, hcalls, hend⟩ := h'
  exact ⟨s₂, h.append hcalls, hend⟩

/-- The first call is all that a scan sees of its start. -/
theorem scans_of_next_eq (h : s.next t = s₂.next t) (hscan : Scans t s₂ rs s') :
    Scans t s rs s' := by
  obtain ⟨s₁, hcalls, hend⟩ := hscan
  cases hcalls with
  | nil => exact ⟨s, .nil s, h.trans hend⟩
  | cons hnext hcalls => exact ⟨s₁, .cons (h.trans hnext) hcalls, hend⟩

theorem advance_rest (X ws : List Text) :
    advance t { s with rest := X } ws = advance t s ws := by
  induction ws generalizing s with
  | nil => rfl
  | cons w ws ih =>
    simp only [advance]
    cases t.word w with
    | positional => exact @ih { s with skipped := s.skipped ++ [w] }
    | dashes => rfl
    | option p => rfl

theorem next_positional {w : Text} {rest : List Text} (hchar : s.nextchar = [])
    (hrest : s.rest = w :: rest) (hword : t.word w = .positional) :
    s.next t = next t { s with skipped := s.skipped ++ [w], rest := rest } := by
  simp only [next, hchar, hrest, advance, hword]
  exact (advance_rest rest rest).symm

theorem next_option {w : Text} {rest : List Text} {p : Parsed} (hchar : s.nextchar = [])
    (hrest : s.rest = w :: rest) (hword : t.word w = .option p) :
    s.next t = (some (finish { s with done := s.done ++ [w], rest := rest } p).1,
      (finish { s with done := s.done ++ [w], rest := rest } p).2) := by
  simp only [next, hchar, hrest, advance, hword]

/-! ## Long options -/

theorem word_long {body : Text} (h : body ≠ []) :
    t.word (str "--" ++ body) = .option (t.long body) := by
  obtain ⟨c, cs, rfl⟩ := List.exists_cons_of_ne_nil h
  have hdash : str "--" ++ c :: cs = ch '-' :: ch '-' :: c :: cs := rfl
  simp [hdash, OptionTable.word]

/-- The name of a long option ends at its equals sign. -/
theorem split_name {name : Text} (h : ch '=' ∉ name) (rest : Text) :
    (name ++ rest).takeWhile (· ≠ ch '=') = name ++ rest.takeWhile (· ≠ ch '=') ∧
      (name ++ rest).dropWhile (· ≠ ch '=') = rest.dropWhile (· ≠ ch '=') := by
  have hall : ∀ x ∈ name, decide (x ≠ ch '=') = true :=
    fun x hx => decide_eq_true fun heq => h (heq ▸ hx)
  exact ⟨List.takeWhile_append_of_pos hall, List.dropWhile_append_of_pos hall⟩

theorem long_joined {name : Text} {o : LongOption} (hfind : t.findLong name = some o)
    (harg : o.hasArg = true) (hname : ch '=' ∉ name) (value : Text) :
    t.long (name ++ ch '=' :: value) = .report ⟨o.val, some value⟩ [] := by
  obtain ⟨htake, hdrop⟩ := split_name hname (ch '=' :: value)
  have hempty : (ch '=' :: value).takeWhile (· ≠ ch '=') = [] := by simp
  have hvalue : (ch '=' :: value).dropWhile (· ≠ ch '=') = ch '=' :: value := by simp
  rw [hempty, List.append_nil] at htake
  unfold OptionTable.long
  rw [htake, hdrop, hvalue, hfind]
  exact if_pos harg

theorem long_alone {name : Text} {o : LongOption} (hfind : t.findLong name = some o)
    (hname : ch '=' ∉ name) :
    t.long name = if o.hasArg then .needs o.val else .report ⟨o.val, none⟩ [] := by
  obtain ⟨htake, hdrop⟩ := split_name hname []
  rw [List.append_nil, List.takeWhile_nil, List.append_nil] at htake
  rw [List.append_nil, List.dropWhile_nil] at hdrop
  unfold OptionTable.long
  rw [htake, hdrop, hfind]

/-! ## Short options -/

/-- A word with short options is open from its first character on. -/
theorem next_cluster {c : Byte} {cs : Text} {rest : List Text} (hchar : s.nextchar = [])
    (hrest : s.rest = (ch '-' :: c :: cs) :: rest) (hc : c ≠ ch '-') :
    s.next t =
      next t { s with
        done := s.done ++ [ch '-' :: c :: cs], nextchar := c :: cs, rest := rest } := by
  have hword : t.word (ch '-' :: c :: cs) = .option (t.short c cs) := by
    simp [OptionTable.word, hc]
  rw [next_option hchar hrest hword]
  cases hshort : t.short c cs with
  | report r nextchar => simp only [next, hshort, finish]
  | needs opt => simp only [next, hshort, finish]

theorem calls_flags {flags cs : Text} (h : ∀ x ∈ flags, t.shortHasArg x = some false)
    (hchar : s.nextchar = flags ++ cs) :
    Calls t s (flags.map fun x => ⟨x, none⟩) { s with nextchar := cs } := by
  induction flags generalizing s with
  | nil =>
    have hs : s = { s with nextchar := cs } := by rw [← List.nil_append cs, ← hchar]
    rw [← hs]
    exact .nil s
  | cons c flags ih =>
    have hnext : s.next t = (some ⟨c, none⟩, { s with nextchar := flags ++ cs }) := by
      simp only [next, hchar, List.cons_append, OptionTable.short, h c List.mem_cons_self, finish]
    refine .cons hnext (ih (fun x hx => h x (List.mem_cons_of_mem c hx)) rfl)

/-- A short option with its value in the same word. -/
theorem next_joined {c : Byte} {value : Text} (hchar : s.nextchar = c :: value)
    (harg : t.shortHasArg c = some true) (hvalue : value ≠ []) :
    s.next t = (some ⟨c, some value⟩, { s with nextchar := [] }) := by
  simp only [next, hchar, OptionTable.short, harg, if_neg hvalue, finish]

/-- A short option with its value in the next word. -/
theorem next_separate {c : Byte} {value : Text} {rest : List Text} (hchar : s.nextchar = [c])
    (hrest : s.rest = value :: rest) (harg : t.shortHasArg c = some true) :
    s.next t = (some ⟨c, some value⟩,
      { s with done := s.done ++ [value], nextchar := [], rest := rest }) := by
  simp [next, hchar, OptionTable.short, harg, finish, takeArg, hrest]

/-! ## Lines -/

/-- Calls in a word with short options, from the word on. -/
theorem calls_of_cluster {c : Byte} {cs text : Text} {rest : List Text} (htext : text = c :: cs)
    (hc : c ≠ ch '-') (hchar : s.nextchar = []) (hrest : s.rest = (ch '-' :: text) :: rest)
    (hrs : rs ≠ [])
    (h : Calls t { s with done := s.done ++ [ch '-' :: text], nextchar := text, rest := rest }
      rs s') : Calls t s rs s' := by
  subst htext
  cases h with
  | nil => exact absurd rfl hrs
  | cons hnext hcalls => exact .cons ((next_cluster hchar hrest hc).trans hnext) hcalls

/-- The first character behind the dash is that of an option. -/
theorem exists_head {c : Byte} {flags : Text} (value : Text)
    (hdash : t.shortHasArg (ch '-') = none) (hflags : ∀ x ∈ flags, t.shortHasArg x = some false)
    (harg : t.shortHasArg c = some true) :
    ∃ d ds, flags ++ c :: value = d :: ds ∧ d ≠ ch '-' := by
  cases flags with
  | nil =>
    refine ⟨c, value, rfl, ?_⟩
    rintro rfl
    rw [hdash] at harg
    cases harg
  | cons f fs =>
    refine ⟨f, fs ++ c :: value, rfl, ?_⟩
    rintro rfl
    have hf := hflags _ List.mem_cons_self
    rw [hdash] at hf
    cases hf

theorem calls_of_spells {ws rest : List Text} (hdash : t.shortHasArg (ch '-') = none)
    (h : Spells t rs ws) (hchar : s.nextchar = []) (hrest : s.rest = ws ++ rest) :
    Calls t s rs { s with done := s.done ++ ws, rest := rest } := by
  cases h with
  | longFlag hfind harg hname hnil =>
    refine .single ?_
    rw [next_option hchar hrest (word_long hnil), long_alone hfind hname, harg, if_neg nofun]
    simp [finish, hchar]
  | longJoined hfind harg hname =>
    refine .single ?_
    rw [next_option hchar hrest (word_long (by simp)), long_joined hfind harg hname]
    simp [finish, hchar]
  | longSeparate hfind harg hname hnil =>
    refine .single ?_
    rw [next_option hchar hrest (word_long hnil), long_alone hfind hname, harg, if_pos rfl]
    simp [finish, takeArg, hchar]
  | @flags c flags hflags =>
    have hc : c ≠ ch '-' := by
      rintro rfl
      have hdash' := hflags _ List.mem_cons_self
      rw [hdash] at hdash'
      cases hdash'
    refine calls_of_cluster rfl hc hchar hrest (List.cons_ne_nil _ _) ?_
    rw [hchar]
    exact calls_flags hflags (List.append_nil _).symm
  | @shortJoined c flags value hflags harg hvalue =>
    obtain ⟨d, ds, htext, hd⟩ := exists_head value hdash hflags harg
    refine calls_of_cluster htext hd hchar hrest (by simp) ?_
    rw [hchar]
    exact (calls_flags hflags rfl).append (.single (next_joined rfl harg hvalue))
  | @shortSeparate c flags value hflags harg =>
    obtain ⟨d, ds, htext, hd⟩ := exists_head [] hdash hflags harg
    refine calls_of_cluster htext hd hchar hrest (by simp) ?_
    rw [hchar]
    refine (calls_flags hflags rfl).append (.single ?_)
    rw [next_separate rfl rfl harg, List.append_assoc]
    rfl

/-- A scan of a command line reports its options and leaves its positional words, in the
order in which they stand on it. -/
theorem scans_of_commandLine {positional line : List Text}
    (hdash : t.shortHasArg (ch '-') = none) (h : CommandLine t rs positional line)
    (hchar : s.nextchar = []) (hrest : s.rest = line) :
    ∃ s', Scans t s rs s' ∧ s'.skipped = s.skipped ++ positional ∧ s'.lacksArg = s.lacksArg := by
  induction h generalizing s with
  | nil =>
    refine ⟨{ s with rest := [] }, ⟨s, .nil s, ?_⟩, (List.append_nil _).symm, rfl⟩
    simp only [next, hchar, hrest, advance]
  | @option rs rs' ws positional line hspells _ ih =>
    have hcalls := calls_of_spells hdash hspells hchar hrest
    obtain ⟨s', hscans, hskipped, hlacks⟩ :=
      @ih { s with done := s.done ++ ws, rest := line } hchar rfl
    exact ⟨s', scans_of_calls hcalls hscans, hskipped, hlacks⟩
  | @positional rs w positional line hword _ ih =>
    obtain ⟨s', hscans, hskipped, hlacks⟩ :=
      @ih { s with skipped := s.skipped ++ [w], rest := line } hchar rfl
    refine ⟨s', scans_of_next_eq (next_positional hchar hrest hword) hscans, ?_, hlacks⟩
    rw [hskipped, List.append_assoc, List.singleton_append]
  | dashes positional =>
    have hword : t.word (str "--") = .dashes := by
      have hstr : str "--" = [ch '-', ch '-'] := rfl
      simp [hstr, OptionTable.word]
    refine ⟨{ s with done := s.done ++ [str "--"], skipped := s.skipped ++ positional, rest := [] },
      ⟨s, .nil s, ?_⟩, rfl, rfl⟩
    simp only [next, hchar, hrest, advance, hword]

theorem scan_of_commandLine {positional line : List Text}
    (hdash : t.shortHasArg (ch '-') = none) (h : CommandLine t rs positional line) :
    (scan t line).1 = rs ∧ (scan t line).2.skipped = positional ∧
      (scan t line).2.lacksArg = false := by
  obtain ⟨s', ⟨s₁, hcalls, hend⟩, hskipped, hlacks⟩ :=
    scans_of_commandLine (s := start line) hdash h rfl rfl
  rw [scan_eq hcalls hend]
  exact ⟨rfl, hskipped, hlacks⟩

end Getopt

end CLib
