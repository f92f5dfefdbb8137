-- SUMMARY: CollectOptions of cmd_send.c: its two scans of the command line, and the options, the host and the port that it collects.
import CmdSend.Lib.Run
import CmdSend.Lib.Spelling
import CmdSend.Options

/-!
# Collecting the options

`CollectOptions` scans the command line twice, first to count the options and then to store
them. The command line is the list of the words behind the name of the program.
-/

namespace CmdSend

open CLib

/-! ## The option table -/

/-- The `name` column of `CMDSEND_OPTION_LONGINFO`. -/
def OptionId.name : OptionId → Text
  | .none => []
  | .help => str "help"
  | .verbose => str "verbose"
  | .pktapid => str "pktapid"
  | .pktpb => str "pktpb"
  | .cmdcode => str "cmdcode"
  | .pktfc => str "pktfc"
  | .pktedsver => str "pktedsver"
  | .endian => str "endian"
  | .pktseqflg => str "pktseqflg"
  | .pktname => str "pktname"
  | .pktseqcnt => str "pktseqcnt"
  | .host => str "host"
  | .pktid => str "pktid"
  | .pktendian => str "pktendian"
  | .pktlen => str "pktlen"
  | .port => str "port"
  | .protocol => str "protocol"
  | .pktcksum => str "pktcksum"
  | .pktsec => str "pktsec"
  | .pkttype => str "pkttype"
  | .pktsubsys => str "pktsubsys"
  | .pktver => str "pktver"
  | .pktsys => str "pktsys"
  | .byte => str "byte"
  | .int8 => str "int8"
  | .double => str "double"
  | .float => str "float"
  | .half => str "half"
  | .int16 => str "int16"
  | .int16b => str "int16b"
  | .int32b => str "int32b"
  | .int64b => str "int64b"
  | .long => str "long"
  | .word => str "word"
  | .int32 => str "int32"
  | .uint8 => str "uint8"
  | .uint16 => str "uint16"
  | .uint32 => str "uint32"
  | .uint64 => str "uint64"
  | .int64 => str "int64"
  | .string => str "string"
  | .uint16b => str "uint16b"
  | .uint32b => str "uint32b"
  | .uint64b => str "uint64b"

/-- `CMDSEND_OPTSTRING`. -/
def optstring : Text :=
  str "A:B:C:D:E:F:G:H:I:J:L:P:Q:R:S:T:U:V:Y:b:d:f:h:i:j:k:l:m:n:o:p:q:s:vw:x:y:?"

/-- A line of `CMDSEND_OPTION_LONGINFO`. -/
def OptionId.longInfo (id : OptionId) : LongOption := ⟨id.name, id.hasArg, id.val⟩

/-- The arguments of `getopt_long` in `CollectOptions`. -/
def optionTable : OptionTable := ⟨optstring, OptionId.options.map OptionId.longInfo⟩

/-! ## Collecting -/

namespace Collect

/-- `MAX_HOSTNAME_SIZE`. -/
def maxHostnameSize : Nat := 128

/-- `MAX_PORT_SIZE`. -/
def maxPortSize : Nat := 32

/-- The members of `CommandData_t` that `CollectOptions` sets, and `ConsoleUtils_Verbosity`.
`ArgV` is filled from the front: `argV` has the entries that have been stored, and
`argVSize` says how many have been allocated. -/
structure CommandData where
  showHelp : Bool
  hostName : Mem
  portNum : Mem
  optionCount : Nat
  nonOptionCount : Nat
  argVSize : Nat
  argV : List ArgVEntry
  verbosity : Nat

/-- The defaults of `main`. -/
def defaults : CommandData where
  showHelp := false
  hostName := Mem.strncpy (fun _ => 0) (str "127.0.0.1") (maxHostnameSize - 1)
  portNum := Mem.strncpy (fun _ => 0) (str "1234") (maxPortSize - 1)
  optionCount := 0
  nonOptionCount := 0
  argVSize := 0
  argV := []
  verbosity := 0

namespace CommandData

/-- Store the entry of an option. -/
def store (cmd : CommandData) (id : OptionId) (text : Option Text) : CommandData :=
  { cmd with optionCount := cmd.optionCount + 1, argV := cmd.argV ++ [⟨id, text⟩] }

/-- The body of the second loop of `CollectOptions`, for a report of `getopt_long`. The
texts of the host and the port are never null. -/
def collectOption (cmd : CommandData) (r : OptionReport) : CommandData :=
  let id := reverseOptLookup r.opt
  if id.val ≠ r.opt ∨ id = .help then { cmd with showHelp := true }.store id none
  else if id = .verbose then { cmd with verbosity := cmd.verbosity + 1 }.store id none
  else if id = .host then
    { cmd with
      hostName := cmd.hostName.strncpy (r.optarg.getD []) (maxHostnameSize - 1) }.store id none
  else if id = .port then
    { cmd with portNum := cmd.portNum.strncpy (r.optarg.getD []) (maxPortSize - 1) }.store id none
  else if id.hasArg ∧ r.optarg ≠ none then cmd.store id r.optarg
  else cmd.store id none

/-- The body of the third loop. -/
def collectNonOption (cmd : CommandData) (text : Text) : CommandData :=
  { cmd with
    nonOptionCount := cmd.nonOptionCount + 1
    argV := cmd.argV ++ [⟨.none, some text⟩] }

end CommandData

/-- The calls of the second scan: as many as the first one has counted, on the words as it
has left them. -/
def secondScan (argv : List Text) : List OptionReport × Getopt :=
  let (reports, first) := Getopt.scan optionTable argv
  (Getopt.start first.words).calls optionTable reports.length

/-- `CollectOptions`. The positional words are read off the vector that the second scan
leaves, from where the first one has found them. -/
def collectOptions (argv : List Text) : CommandData :=
  let (reports, first) := Getopt.scan optionTable argv
  let optionArgc := reports.length
  let optind := first.done.length
  let nonoptionArgc := argv.length - optind
  let (reports, second) := secondScan argv
  let nonoptionArgv := second.words.drop optind
  (nonoptionArgv.take nonoptionArgc).foldl CommandData.collectNonOption
    (reports.foldl CommandData.collectOption
      { defaults with argVSize := nonoptionArgc + optionArgc })

/-! ## One option -/

/-- A report, as the rest of the program is told of it. -/
def result (r : OptionReport) : GetoptResult := ⟨r.opt, r.optarg⟩

/-- The host that a report gives. -/
def hostOf (r : OptionReport) : Option Text :=
  if reverseOptLookup r.opt = .host then some (r.optarg.getD []) else none

/-- The port that a report gives. -/
def portOf (r : OptionReport) : Option Text :=
  if reverseOptLookup r.opt = .port then some (r.optarg.getD []) else none

theorem reverseOptLookup_eq (c : Byte) :
    reverseOptLookup c = .none ∨ (reverseOptLookup c).val = c := by
  have h : ∀ c : Byte, reverseOptLookup c = .none ∨ (reverseOptLookup c).val = c := by
    decide +kernel
  exact h c

/-- Copy a text, if there is one, into an array of `size` bytes. -/
def copyText (size : Nat) (m : Mem) (text : Option Text) : Mem :=
  match text with
  | some s => m.strncpy s (size - 1)
  | none => m

/-- All that an option changes. -/
theorem collectOption_eq (cmd : CommandData) (r : OptionReport) :
    cmd.collectOption r =
      { cmd with
        showHelp := cmd.showHelp || (collectOption (result r)).2
        hostName := copyText maxHostnameSize cmd.hostName (hostOf r)
        portNum := copyText maxPortSize cmd.portNum (portOf r)
        optionCount := cmd.optionCount + 1
        argV := cmd.argV ++ [(collectOption (result r)).1]
        verbosity := cmd.verbosity + if reverseOptLookup r.opt = .verbose then 1 else 0 } := by
  unfold CommandData.collectOption collectOption result hostOf portOf
  dsimp only
  have hval := reverseOptLookup_eq r.opt
  generalize reverseOptLookup r.opt = id at hval ⊢
  by_cases hhelp : id.val ≠ r.opt ∨ id = .help
  · have hid : id = .none ∨ id = .help :=
      hhelp.elim (fun hne => Or.inl (hval.resolve_right hne)) Or.inr
    rw [if_pos hhelp, if_pos hhelp]
    cases hid with
    | inl hid => subst hid; simp [CommandData.store, copyText]
    | inr hid => subst hid; simp [CommandData.store, copyText]
  rw [if_neg hhelp, if_neg hhelp]
  by_cases hverbose : id = .verbose
  · subst hverbose
    simp [CommandData.store, copyText]
  by_cases hhost : id = .host
  · subst hhost
    simp [CommandData.store, copyText]
  by_cases hport : id = .port
  · subst hport
    simp [CommandData.store, copyText]
  simp only [hverbose, hhost, hport, or_self, if_false]
  by_cases harg : id.hasArg = true ∧ r.optarg ≠ none
  · rw [if_pos harg, if_pos harg]
    simp [CommandData.store, copyText]
  · rw [if_neg harg, if_neg harg]
    simp [CommandData.store, copyText]

/-! ## All options -/

section

variable (cmd : CommandData) (rs : List OptionReport)

theorem argV_foldl_collectOption :
    (rs.foldl CommandData.collectOption cmd).argV =
      cmd.argV ++ rs.map fun r => (collectOption (result r)).1 := by
  induction rs generalizing cmd with
  | nil => exact (List.append_nil _).symm
  | cons r rs ih => rw [List.foldl_cons, ih, collectOption_eq, List.map_cons, List.append_assoc,
      List.singleton_append]

theorem showHelp_foldl_collectOption :
    (rs.foldl CommandData.collectOption cmd).showHelp =
      (cmd.showHelp || rs.any fun r => (collectOption (result r)).2) := by
  induction rs generalizing cmd with
  | nil => exact (Bool.or_false _).symm
  | cons r rs ih => rw [List.foldl_cons, ih, collectOption_eq, List.any_cons, Bool.or_assoc]

theorem counts_foldl_collectOption :
    (rs.foldl CommandData.collectOption cmd).optionCount = cmd.optionCount + rs.length ∧
      (rs.foldl CommandData.collectOption cmd).nonOptionCount = cmd.nonOptionCount ∧
      (rs.foldl CommandData.collectOption cmd).argVSize = cmd.argVSize := by
  induction rs generalizing cmd with
  | nil => exact ⟨rfl, rfl, rfl⟩
  | cons r rs ih =>
    obtain ⟨hcount, hnon, hsize⟩ := ih (cmd.collectOption r)
    rw [collectOption_eq] at hcount hnon hsize
    rw [List.foldl_cons, collectOption_eq]
    refine ⟨hcount.trans ?_, hnon, hsize⟩
    rw [List.length_cons, Nat.add_assoc, Nat.add_comm 1]

theorem hostName_foldl_collectOption :
    (rs.foldl CommandData.collectOption cmd).hostName =
      (rs.map hostOf).foldl (copyText maxHostnameSize) cmd.hostName := by
  induction rs generalizing cmd with
  | nil => rfl
  | cons r rs ih => rw [List.foldl_cons, ih, collectOption_eq, List.map_cons, List.foldl_cons]

theorem portNum_foldl_collectOption :
    (rs.foldl CommandData.collectOption cmd).portNum =
      (rs.map portOf).foldl (copyText maxPortSize) cmd.portNum := by
  induction rs generalizing cmd with
  | nil => rfl
  | cons r rs ih => rw [List.foldl_cons, ih, collectOption_eq, List.map_cons, List.foldl_cons]

/-- The positional words only get entries. -/
theorem foldl_collectNonOption (texts : List Text) :
    texts.foldl CommandData.collectNonOption cmd =
      { cmd with
        nonOptionCount := cmd.nonOptionCount + texts.length
        argV := cmd.argV ++ texts.map fun t => ⟨.none, some t⟩ } := by
  induction texts generalizing cmd with
  | nil => simp
  | cons t texts ih =>
    rw [List.foldl_cons, ih]
    simp only [CommandData.collectNonOption, List.length_cons, List.map_cons, List.append_assoc,
      List.singleton_append, Nat.add_assoc, Nat.add_comm 1]

end

/-! ## The two scans -/

theorem val_of_reverseOptLookup {c : Byte} {id : OptionId} (hid : id ≠ .none)
    (h : reverseOptLookup c = id) : c = id.val := by
  rw [← h]
  exact ((reverseOptLookup_eq c).resolve_left (h ▸ hid)).symm

/-- The option characters are ASCII. -/
theorem toNat_opt_lt {r : OptionReport} (h : optionTable.Fits r) : r.opt.toNat < 0x80 := by
  have hall : optstring.all (fun c => c.toNat < 0x80) = true := by decide
  have hshort : ∀ c ∈ optstring, c.toNat < 0x80 :=
    fun c hc => of_decide_eq_true (List.all_eq_true.mp hall c hc)
  have hlong : ∀ id ∈ OptionId.options, id.val.toNat < 0x80 := by decide
  have hval : ∀ o ∈ optionTable.longOptions, o.val.toNat < 0x80 := by
    intro o ho
    obtain ⟨id, hid, rfl⟩ := List.mem_map.mp ho
    exact hlong id hid
  obtain rfl | ⟨hshort' | ⟨o, ho, -, heq⟩, -⟩ | ⟨hshort' | ⟨o, ho, -, heq⟩, -⟩ := h
  · decide
  · exact hshort _ (OptionTable.mem_of_shortHasArg hshort')
  · exact heq ▸ hval o ho
  · exact hshort _ (OptionTable.mem_of_shortHasArg hshort')
  · exact heq ▸ hval o ho

/-- The host and the port take an argument. -/
theorem optarg_ne_none {r : OptionReport} (h : optionTable.Fits r)
    (hdest : reverseOptLookup r.opt = .host ∨ reverseOptLookup r.opt = .port) :
    r.optarg ≠ none := by
  have hopt : r.opt = ch 'H' ∨ r.opt = ch 'P' :=
    hdest.imp (val_of_reverseOptLookup (by decide)) (val_of_reverseOptLookup (by decide))
  have hnone : ∀ c : Byte, c = ch 'H' ∨ c = ch 'P' → ¬optionTable.TakesNone c := by
    unfold OptionTable.TakesNone
    rintro c (rfl | rfl)
    · decide
    · decide
  obtain rfl | ⟨-, harg⟩ | ⟨htakes, -⟩ := h
  · exact absurd hopt (by decide)
  · exact harg
  · exact absurd htakes (hnone _ hopt)

theorem not_help_of_takesArg {c : Byte} (h : optionTable.TakesArg c) :
    reverseOptLookup c ≠ .help := by
  intro hhelp
  obtain rfl := val_of_reverseOptLookup (by decide) hhelp
  have hnot : ¬(optionTable.shortHasArg (ch '?') = some true ∨
      ∃ o ∈ optionTable.longOptions, o.hasArg = true ∧ o.val = ch '?') := by decide
  exact hnot h

/-- What the first scan reports, collected. -/
def asWritten (argv : List Text) : List ArgVEntry × Bool :=
  CmdSend.collectOptions ((Getopt.scan optionTable argv).1.map result)
    (Getopt.scan optionTable argv).2.skipped

/-- The two scans agree, or the last option has its argument only in the second, which is the
first positional word. -/
theorem secondScan_cases (argv : List Text) :
    (((Getopt.scan optionTable argv).2.lacksArg = false ∨
        (Getopt.scan optionTable argv).2.skipped = []) ∧
      ∃ s', Calls optionTable (Getopt.start (Getopt.scan optionTable argv).2.words)
          (Getopt.scan optionTable argv).1 s' ∧
        s'.words = (Getopt.scan optionTable argv).2.words ∧
        secondScan argv = ((Getopt.scan optionTable argv).1, s')) ∨
    (¬((Getopt.scan optionTable argv).2.lacksArg = false ∨
        (Getopt.scan optionTable argv).2.skipped = []) ∧
      ∃ rs₀ opt x xs s', (Getopt.scan optionTable argv).1 = rs₀ ++ [⟨ch '?', none⟩] ∧
        optionTable.TakesArg opt ∧ (Getopt.scan optionTable argv).2.skipped = x :: xs ∧
        Calls optionTable (Getopt.start (Getopt.scan optionTable argv).2.words)
          (rs₀ ++ [⟨opt, some x⟩]) s' ∧
        s'.words = (Getopt.scan optionTable argv).2.words ∧
        secondScan argv = (rs₀ ++ [⟨opt, some x⟩], s')) := by
  by_cases hok : (Getopt.scan optionTable argv).2.lacksArg = false ∨
      (Getopt.scan optionTable argv).2.skipped = []
  · obtain ⟨s', hcalls, hwords⟩ := Getopt.scan_again hok
    exact Or.inl ⟨hok, s', hcalls, hwords, hcalls.calls_eq⟩
  · obtain ⟨hlacks, hskipped⟩ := not_or.mp hok
    obtain ⟨x, xs, hx⟩ := List.exists_cons_of_ne_nil hskipped
    obtain ⟨rs₀, opt, s', hreports, htakes, hcalls, hwords⟩ :=
      Getopt.scan_again_of_lacksArg (eq_true_of_ne_false hlacks) hx
    refine Or.inr ⟨hok, rs₀, opt, x, xs, s', hreports, htakes, hx, hcalls, hwords, ?_⟩
    have heq := hcalls.calls_eq
    have hlen : (Getopt.scan optionTable argv).1.length =
        (rs₀ ++ [OptionReport.mk opt (some x)]).length := by
      rw [hreports, List.length_append, List.length_append]
      rfl
    rw [← hlen] at heq
    exact heq

/-- What the second scan leaves of the words, and how many options it reports. -/
theorem secondScan_spec (argv : List Text) :
    (∃ s', Calls optionTable (Getopt.start (Getopt.scan optionTable argv).2.words)
      (secondScan argv).1 s') ∧
    (secondScan argv).1.length = (Getopt.scan optionTable argv).1.length ∧
    (secondScan argv).2.words = (Getopt.scan optionTable argv).2.words := by
  cases secondScan_cases argv with
  | inl hsame =>
    obtain ⟨-, s', hcalls, hwords, hsecond⟩ := hsame
    rw [hsecond]
    exact ⟨⟨s', hcalls⟩, rfl, hwords⟩
  | inr hother =>
    obtain ⟨-, rs₀, opt, x, xs, s', hreports, -, -, hcalls, hwords, hsecond⟩ := hother
    rw [hsecond, hreports]
    exact ⟨⟨s', hcalls⟩, by simp, hwords⟩

/-- The positional words are where the first scan has put them. -/
theorem nonoptions_eq (argv : List Text) :
    argv.length - (Getopt.scan optionTable argv).2.done.length =
        (Getopt.scan optionTable argv).2.skipped.length ∧
      (((secondScan argv).2.words.drop (Getopt.scan optionTable argv).2.done.length).take
        (Getopt.scan optionTable argv).2.skipped.length) =
          (Getopt.scan optionTable argv).2.skipped := by
  obtain ⟨-, -, hwords⟩ := secondScan_spec argv
  obtain ⟨s₁, -, hend⟩ := Getopt.scan_spec optionTable argv
  obtain ⟨-, -, hrest, -⟩ := Getopt.end_spec hend
  have hlen := (Getopt.perm_words_scan optionTable argv).length_eq
  have hall : (Getopt.scan optionTable argv).2.words =
      (Getopt.scan optionTable argv).2.done ++ (Getopt.scan optionTable argv).2.skipped := by
    rw [Getopt.words, hrest, List.append_nil]
  rw [hwords, hall]
  rw [hall, List.length_append] at hlen
  refine ⟨by omega, ?_⟩
  rw [List.drop_left, List.take_length]

theorem collectOptions_eq (argv : List Text) :
    collectOptions argv =
      let cmd := (secondScan argv).1.foldl CommandData.collectOption
        { defaults with
          argVSize := (Getopt.scan optionTable argv).2.skipped.length +
            (Getopt.scan optionTable argv).1.length }
      { cmd with
        nonOptionCount := cmd.nonOptionCount + (Getopt.scan optionTable argv).2.skipped.length
        argV := cmd.argV ++
          (Getopt.scan optionTable argv).2.skipped.map fun t => ⟨.none, some t⟩ } := by
  obtain ⟨hcount, htexts⟩ := nonoptions_eq argv
  unfold collectOptions
  simp only
  rw [hcount, htexts, foldl_collectNonOption]

/-- The collected options fit what has been allocated and looked up for them: `ArgV` is
filled exactly, the option characters are indices of `reverse_opt_lookup`, and the host and
the port are never null. -/
structure Filled (argv : List Text) : Prop where
  optionCount : (collectOptions argv).optionCount = (Getopt.scan optionTable argv).1.length
  counts : (collectOptions argv).optionCount + (collectOptions argv).nonOptionCount =
    (collectOptions argv).argVSize
  argV : (collectOptions argv).argV.length = (collectOptions argv).argVSize
  index : ∀ r ∈ (secondScan argv).1, r.opt.toNat < 0x80
  destination : ∀ r ∈ (secondScan argv).1,
    reverseOptLookup r.opt = .host ∨ reverseOptLookup r.opt = .port → r.optarg ≠ none

theorem filled (argv : List Text) : Filled argv := by
  obtain ⟨⟨s', hcalls⟩, hlen, -⟩ := secondScan_spec argv
  obtain ⟨hcount, hnon, hsize⟩ := counts_foldl_collectOption
    { defaults with
      argVSize := (Getopt.scan optionTable argv).2.skipped.length +
        (Getopt.scan optionTable argv).1.length } (secondScan argv).1
  refine ⟨?_, ?_, ?_, fun r hr => toNat_opt_lt (hcalls.fits r hr),
    fun r hr => optarg_ne_none (hcalls.fits r hr)⟩
  · rw [collectOptions_eq]
    dsimp only
    rw [hcount, hlen]
    exact Nat.zero_add _
  · rw [collectOptions_eq]
    dsimp only
    rw [hcount, hnon, hsize, hlen]
    dsimp only [defaults]
    omega
  · rw [collectOptions_eq]
    dsimp only
    rw [argV_foldl_collectOption, hsize, List.length_append, List.length_append, List.length_map,
      List.length_map, hlen]
    dsimp only [defaults, List.length_nil]
    omega

theorem optionId_collectOption (r : GetoptResult) :
    (CmdSend.collectOption r).1.optionId = reverseOptLookup r.opt := by
  unfold CmdSend.collectOption
  simp only
  repeat' split
  all_goals rfl

theorem collected_eq (argv : List Text) :
    ((collectOptions argv).argV, (collectOptions argv).showHelp) =
      CmdSend.collectOptions ((secondScan argv).1.map result)
        (Getopt.scan optionTable argv).2.skipped := by
  rw [collectOptions_eq]
  simp only [argV_foldl_collectOption, showHelp_foldl_collectOption, CmdSend.collectOptions,
    defaults, List.nil_append, Bool.false_or, List.map_map, List.any_map]
  rfl

theorem optarg_of_collectOption {r : GetoptResult} {a : ArgV}
    (h : (CmdSend.collectOption r).1.argV? = some a) : r.optarg = some a.text := by
  unfold CmdSend.collectOption at h
  dsimp only at h
  split at h
  · cases h
  · split at h
    · cases h
    · split at h
      · obtain ⟨text, htext, rfl⟩ := Option.map_eq_some_iff.mp h
        exact htext
      · cases h

/-- The texts that reach the encoders have no other characters than the command line. -/
theorem forall_text_collectOptions {P : Byte → Prop} {argv : List Text}
    (h : ∀ w ∈ argv, ∀ c ∈ w, P c) :
    ∀ a ∈ parsedArgs (collectOptions argv).argV, ∀ c ∈ a.text, P c := by
  obtain ⟨⟨s', hcalls⟩, -, -⟩ := secondScan_spec argv
  have hwords : ∀ w ∈ (Getopt.scan optionTable argv).2.words, ∀ c ∈ w, P c :=
    fun w hw => h w ((Getopt.perm_words_scan optionTable argv).subset hw)
  have hreports := (Getopt.reads_start hwords).calls hcalls
  have hargV := congrArg Prod.fst (collected_eq argv)
  dsimp only at hargV
  intro a ha
  rw [hargV] at ha
  obtain ⟨e, he, hea⟩ := List.mem_filterMap.mp ha
  cases List.mem_append.mp he with
  | inl hoption =>
    rw [List.map_map] at hoption
    obtain ⟨g, hg, rfl⟩ := List.mem_map.mp hoption
    obtain ⟨r, hr, rfl⟩ := List.mem_map.mp hg
    exact hreports r hr a.text (optarg_of_collectOption hea)
  | inr hpositional =>
    obtain ⟨text, htext, rfl⟩ := List.mem_map.mp hpositional
    obtain rfl := Option.some.inj hea
    exact hwords text (List.mem_append_left _ (List.mem_append_right _ htext))

/-- The option at the end takes the first positional word as its argument, and the words stay
positional words. -/
def TakesWord (argv : List Text) : Prop :=
  ∃ rs₀ opt word words, (Getopt.scan optionTable argv).1 = rs₀ ++ [⟨ch '?', none⟩] ∧
    optionTable.TakesArg opt ∧ (Getopt.scan optionTable argv).2.skipped = word :: words ∧
    ((collectOptions argv).argV, (collectOptions argv).showHelp) =
      CmdSend.collectOptions ((rs₀ ++ [⟨opt, some word⟩]).map result) (word :: words)

/-- `CollectOptions` collects what is written on the command line, unless an option at its
end lacks its argument and there are positional words: the second scan then takes the first
of them as the argument. -/
theorem collects_iff (argv : List Text) :
    Filled argv ∧
      (((collectOptions argv).argV, (collectOptions argv).showHelp) = asWritten argv ↔
        ((Getopt.scan optionTable argv).2.lacksArg = false ∨
          (Getopt.scan optionTable argv).2.skipped = [])) ∧
      (¬((Getopt.scan optionTable argv).2.lacksArg = false ∨
          (Getopt.scan optionTable argv).2.skipped = []) → TakesWord argv) := by
  refine ⟨filled argv, ?_⟩
  unfold TakesWord
  rw [collected_eq, asWritten]
  cases secondScan_cases argv with
  | inl hsame =>
    obtain ⟨hok, s', -, -, hsecond⟩ := hsame
    rw [hsecond]
    exact ⟨iff_of_true rfl hok, fun hnot => absurd hok hnot⟩
  | inr hother =>
    obtain ⟨hnot, rs₀, opt, x, xs, s', hreports, htakes, hskipped, -, -, hsecond⟩ := hother
    rw [hsecond, hskipped]
    refine ⟨iff_of_false (fun heq => ?_) (hskipped ▸ hnot),
      fun _ => ⟨rs₀, opt, x, xs, hreports, htakes, rfl, rfl⟩⟩
    rw [hreports] at heq
    simp only [CmdSend.collectOptions, List.map_append, List.map_cons, List.map_nil,
      Prod.mk.injEq, List.append_cancel_right_eq, List.append_cancel_left_eq, List.cons.injEq,
      and_true] at heq
    have hid := congrArg ArgVEntry.optionId heq.1
    rw [optionId_collectOption, optionId_collectOption] at hid
    exact not_help_of_takesArg htakes (hid.trans (by decide))

/-- The option takes the positional word, which stays one, and help is no longer asked for. -/
example : ((collectOptions [str "foo", str "--host"]).argV,
    (collectOptions [str "foo", str "--host"]).showHelp) =
      ([⟨.host, none⟩, ⟨.none, some (str "foo")⟩], false) := by decide +kernel

/-! ## The destination -/

/-- A text as an array of `size` bytes holds it. -/
def cut (size : Nat) (s : Text) : Text := (s.take (size - 1)).takeWhile (· ≠ 0)

/-- The array has its terminator in its last byte at least. -/
def Terminated (size : Nat) (m : Mem) : Prop := m (size - 1) = 0

theorem terminated_zero (size : Nat) : Terminated size fun _ => 0 := rfl

theorem terminated_strncpy {size : Nat} {m : Mem} (h : Terminated size m) (s : Text) :
    Terminated size (m.strncpy s (size - 1)) :=
  (Mem.strncpy_beyond m s (Nat.le_refl _)).trans h

theorem terminated_copyText {size : Nat} {m : Mem} (h : Terminated size m) (text : Option Text) :
    Terminated size (copyText size m text) := by
  cases text with
  | none => exact h
  | some s => exact terminated_strncpy h s

theorem cstr_copyText {size : Nat} {m : Mem} (hsize : 0 < size) (h : Terminated size m)
    (text : Option Text) :
    (copyText size m text).cstr size = (text.map (cut size)).getD (m.cstr size) := by
  cases text with
  | none => rfl
  | some s =>
    have hcstr := Mem.cstr_strncpy h s
    rwa [Nat.sub_add_cancel hsize] at hcstr

/-- Of several texts that are copied into an array, the last one stays. -/
theorem cstr_foldl_copyText {size : Nat} {m : Mem} (hsize : 0 < size) (h : Terminated size m)
    (texts : List (Option Text)) :
    (texts.foldl (copyText size) m).cstr size =
      (texts.reverse.findSome? (Option.map (cut size))).getD (m.cstr size) :=
  foldl_last (I := Terminated size) (g := fun m => m.cstr size)
    (fun _ text hm => ⟨terminated_copyText hm text, cstr_copyText hsize hm text⟩) texts h

/-- The host and the port that a packet is sent to. -/
def CommandData.destination (cmd : CommandData) : Text × Text :=
  (cmd.hostName.cstr maxHostnameSize, cmd.portNum.cstr maxPortSize)

/-- The last host and the last port of some options. -/
def destinationOf (rs : List OptionReport) : Text × Text :=
  (((rs.reverse.findSome? hostOf).map (cut maxHostnameSize)).getD (str "127.0.0.1"),
    ((rs.reverse.findSome? portOf).map (cut maxPortSize)).getD (str "1234"))

theorem terminated_defaults :
    Terminated maxHostnameSize defaults.hostName ∧ Terminated maxPortSize defaults.portNum := by
  dsimp only [defaults]
  exact ⟨terminated_strncpy (terminated_zero maxHostnameSize) _,
    terminated_strncpy (terminated_zero maxPortSize) _⟩

theorem destination_collectOptions (argv : List Text) :
    (collectOptions argv).destination = destinationOf (secondScan argv).1 := by
  have hhost : defaults.hostName.cstr maxHostnameSize = str "127.0.0.1" := by decide +kernel
  have hport : defaults.portNum.cstr maxPortSize = str "1234" := by decide +kernel
  have hfind : ∀ (f : OptionReport → Option Text) (size : Nat),
      ((secondScan argv).1.map f).reverse.findSome? (Option.map (cut size)) =
        ((secondScan argv).1.reverse.findSome? f).map (cut size) := by
    intro f size
    rw [← List.map_reverse, List.findSome?_map, List.map_findSome?]
  rw [collectOptions_eq]
  unfold CommandData.destination destinationOf
  dsimp only
  rw [hostName_foldl_collectOption, portNum_foldl_collectOption]
  dsimp only
  rw [cstr_foldl_copyText (by decide) terminated_defaults.1,
    cstr_foldl_copyText (by decide) terminated_defaults.2, hfind, hfind, hhost, hport]

/-! ## Command lines -/

/-- What the program is told by a command line. -/
structure Told (argv : List Text) (rs : List OptionReport) (positional : List Text) : Prop where
  entries : ((collectOptions argv).argV, (collectOptions argv).showHelp) =
    CmdSend.collectOptions (rs.map result) positional
  destination : (collectOptions argv).destination = destinationOf rs

/-- The program is told the options and the positional words of a command line, each in
their order, however they are spelled and wherever the positional words stand. -/
theorem told_of_commandLine {rs : List OptionReport} {positional line : List Text}
    (h : CommandLine optionTable rs positional line) : Told line rs positional := by
  obtain ⟨hreports, hskipped, hlacks⟩ := Getopt.scan_of_commandLine (by decide) h
  have hsecond : (secondScan line).1 = rs := by
    cases secondScan_cases line with
    | inl hsame =>
      obtain ⟨-, s', -, -, hsecond⟩ := hsame
      rw [hsecond, hreports]
    | inr hother => exact absurd (Or.inl hlacks) hother.1
  refine ⟨?_, ?_⟩
  · rw [collected_eq, hsecond, hskipped]
  · rw [destination_collectOptions, hsecond]

/-- The long form of an option with an argument. -/
def longForm (option : OptionId × Text) : Text :=
  str "--" ++ (option.1.name ++ ch '=' :: option.2)

/-- Any options with arguments can be written, in any order, in front of any words. -/
theorem commandLine_longForm {options : List (OptionId × Text)}
    (h : ∀ o ∈ options, o.1.hasArg = true) (positional : List Text) :
    CommandLine optionTable (options.map fun o => ⟨o.1.val, some o.2⟩) positional
      (options.map longForm ++ str "--" :: positional) := by
  have hname : ∀ id : OptionId, id.hasArg = true →
      optionTable.findLong id.name = some id.longInfo ∧ ch '=' ∉ id.name := by
    have hall : ∀ id ∈ OptionId.options, id.hasArg = true →
        optionTable.findLong id.name = some id.longInfo ∧ ch '=' ∉ id.name := by decide +kernel
    have hmem : ∀ id : OptionId, id.hasArg = true → id ∈ OptionId.options := by
      intro id
      cases id <;> decide
    exact fun id hid => hall id (hmem id hid) hid
  induction options with
  | nil => exact .dashes positional
  | cons o options ih =>
    obtain ⟨ho, hrest⟩ := List.forall_mem_cons.mp h
    obtain ⟨hfind, hequals⟩ := hname o.1 ho
    exact .option (.longJoined hfind ho hequals) (ih hrest)

/-- The options of a reset, as the usage text has them. -/
def resetOptions : List OptionReport :=
  [⟨ch 'E', some (str "LE")⟩, ⟨ch 'C', some (str "2")⟩, ⟨ch 'A', some (str "6")⟩,
    ⟨ch 'n', some (str "2")⟩]

theorem commandLine_reset :
    CommandLine optionTable resetOptions [str "x"]
      [str "-ELE", str "-C2", str "x", str "-A6", str "-n", str "2"] :=
  .option (@Spells.shortJoined _ _ [] _ (by simp) (by decide) (by decide))
    (.option (@Spells.shortJoined _ _ [] _ (by simp) (by decide) (by decide))
      (.positional (by decide)
        (.option (@Spells.shortJoined _ _ [] _ (by simp) (by decide) (by decide))
          (.option (@Spells.shortSeparate _ _ [] _ (by simp) (by decide)) .nil))))

/-- The same with long options, one of them abbreviated. -/
theorem commandLine_reset_long :
    CommandLine optionTable resetOptions [str "x"]
      [str "--endian=LE", str "--cmdcode", str "2", str "--pkta=6", str "-n2", str "--", str "x"] :=
  .option (@Spells.longJoined _ (str "endian") (str "LE") OptionId.endian.longInfo
      (by decide) rfl (by decide))
    (.option (@Spells.longSeparate _ (str "cmdcode") (str "2") OptionId.cmdcode.longInfo
        (by decide) rfl (by decide) (by decide))
      (.option (@Spells.longJoined _ (str "pkta") (str "6") OptionId.pktapid.longInfo
          (by decide) rfl (by decide))
        (.option (@Spells.shortJoined _ _ [] _ (by simp) (by decide) (by decide))
          (.dashes [str "x"]))))

end Collect

end CmdSend
