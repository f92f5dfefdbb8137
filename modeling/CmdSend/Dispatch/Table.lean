-- SUMMARY: The parser table under the option loop: what options do to one entry, the counter of good parsers, and the early stop.
import CmdSend.Dispatch.Model
import CmdSend.Lib.Run

/-!
# The parser table

An option acts on each entry of the table by itself (`OptParser.feed`), and an entry
follows its encoder until that refuses an option (`OptParser.feedAll_of_some`,
`OptParser.feedAll_of_none`). The counter `GoodParsers` follows the table, which is
why the early stop of the loop skips nothing but options that no entry would see.
-/

namespace CmdSend.Dispatch

open CLib

/-! ## An encoder on its own -/

namespace ParserApi

variable (api : ParserApi)

/-- Offer an option. A refusal ends the run of the encoder. -/
def accept (obj : api.Obj) (argV : ArgV) : Option api.Obj :=
  let r := api.parseOption obj argV
  if r.1 = .invalid then none else some r.2

theorem ne_invalid_of_accept {api : ParserApi} {obj : api.Obj} {argV : ArgV}
    (h : (api.accept obj argV).isSome = true) : (api.parseOption obj argV).1 ≠ .invalid := by
  intro hinvalid
  simp [accept, hinvalid] at h

/-- The calls of an encoder that is run on its own, the one that ends its run
included. -/
def answers (obj : api.Obj) (opts : List ArgV) : List Call :=
  (taken api.accept obj opts).map fun c => .parseOption c.2 (api.parseOption c.1 c.2).1

end ParserApi

/-! ## One entry of the table -/

namespace OptParser

variable {api : ParserApi}

/-- An entry that is OK. -/
def good (obj : api.Obj) (calls : List Call) : OptParser api :=
  ⟨some obj, true, calls, fun _ => rfl⟩

/-- An entry is not OK, or has an object. -/
theorem eq_good_or (p : OptParser api) : p.isOK = false ∨ ∃ obj calls, p = good obj calls := by
  obtain ⟨obj, isOK, calls, hasObj⟩ := p
  cases isOK with
  | false => exact Or.inl rfl
  | true =>
    obtain ⟨obj, rfl⟩ := Option.isSome_iff_exists.mp (hasObj rfl)
    exact Or.inr ⟨obj, calls, rfl⟩

theorem instantiate_of_some {obj : api.Obj} (h : api.instantiate = some obj) :
    instantiate api = good obj [] := by
  simp [instantiate, good, h]

theorem isOK_instantiate_of_none (h : api.instantiate = none) : (instantiate api).isOK = false := by
  simp [instantiate, h]

/-- What an option does to an entry. -/
def feed (p : OptParser api) (argV : ArgV) : OptParser api := (doParseOption argV api p 0).1

/-- What an entry contributes to `GoodParsers`. -/
def goodCount (p : OptParser api) : Int := if p.isOK = true then 1 else 0

theorem doParseOption_of_not_ok {p : OptParser api} (h : p.isOK = false) (argV : ArgV) (n : Int) :
    doParseOption argV api p n = (p, n) :=
  dif_neg (by simp [h])

theorem doParseOption_of_some {obj obj' : api.Obj} {argV : ArgV}
    (h : api.accept obj argV = some obj') (calls : List Call) (n : Int) :
    doParseOption argV api (good obj calls) n =
      (good obj' (calls ++ [.parseOption argV (api.parseOption obj argV).1]), n) := by
  unfold ParserApi.accept at h
  by_cases hinvalid : (api.parseOption obj argV).1 = .invalid
  · rw [if_pos hinvalid] at h
    cases h
  · rw [if_neg hinvalid] at h
    obtain rfl := Option.some.inj h
    simp [doParseOption, good, hinvalid]

theorem doParseOption_of_none {obj : api.Obj} {argV : ArgV} (h : api.accept obj argV = none)
    (calls : List Call) (n : Int) :
    ∃ hasObj, doParseOption argV api (good obj calls) n =
      (⟨some (api.parseOption obj argV).2, false, calls ++ [.parseOption argV .invalid], hasObj⟩,
        n - 1) := by
  unfold ParserApi.accept at h
  by_cases hinvalid : (api.parseOption obj argV).1 = .invalid
  · refine ⟨fun h => absurd h Bool.false_ne_true, ?_⟩
    simp [doParseOption, good, hinvalid]
  · rw [if_neg hinvalid] at h
    cases h

/-- An option changes the counter as it changes the entry. -/
theorem doParseOption_eq (p : OptParser api) (argV : ArgV) (n : Int) :
    doParseOption argV api p n = (p.feed argV, n - p.goodCount + (p.feed argV).goodCount) := by
  unfold feed
  rcases p.eq_good_or with hbad | ⟨obj, calls, rfl⟩
  · rw [doParseOption_of_not_ok hbad, doParseOption_of_not_ok hbad]
    simp
  · cases hstep : api.accept obj argV with
    | some obj' =>
      rw [doParseOption_of_some hstep, doParseOption_of_some hstep]
      simp [goodCount, good]
    | none =>
      obtain ⟨_, hfeed⟩ := doParseOption_of_none hstep calls n
      obtain ⟨_, hfeed'⟩ := doParseOption_of_none hstep calls 0
      rw [hfeed, hfeed']
      simp [goodCount, good]

theorem feed_of_not_ok {p : OptParser api} (h : p.isOK = false) (argV : ArgV) :
    p.feed argV = p :=
  congrArg Prod.fst (doParseOption_of_not_ok h argV 0)

/-- What a list of options does to an entry. -/
def feedAll (p : OptParser api) (opts : List ArgV) : OptParser api := opts.foldl feed p

theorem feedAll_of_not_ok {p : OptParser api} (h : p.isOK = false) (opts : List ArgV) :
    p.feedAll opts = p := by
  induction opts with
  | nil => rfl
  | cons a opts ih =>
    unfold feedAll at ih ⊢
    rw [List.foldl_cons, feed_of_not_ok h, ih]

/-- An entry goes the way of its encoder as long as that refuses nothing. -/
theorem feedAll_of_some {opts : List ArgV} {obj obj' : api.Obj}
    (h : opts.foldlM api.accept obj = some obj') (calls : List Call) :
    (good obj calls).feedAll opts = good obj' (calls ++ api.answers obj opts) := by
  induction opts generalizing obj calls with
  | nil =>
    obtain rfl := Option.some.inj h
    simp [feedAll, ParserApi.answers]
  | cons a opts ih =>
    obtain ⟨obj₁, hstep, hrest⟩ := foldlM_cons_some.mp h
    have hfeed : (good obj calls).feed a =
        good obj₁ (calls ++ [.parseOption a (api.parseOption obj a).1]) :=
      congrArg Prod.fst (doParseOption_of_some hstep calls 0)
    unfold feedAll at ih ⊢
    rw [List.foldl_cons, hfeed, ih hrest]
    simp [ParserApi.answers, taken_cons_some hstep]

/-- After a refusal the entry stays as it is. -/
theorem feedAll_of_none {opts : List ArgV} {obj : api.Obj}
    (h : opts.foldlM api.accept obj = none) (calls : List Call) :
    ((good obj calls).feedAll opts).isOK = false := by
  induction opts generalizing obj calls with
  | nil => cases h
  | cons a opts ih =>
    cases hstep : api.accept obj a with
    | some obj₁ =>
      have hfeed := congrArg Prod.fst (doParseOption_of_some hstep calls 0)
      rw [List.foldlM_cons, hstep] at h
      unfold feedAll at ih ⊢
      rw [List.foldl_cons]
      unfold feed
      rw [hfeed]
      exact ih h _
    | none =>
      obtain ⟨_, hfeed⟩ := doParseOption_of_none hstep calls 0
      have hbad : ((good obj calls).feed a).isOK = false := congrArg (·.1.isOK) hfeed
      have hrest := feedAll_of_not_ok hbad opts
      unfold feedAll at hrest ⊢
      rw [List.foldl_cons, hrest, hbad]

/-- An entry that is OK after the options is where its encoder ends on its own. -/
theorem feedAll_of_ok {opts : List ArgV} (h : ((instantiate api).feedAll opts).isOK = true) :
    ∃ obj obj', api.instantiate = some obj ∧ opts.foldlM api.accept obj = some obj' ∧
      (instantiate api).feedAll opts = good obj' (api.answers obj opts) := by
  cases hobj : api.instantiate with
  | none =>
    have hbad := isOK_instantiate_of_none hobj
    rw [feedAll_of_not_ok hbad, hbad] at h
    cases h
  | some obj =>
    rw [instantiate_of_some hobj] at h ⊢
    cases hrun : opts.foldlM api.accept obj with
    | none =>
      rw [feedAll_of_none hrun] at h
      cases h
    | some obj' => exact ⟨obj, obj', rfl, hrun, feedAll_of_some hrun []⟩

end OptParser

/-! ## The table -/

/-- The number of entries that are OK. -/
def goodCount (parser : List Parser) : Nat := parser.countP fun p => p.parser.isOK

/-- What an option does to an entry of the table. -/
def Parser.feed (p : Parser) (argV : ArgV) : Parser := ⟨p.api, p.parser.feed argV⟩

def Parser.feedAll (p : Parser) (opts : List ArgV) : Parser := ⟨p.api, p.parser.feedAll opts⟩

theorem goodCount_cons (p : Parser) (ps : List Parser) :
    (goodCount (p :: ps) : Int) = p.parser.goodCount + goodCount ps := by
  unfold goodCount OptParser.goodCount
  rw [List.countP_cons]
  split <;> omega

/-- One option acts on each entry by itself, and the counter follows. -/
theorem foreachParser_doParseOption (argV : ArgV) (ps : List Parser) (n : Int) :
    foreachParser (doParseOption argV) ps n =
      (ps.map (·.feed argV), n - goodCount ps + goodCount (ps.map (·.feed argV))) := by
  induction ps generalizing n with
  | nil => simp [foreachParser, goodCount]
  | cons p ps ih =>
    unfold foreachParser
    dsimp only
    rw [OptParser.doParseOption_eq, ih, List.map_cons, goodCount_cons, goodCount_cons]
    refine Prod.ext rfl ?_
    dsimp only [Parser.feed]
    omega

namespace CommandData

/-- `GoodParsers` is the number of the entries that are OK. -/
def Counted (cmd : CommandData) : Prop := cmd.goodParsers = goodCount cmd.parser

theorem parser_parseOption (cmd : CommandData) (argV : ArgV) :
    (cmd.parseOption argV).parser = cmd.parser.map (·.feed argV) := by
  unfold parseOption
  rw [foreachParser_doParseOption]

theorem counted_parseOption {cmd : CommandData} (h : cmd.Counted) (argV : ArgV) :
    (cmd.parseOption argV).Counted := by
  unfold Counted parseOption at *
  rw [foreachParser_doParseOption, h]
  simp

theorem counted_parseOptions {cmd : CommandData} (h : cmd.Counted) (entries : List ArgVEntry) :
    (cmd.parseOptions entries).Counted := by
  induction entries generalizing cmd with
  | nil => exact h
  | cons e entries ih =>
    unfold parseOptions
    split
    · cases e.argV? with
      | some argV => exact ih (counted_parseOption h argV)
      | none => exact ih h
    · exact h

/-- The option loop leaves the output alone. -/
theorem output_parseOptions (cmd : CommandData) (entries : List ArgVEntry) :
    (cmd.parseOptions entries).contentSize = cmd.contentSize ∧
      (cmd.parseOptions entries).netBuf = cmd.netBuf := by
  induction entries generalizing cmd with
  | nil => exact ⟨rfl, rfl⟩
  | cons e entries ih =>
    unfold parseOptions
    split
    · cases e.argV? with
      | some argV => exact ih (cmd.parseOption argV)
      | none => exact ih cmd
    · exact ⟨rfl, rfl⟩

/-- When no entry is OK, no option changes the table any more. -/
theorem map_feedAll_of_goodCount {ps : List Parser} (h : goodCount ps = 0) (opts : List ArgV) :
    ps.map (·.feedAll opts) = ps := by
  have hbad : ∀ p ∈ ps, p.parser.isOK = false := by
    intro p hp
    simpa using List.countP_eq_zero.mp h p hp
  refine (List.map_congr_left fun p hp => ?_).trans (List.map_id ps)
  unfold Parser.feedAll
  rw [OptParser.feedAll_of_not_ok (hbad p hp)]
  rfl

/-- The loop of `main`: with its early stop, the entries still end where each ends by
itself. -/
theorem parser_parseOptions {cmd : CommandData} (h : cmd.Counted) (entries : List ArgVEntry) :
    (cmd.parseOptions entries).parser = cmd.parser.map (·.feedAll (parsedArgs entries)) := by
  induction entries generalizing cmd with
  | nil => exact (List.map_id' _).symm
  | cons e entries ih =>
    unfold parseOptions
    split
    · cases harg : e.argV? with
      | some argV =>
        have hargs : parsedArgs (e :: entries) = argV :: parsedArgs entries :=
          List.filterMap_cons_some harg
        rw [ih (counted_parseOption h argV), parser_parseOption, List.map_map, hargs]
        rfl
      | none =>
        have hargs : parsedArgs (e :: entries) = parsedArgs entries :=
          List.filterMap_cons_none harg
        rw [ih h, hargs]
    · -- the early stop: no entry is OK, and the rest of the options changes none
      rename_i hstop
      refine (map_feedAll_of_goodCount ?_ _).symm
      unfold Counted at h
      omega

end CommandData

theorem counted_instantiateParsers (apis : List ParserApi) : (instantiateParsers apis).Counted := by
  have hcount : ∀ (apis : List ParserApi) (n : Int),
      apis.foldl (fun n api => if api.instantiate.isSome then n + 1 else n) n =
        n + goodCount (apis.map fun api => ⟨api, .instantiate api⟩) := by
    intro apis
    induction apis with
    | nil => simp [goodCount]
    | cons api apis ih =>
      intro n
      have hone : (OptParser.instantiate api).goodCount =
          if api.instantiate.isSome = true then 1 else 0 := rfl
      rw [List.foldl_cons, ih, List.map_cons, goodCount_cons, hone]
      cases api.instantiate.isSome with
      | true => simp only [if_true, Int.add_assoc]
      | false => simp
  unfold CommandData.Counted instantiateParsers
  dsimp only
  rw [hcount, Int.zero_add]

end CmdSend.Dispatch
