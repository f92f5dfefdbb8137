-- SUMMARY: The options that the dispatcher offers to its encoders: what each encoder gets on its own, and when an offer is the end of the program.
import CmdSend.Dispatch.Reference
import CmdSend.PassThru.Draft

/-!
# The offers

The dispatcher offers an option to all encoders side by side, and each of them gets what it
gets when it is run on its own. So the program dies exactly when one of its encoders does on
its own, and what is logged while the options are parsed comes from the encoders alone.
-/

namespace CmdSend.Dispatch

open CLib

/-! ## Encoders on their own -/

namespace ParserApi

variable (api : ParserApi)

/-- The object of an encoder that has accepted some options. -/
def after (opts : List ArgV) : Option api.Obj :=
  api.instantiate.bind fun obj => opts.foldlM api.accept obj

/-- What an encoder is offered at an option, if it has accepted the options before. -/
def offer (before : List ArgV) (a : ArgV) : Option Offer :=
  (api.after before).map fun obj => ⟨api, obj, a⟩

/-- The encoder is the end of the program when it is run on its own. -/
def Dies (opts : List ArgV) : Prop :=
  api.instantiateReturns = false ∨ ∃ obj, api.instantiate = some obj ∧
    ∃ c ∈ taken api.accept obj opts, api.parseOptionReturns c.1 c.2 = false

end ParserApi

/-- The offers to some encoders that are run on their own, sorted by options. -/
def offersAlone (apis : List ParserApi) : List ArgV → List ArgV → List Offer
  | _, [] => []
  | before, a :: opts =>
    apis.filterMap (·.offer before a) ++ offersAlone apis (before ++ [a]) opts

section

variable {api : ParserApi}

theorem ParserApi.after_snoc {before : List ArgV} {a : ArgV} {obj : api.Obj} :
    api.after (before ++ [a]) = some obj ↔
      ∃ obj₁, api.after before = some obj₁ ∧ api.accept obj₁ a = some obj := by
  unfold after
  cases api.instantiate with
  | none => simp
  | some obj₀ =>
    rw [Option.bind_some, Option.bind_some, foldlM_append_some]
    simp

/-- What an encoder is offered on its own are the calls of its run. -/
theorem mem_offersAlone_iff {apis : List ParserApi} {before opts : List ArgV} {o : Offer} :
    o ∈ offersAlone apis before opts ↔ ∃ api ∈ apis, ∃ obj, api.after before = some obj ∧
      ∃ c ∈ taken api.accept obj opts, o = ⟨api, c.1, c.2⟩ := by
  induction opts generalizing before with
  | nil => simp [offersAlone]
  | cons a opts ih =>
    unfold offersAlone
    rw [List.mem_append, List.mem_filterMap, ih]
    constructor
    · rintro (⟨api, hmem, hoffer⟩ | ⟨api, hmem, obj, hobj, c, hc, rfl⟩)
      · obtain ⟨obj, hobj, rfl⟩ := Option.map_eq_some_iff.mp hoffer
        exact ⟨api, hmem, obj, hobj, (obj, a), List.mem_cons_self, rfl⟩
      · obtain ⟨obj₁, hobj₁, hacc⟩ := ParserApi.after_snoc.mp hobj
        exact ⟨api, hmem, obj₁, hobj₁, c, mem_taken_cons_iff.mpr (.inr ⟨obj, hacc, hc⟩), rfl⟩
    · rintro ⟨api, hmem, obj, hobj, c, hc, rfl⟩
      -- the call is that for `a`, or a later one, for which `a` had to be accepted
      obtain rfl | ⟨obj', hacc, hc⟩ := mem_taken_cons_iff.mp hc
      · exact .inl ⟨api, hmem, Option.map_eq_some_iff.mpr ⟨obj, hobj, rfl⟩⟩
      · exact .inr ⟨api, hmem, obj', ParserApi.after_snoc.mpr ⟨obj, hobj, hacc⟩, c, hc, rfl⟩

/-! ## The table -/

/-- An entry has the object of its encoder, or is not OK. -/
theorem OptParser.feedAll_instantiate (opts : List ArgV) :
    (∃ obj calls, api.after opts = some obj ∧
      (instantiate api).feedAll opts = good obj calls) ∨
    (api.after opts = none ∧ ((instantiate api).feedAll opts).isOK = false) := by
  unfold ParserApi.after
  cases hobj : api.instantiate with
  | none =>
    have hbad := isOK_instantiate_of_none hobj
    exact .inr ⟨rfl, by rw [feedAll_of_not_ok hbad, hbad]⟩
  | some obj =>
    rw [instantiate_of_some hobj, Option.bind_some]
    cases hrun : opts.foldlM api.accept obj with
    | none => exact .inr ⟨rfl, feedAll_of_none hrun []⟩
    | some obj' => exact .inl ⟨obj', _, rfl, feedAll_of_some hrun []⟩

end

section

variable {apis : List ParserApi} {before : List ArgV}

theorem offersOf_parsedTable (apis : List ParserApi) (before : List ArgV) (a : ArgV) :
    offersOf a (parsedTable apis before) = apis.filterMap (·.offer before a) := by
  induction apis with
  | nil => rfl
  | cons api apis ih =>
    rw [parsedTable_cons, List.filterMap_cons]
    unfold offersOf ParserApi.offer
    obtain ⟨obj, calls, hobj, hgood⟩ | ⟨hnone, hbad⟩ :=
      @OptParser.feedAll_instantiate api before
    · rw [hgood, hobj]
      exact congrArg _ ih
    · rw [hnone, dif_neg (by simp [hbad])]
      exact ih

theorem parsedTable_snoc (apis : List ParserApi) (before : List ArgV) (a : ArgV) :
    parsedTable apis (before ++ [a]) = (parsedTable apis before).map (·.feed a) := by
  simp [parsedTable, Parser.feed, OptParser.feedAll, List.foldl_append]

/-- Entries that are not OK are offered nothing any more. -/
theorem offersAlone_of_goodCount (h : goodCount (parsedTable apis before) = 0)
    (opts : List ArgV) : offersAlone apis before opts = [] := by
  have hoffers : ∀ (ps : List Parser) (a : ArgV), goodCount ps = 0 → offersOf a ps = [] := by
    intro ps a
    induction ps with
    | nil => exact fun _ => rfl
    | cons p ps ih =>
      intro hcount
      have hbad := List.countP_eq_zero.mp hcount
      unfold offersOf
      rw [dif_neg (hbad p List.mem_cons_self)]
      exact ih (List.countP_eq_zero.mpr fun q hq => hbad q (List.mem_cons_of_mem p hq))
  induction opts generalizing before with
  | nil => rfl
  | cons a opts ih =>
    -- an option changes no entry that is not OK, so that they all stay so
    have hsame : parsedTable apis (before ++ [a]) = parsedTable apis before :=
      (parsedTable_snoc apis before a).trans (CommandData.map_feedAll_of_goodCount h [a])
    unfold offersAlone
    rw [← offersOf_parsedTable, hoffers _ a h, ih (hsame ▸ h), List.nil_append]

/-- The loop of `main` makes the offers that the encoders get on their own. -/
theorem CommandData.offers_eq {cmd : CommandData} (hcounted : cmd.Counted)
    (htable : cmd.parser = parsedTable apis before) (entries : List ArgVEntry) :
    cmd.offers entries = offersAlone apis before (parsedArgs entries) := by
  induction entries generalizing cmd before with
  | nil => rfl
  | cons e entries ih =>
    unfold CommandData.offers
    split
    · cases harg : e.argV? with
      | some a =>
        have hargs : parsedArgs (e :: entries) = a :: parsedArgs entries :=
          List.filterMap_cons_some harg
        have hnext : (cmd.parseOption a).parser = parsedTable apis (before ++ [a]) := by
          rw [CommandData.parser_parseOption, htable, parsedTable_snoc]
        rw [hargs, offersAlone, ← offersOf_parsedTable, ← htable]
        exact congrArg _ (ih (CommandData.counted_parseOption hcounted a) hnext)
      | none =>
        have hargs : parsedArgs (e :: entries) = parsedArgs entries :=
          List.filterMap_cons_none harg
        rw [hargs]
        exact ih hcounted htable
    · -- the early stop: no entry is OK
      rename_i hstop
      refine (offersAlone_of_goodCount ?_ _).symm
      rw [← htable]
      unfold Counted at hcounted
      omega

end

section

variable {apis : List ParserApi} {entries : List ArgVEntry}

theorem offers_eq (apis : List ParserApi) (entries : List ArgVEntry) :
    offers apis entries = offersAlone apis [] (parsedArgs entries) :=
  CommandData.offers_eq (counted_instantiateParsers apis) rfl entries

/-- The program dies exactly when an encoder does on its own. -/
theorem dies_iff :
    dies apis entries = true ↔ ∃ api ∈ apis, api.Dies (parsedArgs entries) := by
  unfold dies ParserApi.Dies
  rw [Bool.or_eq_true, List.any_eq_true, List.any_eq_true, offers_eq]
  simp only [mem_offersAlone_iff, Bool.not_eq_true', ParserApi.after, List.foldlM_nil,
    Option.pure_def, Option.bind_fun_some]
  constructor
  · rintro (⟨api, hmem, hlost⟩ | ⟨o, ⟨api, hmem, obj, hobj, c, hc, rfl⟩, hlost⟩)
    · exact ⟨api, hmem, .inl hlost⟩
    · exact ⟨api, hmem, .inr ⟨obj, hobj, c, hc, hlost⟩⟩
  · rintro ⟨api, hmem, hlost | ⟨obj, hobj, c, hc, hlost⟩⟩
    · exact .inl ⟨api, hmem, hlost⟩
    · exact .inr ⟨⟨api, c.1, c.2⟩, ⟨api, hmem, obj, hobj, c, hc, rfl⟩, hlost⟩

theorem dies_eq_false_iff :
    dies apis entries = false ↔ ∀ api ∈ apis, ¬api.Dies (parsedArgs entries) := by
  rw [← Bool.not_eq_true, dies_iff]
  simp

end

/-! ## The encoders of the repository -/

/-- The PassThru encoder is the end of the program when a sum of its checks wraps. -/
theorem dies_passThruApi_iff (host : PassThru.Host) (opts : List ArgV) :
    (passThruApi host).Dies opts ↔
      ∃ c ∈ PassThru.calls host PassThru.instantiate opts, ¬PassThru.SumsFit c.1 c.2 := by
  have hreturns : ∀ c ∈ PassThru.calls host PassThru.instantiate opts,
      ((passThruApi host).parseOptionReturns c.1 c.2 = false ↔ ¬PassThru.SumsFit c.1 c.2) := by
    intro c hc
    rw [← PassThru.died_parseOption_iff host (PassThru.inBounds_of_mem_calls hc) c.2]
    simp [passThruApi]
  constructor
  · rintro (hlost | ⟨obj, hobj, c, hc, hlost⟩)
    · cases hlost
    · obtain rfl := Option.some.inj hobj
      exact ⟨c, hc, (hreturns c hc).mp hlost⟩
  · rintro ⟨c, hc, hwrap⟩
    exact .inr ⟨PassThru.instantiate, rfl, c, hc, (hreturns c hc).mpr hwrap⟩

/-- Short strings are not the end of the program. -/
theorem not_dies_passThruApi (host : PassThru.Host) {opts : List ArgV}
    (hshort : ∀ a ∈ opts, PassThru.ShortString a) : ¬(passThruApi host).Dies opts := by
  rw [dies_passThruApi_iff]
  rintro ⟨c, hc, hwrap⟩
  exact hwrap ((hshort c.2 (mem_of_mem_taken hc)).sumsFit (PassThru.inBounds_of_mem_calls hc))

/-- The EDS encoder is the end of the program when the database has no command header. -/
theorem dies_edsApi_iff (host : Eds.Host) (opts : List ArgV) :
    (edsApi host).Dies opts ↔ ¬host.HasHeader := by
  rw [← Eds.instantiate_eq_none_iff]
  constructor
  · rintro (hlost | ⟨_, _, _, _, hlost⟩)
    · exact Option.isNone_iff_eq_none.mp (Option.isSome_eq_false_iff.mp hlost)
    · cases hlost
  · intro hnone
    exact .inl (by simp [edsApi, hnone])

/-- With both encoders, the program dies when a sum of the PassThru encoder wraps, or when the
database has no command header. -/
theorem dies_parserApis_iff {edsHost : Eds.Host} {host : PassThru.Host}
    {entries : List ArgVEntry} :
    dies (parserApis edsHost host) entries = true ↔
      ¬edsHost.HasHeader ∨ ∃ c ∈ PassThru.calls host PassThru.instantiate (parsedArgs entries),
        ¬PassThru.SumsFit c.1 c.2 := by
  rw [dies_iff, ← dies_edsApi_iff edsHost (parsedArgs entries), ← dies_passThruApi_iff]
  simp [parserApis]

end CmdSend.Dispatch
