-- SUMMARY: Dropped options: when the encoder whose packet is sent has accepted every option of the command line.
import CmdSend.Dispatch.Offers
import CmdSend.Eds.Draft

/-!
# Dropped options

The dispatcher gives up on an encoder only when it refuses an option. An encoder
that answers `CmdSend_OptParse_UNDEFINED` to an option stays in the table, and its
packet may be the one that is sent.
-/

namespace CmdSend.Dispatch

open CLib

/-! ## The sender -/

/-- The option of a call, with its verdict. -/
def Call.verdict? : Call → Option (ArgV × OptParse)
  | .parseOption argV retcode => some (argV, retcode)
  | .getPackedObject _ _ => none

namespace OptParser

variable {api : ParserApi}

/-- The options that the encoder was given, with its verdicts. -/
def verdicts (p : OptParser api) : List (ArgV × OptParse) := p.calls.filterMap Call.verdict?

/-- The encoder has built the packet that is sent. -/
def Sender (p : OptParser api) : Prop := ∃ size ≠ 0, Call.getPackedObject true size ∈ p.calls

/-- The encoder was given all the options, and accepted those that are no positional
arguments. -/
def AcceptedAll (p : OptParser api) (opts : List ArgV) : Prop :=
  p.verdicts.map (·.1) = opts ∧ ∀ v ∈ p.verdicts, v.1.optionId ≠ .none → v.2 = .accepted

end OptParser

/-- If a packet is sent, then its encoder has accepted every option. -/
def NoOptionDropped (apis : List ParserApi) (opts : List GetoptResult) (nonoptions : List Text) :
    Prop :=
  ∀ bytes, main apis opts nonoptions = .sent bytes →
    ∀ p ∈ (run apis (collectOptions opts nonoptions).1).parser, p.parser.Sender →
      p.parser.AcceptedAll (parsedArgs (collectOptions opts nonoptions).1)

/-- The encoder was not asked for a packet yet. -/
def OptParser.Unasked {api : ParserApi} (p : OptParser api) : Prop :=
  ∀ ok size, Call.getPackedObject ok size ∉ p.calls

theorem OptParser.Unasked.not_sender {api : ParserApi} {p : OptParser api} (h : p.Unasked) :
    ¬p.Sender := fun ⟨size, _, hmem⟩ => h true size hmem

theorem sender_good_iff {api : ParserApi} {obj : api.Obj} {calls : List Call}
    (h : (OptParser.good obj calls).Unasked) (obj' : api.Obj) (ok : Bool) (size : Nat) :
    (OptParser.good obj' (calls ++ [.getPackedObject ok size])).Sender ↔ ok = true ∧ size ≠ 0 := by
  constructor
  · rintro ⟨size', hne, hmem⟩
    rcases List.mem_append.mp hmem with hmem | hmem
    · exact absurd hmem (h true size')
    · obtain ⟨rfl, rfl⟩ := Call.getPackedObject.inj (List.mem_singleton.mp hmem)
      exact ⟨rfl, hne⟩
  · rintro ⟨rfl, hne⟩
    exact ⟨size, hne, List.mem_append_right _ (List.mem_singleton.mpr rfl)⟩

/-- An entry sends when there is no packet before its turn and one after it. -/
theorem sender_doEncode_iff {api : ParserApi} {p : OptParser api} (h : p.Unasked)
    (net : Nat × Mem) :
    (doEncode api p net).1.Sender ↔ net.1 = 0 ∧ (doEncode api p net).2.1 ≠ 0 := by
  by_cases hasked : net.1 = 0 ∧ p.isOK = true
  · obtain ⟨size, buf⟩ := net
    obtain ⟨hsize, hok⟩ := hasked
    obtain rfl : size = 0 := hsize
    rcases p.eq_good_or with hbad | ⟨obj, calls, rfl⟩
    · exact absurd hok (by simp [hbad])
    · rw [doEncode_good]
      dsimp only
      rw [sender_good_iff h]
      cases (api.getPackedObject obj buf netBufSize).ok <;> simp
  · have hskip : doEncode api p net = (p, net) := dif_neg hasked
    rw [hskip]
    exact iff_of_false h.not_sender fun h => h.2 h.1

/-- There is a packet exactly when some entry has built it. -/
theorem sender_foreachParser {ps : List Parser} (h : ∀ p ∈ ps, p.parser.Unasked) (buf : Mem) :
    (∃ p ∈ (foreachParser doEncode ps (0, buf)).1, p.parser.Sender) ↔
      (foreachParser doEncode ps (0, buf)).2.1 ≠ 0 := by
  induction ps generalizing buf with
  | nil => simp [foreachParser]
  | cons p ps ih =>
    obtain ⟨hp, hps⟩ := List.forall_mem_cons.mp h
    have hsender := sender_doEncode_iff hp (0, buf)
    unfold foreachParser
    dsimp only
    rw [List.exists_mem_cons_iff, hsender]
    generalize doEncode p.api p.parser (0, buf) = r
    by_cases hsent : r.2.1 = 0
    · obtain ⟨entry, size, buf'⟩ := r
      obtain rfl : size = 0 := hsent
      rw [ih hps]
      simp
    · rw [foreachParser_doEncode_of_sent hsent]
      exact iff_of_true (Or.inl ⟨rfl, hsent⟩) hsent

/-! ## Entries after the option loop -/

/-- Options do not ask for a packet. -/
theorem unasked_feedAll (api : ParserApi) (opts : List ArgV) :
    ((OptParser.instantiate api).feedAll opts).Unasked := by
  have hstart : (OptParser.instantiate api).Unasked := fun _ _ => List.not_mem_nil
  refine foldl_invariant (I := OptParser.Unasked) (fun p a hp => ?_) opts hstart
  unfold OptParser.feed
  rcases p.eq_good_or with hbad | ⟨obj, calls, rfl⟩
  · rw [OptParser.doParseOption_of_not_ok hbad]
    exact hp
  · cases hstep : api.accept obj a with
    | some obj' =>
      rw [OptParser.doParseOption_of_some hstep]
      exact fun ok size hmem => (List.mem_append.mp hmem).elim (hp ok size) (by simp)
    | none =>
      obtain ⟨_, heq⟩ := OptParser.doParseOption_of_none hstep calls 0
      rw [heq]
      exact fun ok size hmem => (List.mem_append.mp hmem).elim (hp ok size) (by simp)

section

variable {api : ParserApi} {opts : List ArgV}

/-- The verdicts of an encoder that was run over all options and then asked for a
packet. -/
theorem acceptedAll_iff_of_calls {p : OptParser api} {obj obj' : api.Obj} {ok : Bool} {size : Nat}
    (hrun : opts.foldlM api.accept obj = some obj')
    (hcalls : p.calls = api.answers obj opts ++ [.getPackedObject ok size]) :
    p.AcceptedAll opts ↔
      ∀ c ∈ taken api.accept obj opts, c.2.optionId ≠ .none →
        (api.parseOption c.1 c.2).1 = .accepted := by
  have hverdicts : p.verdicts =
      (taken api.accept obj opts).map fun c => (c.2, (api.parseOption c.1 c.2).1) := by
    unfold OptParser.verdicts ParserApi.answers at *
    rw [hcalls]
    simp [List.filterMap_append, List.filterMap_map, Call.verdict?, Function.comp_def]
  have hopts : p.verdicts.map (·.1) = opts := by
    rw [hverdicts, List.map_map]
    exact map_snd_taken hrun
  unfold OptParser.AcceptedAll
  rw [and_iff_right hopts, hverdicts, List.forall_mem_map]

/-- A sender has refused no option, and it has accepted them all exactly when its
encoder does so on its own. -/
theorem acceptedAll_of_sender {net : Nat × Mem}
    (h : (doEncode api ((OptParser.instantiate api).feedAll opts) net).1.Sender) :
    ∃ obj obj', api.instantiate = some obj ∧ opts.foldlM api.accept obj = some obj' ∧
      ((doEncode api ((OptParser.instantiate api).feedAll opts) net).1.AcceptedAll opts ↔
        ∀ c ∈ taken api.accept obj opts, c.2.optionId ≠ .none →
          (api.parseOption c.1 c.2).1 = .accepted) := by
  by_cases hasked : net.1 = 0 ∧ ((OptParser.instantiate api).feedAll opts).isOK = true
  · obtain ⟨obj, obj', hobj, hrun, heq⟩ := OptParser.feedAll_of_ok hasked.2
    obtain ⟨size, buf⟩ := net
    obtain rfl : size = 0 := hasked.1
    rw [heq, doEncode_good]
    exact ⟨obj, obj', hobj, hrun, acceptedAll_iff_of_calls hrun rfl⟩
  · rw [doEncode_of_not_asked hasked] at h
    exact absurd h (unasked_feedAll api opts).not_sender

/-- The first entry of the table sends exactly when its encoder builds a packet on its
own. -/
theorem sender_first_iff (api : ParserApi) (opts : List ArgV) :
    (doEncode api ((OptParser.instantiate api).feedAll opts) (0, fun _ => 0)).1.Sender ↔
      api.packAlone opts ≠ none := by
  rw [sender_doEncode_iff (unasked_feedAll api opts), ← OptParser.packed_feedAll_instantiate]
  generalize (OptParser.instantiate api).feedAll opts = p
  rcases p.eq_good_or with hbad | ⟨obj, calls, rfl⟩
  · rw [doEncode_of_not_asked (by simp [hbad]), OptParser.packed_of_not_ok hbad]
    simp
  · rw [OptParser.packed_good, doEncode_good]
    unfold ParserApi.packed
    dsimp only
    generalize api.getPackedObject obj (fun _ => 0) netBufSize = r
    cases r.ok <;> simp

end

/-! ## The encoders of the repository -/

/-- The PassThru encoder builds no packet without one of the options. -/
theorem accepted_passThruApi {host : PassThru.Host} {obj obj' : PassThru.CommandData}
    {opts : List ArgV} (hrun : opts.foldlM (passThruApi host).accept obj = some obj')
    (hcoll : ∀ a ∈ opts, a.optionId.Collected) :
    ∀ c ∈ taken (passThruApi host).accept obj opts, c.2.optionId ≠ .none →
      ((passThruApi host).parseOption c.1 c.2).1 = .accepted := by
  intro c hc hid
  have hsome := (foldlM_isSome_iff opts obj).mp (Option.isSome_of_eq_some hrun) c hc
  have hdecided := PassThru.decided_parseOption host c.1 hid (hcoll _ (mem_of_mem_taken hc))
  cases hret : ((passThruApi host).parseOption c.1 c.2).1 with
  | invalid => exact absurd hret (ParserApi.ne_invalid_of_accept hsome)
  | undefined => exact absurd hret hdecided
  | accepted => rfl

/-- The EDS encoder accepts the options that it handles. -/
theorem accepted_edsApi_iff {host : Eds.Host} {obj obj' : Eds.CommandData} {opts : List ArgV}
    (hrun : opts.foldlM (edsApi host).accept obj = some obj') :
    (∀ c ∈ taken (edsApi host).accept obj opts, c.2.optionId ≠ .none →
      ((edsApi host).parseOption c.1 c.2).1 = .accepted) ↔
    ∀ c ∈ taken (edsApi host).accept obj opts, c.2.optionId ≠ .none →
      Eds.Handles host c.1 c.2 := by
  have hsome := (foldlM_isSome_iff opts obj).mp (Option.isSome_of_eq_some hrun)
  refine forall₃_congr fun c hc hid => ?_
  exact Eds.retcode_parseOption host c.1 hid (ParserApi.ne_invalid_of_accept (hsome c hc))

/-- `main` sends a packet unless it dies or help is asked for, and the packet is there when
some entry has built it. -/
theorem noOptionDropped_iff_sender (apis : List ParserApi) (opts : List GetoptResult)
    (nonoptions : List Text) :
    NoOptionDropped apis opts nonoptions ↔
      (collectOptions opts nonoptions).2 = true ∨
        dies apis (collectOptions opts nonoptions).1 = true ∨
        ∀ p ∈ (run apis (collectOptions opts nonoptions).1).parser, p.parser.Sender →
          p.parser.AcceptedAll (parsedArgs (collectOptions opts nonoptions).1) := by
  generalize hcollected : collectOptions opts nonoptions = collected
  have htable : ∀ p ∈ parsedTable apis (parsedArgs collected.1), p.parser.Unasked := by
    intro p hp
    obtain ⟨api, -, rfl⟩ := List.mem_map.mp hp
    exact unasked_feedAll api _
  have hsent : (∃ p ∈ (run apis collected.1).parser, p.parser.Sender) →
      (run apis collected.1).packet ≠ none := by
    rw [(run_eq apis collected.1).1, (run_eq apis collected.1).2, sender_foreachParser htable]
    intro hne
    unfold netPacket
    rw [if_neg hne]
    exact Option.some_ne_none _
  unfold NoOptionDropped main
  rw [hcollected]
  dsimp only
  cases dies apis collected.1 with
  | true => simp
  | false =>
  cases hhelp : collected.2 with
  | true => simp
  | false =>
    simp only [Bool.false_eq_true, if_false, false_or]
    cases hpacket : (run apis collected.1).packet with
    | none =>
      refine iff_of_true (fun _ h => Result.noConfusion h) fun p hp hsender => ?_
      exact absurd hpacket (hsent ⟨p, hp, hsender⟩)
    | some bytes => exact ⟨fun h => h bytes rfl, fun h _ _ => h⟩

/-- The entries of a run with both encoders, as far as they send. -/
theorem acceptedAll_run_parserApis {edsHost : Eds.Host} {host : PassThru.Host}
    {entries : List ArgVEntry} (hcoll : ∀ a ∈ parsedArgs entries, a.optionId.Collected) :
    (∀ p ∈ (run (parserApis edsHost host) entries).parser, p.parser.Sender →
      p.parser.AcceptedAll (parsedArgs entries)) ↔
    (edsApi edsHost).packAlone (parsedArgs entries) = none ∨
      ∀ obj, Eds.instantiate edsHost = some obj →
        ∀ c ∈ taken (edsApi edsHost).accept obj (parsedArgs entries),
          c.2.optionId ≠ .none → Eds.Handles edsHost c.1 c.2 := by
  have hparser := (run_eq (parserApis edsHost host) entries).1
  generalize parsedArgs entries = args at *
  have htable : parsedTable (parserApis edsHost host) args =
      [⟨edsApi edsHost, (OptParser.instantiate _).feedAll args⟩,
        ⟨passThruApi host, (OptParser.instantiate _).feedAll args⟩] := rfl
  rw [hparser, htable]
  unfold foreachParser foreachParser foreachParser
  -- the PassThru entry never drops an option, so that only the EDS entry decides
  refine List.forall_mem_cons.trans ((and_iff_left ?_).trans ?_)
  · refine List.forall_mem_cons.mpr ⟨fun hsender => ?_, List.forall_mem_nil _⟩
    obtain ⟨obj, obj', -, hrun, hiff⟩ := acceptedAll_of_sender hsender
    exact hiff.mpr (accepted_passThruApi hrun hcoll)
  · have hfirst := sender_first_iff (edsApi edsHost) args
    by_cases hnone : (edsApi edsHost).packAlone args = none
    · exact iff_of_true (fun hsender => absurd hnone (hfirst.mp hsender)) (Or.inl hnone)
    · have hsender := hfirst.mpr hnone
      obtain ⟨obj, obj', hobj, hrun, hiff⟩ := acceptedAll_of_sender hsender
      rw [forall_prop_of_true hsender, or_iff_right hnone, hiff, accepted_edsApi_iff hrun]
      constructor
      · intro hall obj₁ hobj₁
        obtain rfl := Option.some.inj (hobj.symm.trans hobj₁)
        exact hall
      · intro hall
        exact hall obj hobj

/-- In the build with both encoders, for options that are C strings: no option is dropped from
the packet that is sent exactly when help is asked for, when a `--string` runs past the
payload, when the options describe no packet to the EDS encoder, or when it handles them all. -/
theorem noOptionDropped_iff (edsHost : Eds.Host) (host : PassThru.Host)
    (opts : List GetoptResult) (nonoptions : List Text)
    (hzero : ∀ a ∈ parsedArgs (collectOptions opts nonoptions).1, 0 ∉ a.text) :
    NoOptionDropped (parserApis edsHost host) opts nonoptions ↔
      (collectOptions opts nonoptions).2 = true ∨
      (∃ c ∈ PassThru.calls host PassThru.instantiate
        (parsedArgs (collectOptions opts nonoptions).1), ¬PassThru.SumsFit c.1 c.2) ∨
      Eds.describe edsHost (parsedArgs (collectOptions opts nonoptions).1) = none ∨
      ∀ obj, Eds.instantiate edsHost = some obj →
        ∀ c ∈ taken (edsApi edsHost).accept obj (parsedArgs (collectOptions opts nonoptions).1),
          c.2.optionId ≠ .none → Eds.Handles edsHost c.1 c.2 := by
  have hcoll : ∀ a ∈ parsedArgs (collectOptions opts nonoptions).1, a.optionId.Collected :=
    fun _ => collectOptions_collected
  rw [noOptionDropped_iff_sender, acceptedAll_run_parserApis hcoll, dies_parserApis_iff,
    Eds.packAlone_eq_describe edsHost hzero]
  refine or_congr Iff.rfl ⟨?_, fun h => h.elim (fun hwrap => .inl (.inr hwrap)) .inr⟩
  rintro ((hheader | hwrap) | hrest)
  · exact .inr (.inl (if_neg hheader))
  · exact .inl hwrap
  · exact .inr hrest

/-- `--endian=LE --uint16=2`: the EDS encoder refuses the byte order, and the other one sends
both options. -/
theorem noOptionDropped_iff_endian :
    NoOptionDropped (parserApis Eds.Host.sample PassThru.Host.little)
      [⟨ch 'E', some (str "LE")⟩, ⟨ch 'n', some (str "2")⟩] [] :=
  (noOptionDropped_iff _ _ _ _ (by decide)).mpr (.inr (.inr (.inl (by decide))))

/-- `--pktid=CFE_ES --uint16=1`: the EDS encoder has no case for `uint16`, and sends a
packet without it. -/
theorem noOptionDropped_fails_on_uint16 :
    ¬NoOptionDropped (parserApis Eds.Host.sample PassThru.Host.little)
      [⟨ch 'I', some (str "CFE_ES")⟩, ⟨ch 'n', some (str "1")⟩] [] := by
  intro h
  obtain ⟨p, hp, hcalls⟩ : ∃ p ∈ (run (parserApis Eds.Host.sample PassThru.Host.little)
      (collectOptions [⟨ch 'I', some (str "CFE_ES")⟩, ⟨ch 'n', some (str "1")⟩] []).1).parser,
      p.parser.calls = [.parseOption ⟨.pktid, str "CFE_ES"⟩ .accepted,
        .parseOption ⟨.uint16, str "1"⟩ .undefined, .getPackedObject true 8] :=
    ⟨_, List.mem_cons_self, by decide⟩
  have hsender : p.parser.Sender := ⟨8, by decide, by rw [hcalls]; decide⟩
  have haccepted := h [0, 0, 0xC0, 0, 0, 0, 0, 0] (by decide) p hp hsender
  unfold OptParser.AcceptedAll OptParser.verdicts at haccepted
  rw [hcalls] at haccepted
  exact absurd (haccepted.2 (⟨.uint16, str "1"⟩, .undefined) (by decide) (by decide)) (by decide)

end CmdSend.Dispatch
