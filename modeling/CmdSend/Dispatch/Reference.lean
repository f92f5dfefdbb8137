-- SUMMARY: The dispatcher's loop interchange: its run equals running every encoder on its own and taking the first packet.
import CmdSend.Dispatch.Table
import CmdSend.PassThru.Safety
import CmdSend.PassThru.Pack
import CmdSend.Eds.Lookup

/-!
# The dispatcher and its reference

The dispatcher offers one option after the other to all encoders, and the encoders
share the output buffer. The reference runs one encoder after the other over all
options, up to its first refusal, and gives each a fresh buffer.
-/

namespace CmdSend.Dispatch

open CLib

/-! ## The reference -/

namespace ParserApi

variable (api : ParserApi)

/-- The packet of an object, built in a fresh buffer. -/
def packed (obj : api.Obj) : Option (List Byte) :=
  let r := api.getPackedObject obj (fun _ => 0) netBufSize
  if r.ok = true ∧ r.size ≠ 0 then some (r.out.slice 0 r.size) else none

/-- The packet of an encoder that is run on its own. -/
def packAlone (opts : List ArgV) : Option (List Byte) :=
  (api.instantiate.bind fun obj => opts.foldlM api.accept obj).bind api.packed

/-- The encoder acts only on its own object: what it packs does not depend on what
other encoders left in the output buffer. -/
def OwnObjectOnly : Prop :=
  ∀ (obj : api.Obj) (out out' : Mem),
    let r := api.getPackedObject obj out netBufSize
    let r' := api.getPackedObject obj out' netBufSize
    r.ok = r'.ok ∧ (r.ok = true → r.size = r'.size ∧ r.out.slice 0 r.size = r'.out.slice 0 r'.size)

end ParserApi

/-- The first packet in table order. -/
def reference (apis : List ParserApi) (opts : List ArgV) : Option (List Byte) :=
  apis.findSome? fun api => api.packAlone opts

namespace OptParser

variable {api : ParserApi}

/-- The packet that an entry would build in a fresh buffer. -/
def packed (p : OptParser api) : Option (List Byte) :=
  if h : p.isOK = true then api.packed (p.obj.get (p.hasObj h)) else none

theorem packed_of_not_ok {p : OptParser api} (h : p.isOK = false) : p.packed = none :=
  dif_neg (by simp [h])

theorem packed_good (obj : api.Obj) (calls : List Call) :
    (good obj calls).packed = api.packed obj :=
  dif_pos rfl

/-- An entry of the table ends where its encoder does on its own. -/
theorem packed_feedAll_instantiate (opts : List ArgV) :
    ((instantiate api).feedAll opts).packed = api.packAlone opts := by
  unfold ParserApi.packAlone
  cases hobj : api.instantiate with
  | none =>
    have hbad := isOK_instantiate_of_none hobj
    rw [feedAll_of_not_ok hbad, packed_of_not_ok hbad]
    rfl
  | some obj =>
    rw [instantiate_of_some hobj, Option.bind_some]
    cases hrun : opts.foldlM api.accept obj with
    | some obj' =>
      rw [feedAll_of_some hrun, packed_good]
      rfl
    | none =>
      rw [packed_of_not_ok (feedAll_of_none hrun [])]
      rfl

end OptParser

/-! ## The packet -/

/-- The output of a state with the members `ContentSize` and `NetBuf`. -/
def netPacket (net : Nat × Mem) : Option (List Byte) :=
  if net.1 = 0 then none else some (net.2.slice 0 net.1)

theorem doEncode_of_not_asked {api : ParserApi} {p : OptParser api} {net : Nat × Mem}
    (h : ¬(net.1 = 0 ∧ p.isOK = true)) : doEncode api p net = (p, net) :=
  dif_neg h

/-- Once there is a packet, no encoder is asked any more. -/
theorem foreachParser_doEncode_of_sent {net : Nat × Mem} (h : net.1 ≠ 0) (ps : List Parser) :
    foreachParser doEncode ps net = (ps, net) := by
  induction ps with
  | nil => rfl
  | cons p ps ih =>
    unfold foreachParser
    dsimp only
    rw [doEncode_of_not_asked fun hasked => h hasked.1, ih]

theorem doEncode_good {api : ParserApi} (obj : api.Obj) (calls : List Call) (buf : Mem) :
    doEncode api (.good obj calls) (0, buf) =
      let r := api.getPackedObject obj buf netBufSize
      (.good r.obj (calls ++ [.getPackedObject r.ok r.size]),
        if r.ok then r.size else 0, r.out) :=
  rfl

/-- The packet of an object in any buffer. -/
theorem packed_of_ownObjectOnly {api : ParserApi} (h : api.OwnObjectOnly) (obj : api.Obj)
    (buf : Mem) :
    api.packed obj =
      let r := api.getPackedObject obj buf netBufSize
      if r.ok = true ∧ r.size ≠ 0 then some (r.out.slice 0 r.size) else none := by
  obtain ⟨hok, hpacked⟩ := h obj buf fun _ => 0
  unfold ParserApi.packed
  dsimp only
  by_cases hr : (api.getPackedObject obj buf netBufSize).ok = true
  · obtain ⟨hsize, hbytes⟩ := hpacked hr
    rw [← hok, ← hsize, hbytes, ← hsize]
  · rw [if_neg fun h => hr (hok.trans h.1), if_neg fun h => hr h.1]

/-- The packet is that of the first entry that builds one, whatever the entries before
it left in the buffer. -/
theorem netPacket_foreachParser {ps : List Parser} (hown : ∀ p ∈ ps, p.api.OwnObjectOnly)
    (buf : Mem) :
    netPacket (foreachParser doEncode ps (0, buf)).2 = ps.findSome? fun p => p.parser.packed := by
  induction ps generalizing buf with
  | nil => rfl
  | cons p ps ih =>
    obtain ⟨api, parser⟩ := p
    obtain ⟨hapi, hps⟩ := List.forall_mem_cons.mp hown
    unfold foreachParser
    dsimp only
    rw [List.findSome?_cons]
    rcases parser.eq_good_or with hbad | ⟨obj, calls, rfl⟩
    · rw [doEncode_of_not_asked (by simp [hbad]), OptParser.packed_of_not_ok hbad, ih hps]
    · rw [doEncode_good, OptParser.packed_good, packed_of_ownObjectOnly hapi obj buf]
      dsimp only
      generalize api.getPackedObject obj buf netBufSize = r
      by_cases hsent : r.ok = true ∧ r.size ≠ 0
      · rw [if_pos hsent, foreachParser_doEncode_of_sent (by simp [hsent])]
        simp [netPacket, hsent]
      · -- no packet from this entry, whatever it wrote to the buffer
        have hsize : (if r.ok = true then r.size else 0) = 0 := by
          by_cases hok : r.ok = true
          · simpa [hok] using hsent
          · exact if_neg hok
        rw [if_neg hsent, hsize, ih hps]

/-! ## The calls -/

/-- The encoder refuses the option. -/
def Call.Refuses : Call → Prop
  | .parseOption _ retcode => retcode = .invalid
  | .getPackedObject _ _ => False

/-- A call that refuses an option is the last one, and the entry is no longer OK. -/
structure OptParser.Heeded {api : ParserApi} (p : OptParser api) : Prop where
  last : p.calls.Pairwise fun c _ => ¬c.Refuses
  ok : p.isOK = true → ∀ c ∈ p.calls, ¬c.Refuses

theorem OptParser.Heeded.snoc {api : ParserApi} {obj : api.Obj} {calls : List Call}
    (h : (OptParser.good obj calls).Heeded) (c : Call) :
    (calls ++ [c]).Pairwise fun c _ => ¬c.Refuses := by
  refine List.pairwise_append.mpr ⟨h.last, List.pairwise_singleton _ _, ?_⟩
  intro c' hc' _ _
  exact h.ok rfl c' hc'

theorem heeded_doParseOption {api : ParserApi} {p : OptParser api} (h : p.Heeded) (argV : ArgV)
    (n : Int) : (doParseOption argV api p n).1.Heeded := by
  rcases p.eq_good_or with hbad | ⟨obj, calls, rfl⟩
  · rw [OptParser.doParseOption_of_not_ok hbad]
    exact h
  · cases hstep : api.accept obj argV with
    | some obj' =>
      have haccept := ParserApi.ne_invalid_of_accept (Option.isSome_of_eq_some hstep)
      rw [OptParser.doParseOption_of_some hstep]
      refine ⟨h.snoc _, fun _ c hc => ?_⟩
      rcases List.mem_append.mp hc with hc | hc
      · exact h.ok rfl c hc
      · rw [List.mem_singleton.mp hc]
        exact haccept
    | none =>
      obtain ⟨hasObj, heq⟩ := OptParser.doParseOption_of_none hstep calls n
      rw [heq]
      exact ⟨h.snoc _, nofun⟩

theorem heeded_doEncode {api : ParserApi} {p : OptParser api} (h : p.Heeded) (net : Nat × Mem) :
    (doEncode api p net).1.Heeded := by
  unfold doEncode
  split
  · rename_i hasked
    rcases p.eq_good_or with hbad | ⟨obj, calls, rfl⟩
    · simp [hbad] at hasked
    · refine ⟨h.snoc _, fun _ c hc => ?_⟩
      rcases List.mem_append.mp hc with hc | hc
      · exact h.ok rfl c hc
      · rw [List.mem_singleton.mp hc]
        exact id
  · exact h

/-- What a function keeps of every entry, `ForeachParser` keeps of the table. -/
theorem forall_foreachParser {σ : Type} {I : (api : ParserApi) → OptParser api → Prop}
    {func : (api : ParserApi) → OptParser api → σ → OptParser api × σ}
    (hfunc : ∀ api p s, I api p → I api (func api p s).1) {ps : List Parser}
    (h : ∀ p ∈ ps, I p.api p.parser) (s : σ) :
    ∀ p ∈ (foreachParser func ps s).1, I p.api p.parser := by
  induction ps generalizing s with
  | nil => exact h
  | cons p ps ih =>
    obtain ⟨hp, hps⟩ := List.forall_mem_cons.mp h
    exact List.forall_mem_cons.mpr ⟨hfunc p.api p.parser s hp, ih hps _⟩

theorem heeded_parseOptions {cmd : CommandData} (h : ∀ p ∈ cmd.parser, p.parser.Heeded)
    (entries : List ArgVEntry) : ∀ p ∈ (cmd.parseOptions entries).parser, p.parser.Heeded := by
  induction entries generalizing cmd with
  | nil => exact h
  | cons e entries ih =>
    unfold CommandData.parseOptions
    split
    · cases e.argV? with
      | some argV =>
        exact ih (forall_foreachParser (I := fun _ p => p.Heeded)
          (fun _ _ n hp => heeded_doParseOption hp argV n) h _)
      | none => exact ih h
    · exact h

/-- In a whole run, no encoder is called again after it has refused an option. -/
theorem heeded_run (apis : List ParserApi) (entries : List ArgVEntry) :
    ∀ p ∈ (run apis entries).parser, p.parser.Heeded := by
  have hstart : ∀ p ∈ (instantiateParsers apis).parser, p.parser.Heeded := by
    intro p hp
    obtain ⟨api, -, rfl⟩ := List.mem_map.mp hp
    exact ⟨List.Pairwise.nil, fun _ c hc => absurd hc List.not_mem_nil⟩
  exact forall_foreachParser (I := fun _ p => p.Heeded)
    (fun _ _ net hp => heeded_doEncode hp net) (heeded_parseOptions hstart entries) _

/-! ## The encoders of the repository -/

theorem ownObjectOnly_passThruApi (host : PassThru.Host) : (passThruApi host).OwnObjectOnly := by
  intro (cmd : PassThru.CommandData) out out'
  dsimp only [passThruApi]
  rw [PassThru.getPackedObject_eq, PassThru.getPackedObject_eq]
  split
  · generalize hsent : PassThru.CommandData.setDefaults host cmd cmd.packedSize = sent
    have hsize : cmd.packedSize = (sent.packetBytes host).length := by
      rw [sent.length_packetBytes host, ← hsent, cmd.setDefaults_frame host]
      rfl
    refine ⟨rfl, fun _ => ⟨rfl, ?_⟩⟩
    dsimp only
    rw [hsize, Mem.slice_copy_same, Mem.slice_copy_same]
  · exact ⟨rfl, nofun⟩

/-- The EDS encoder acts only on its own object when EdsLib does not read the output
that it packs into. -/
theorem ownObjectOnly_edsApi {host : Eds.Host}
    (h : ∀ (id : Eds.EdsId) (out out' buf : Mem) (sz : Nat),
      ∃ rc id' size, ∃ bytes : List Byte, ∃ rest rest' : Mem,
        host.packCompleteObjectVarSize id out buf sz = (rc, id', rest.copy 0 bytes, size) ∧
        host.packCompleteObjectVarSize id out' buf sz = (rc, id', rest'.copy 0 bytes, size) ∧
        size = bytes.length) :
    (edsApi host).OwnObjectOnly := by
  intro (cmd : Eds.CommandData) out out'
  dsimp only [edsApi, Eds.getPackedObject]
  generalize Eds.CommandData.checkValidPayload host cmd = payload
  cases payload.ok with
  | false => exact ⟨rfl, nofun⟩
  | true =>
    obtain ⟨rc, id', size, bytes, rest, rest', hpack, hpack', hsize⟩ :=
      h payload.cmd.actualArg out out' payload.cmd.buf netBufSize
    simp only [hpack, hpack', hsize]
    by_cases hrc : rc = host.edsSuccess
    · simp [hrc, Mem.slice_copy_same]
    · simp [hrc]

/-! ## The whole run -/

/-- The table when the encoding starts. -/
def parsedTable (apis : List ParserApi) (opts : List ArgV) : List Parser :=
  apis.map fun api => ⟨api, (OptParser.instantiate api).feedAll opts⟩

theorem parsedTable_cons (api : ParserApi) (apis : List ParserApi) (opts : List ArgV) :
    parsedTable (api :: apis) opts =
      ⟨api, (OptParser.instantiate api).feedAll opts⟩ :: parsedTable apis opts :=
  rfl

theorem parser_parseOptions_eq (apis : List ParserApi) (entries : List ArgVEntry) :
    ((instantiateParsers apis).parseOptions entries).parser =
      parsedTable apis (parsedArgs entries) :=
  (CommandData.parser_parseOptions (counted_instantiateParsers apis) entries).trans
    (List.map_map ..)

theorem run_eq (apis : List ParserApi) (entries : List ArgVEntry) :
    let r := foreachParser doEncode (parsedTable apis (parsedArgs entries)) (0, fun _ => 0)
    (run apis entries).parser = r.1 ∧ (run apis entries).packet = netPacket r.2 := by
  obtain ⟨hsize, hbuf⟩ := CommandData.output_parseOptions (instantiateParsers apis) entries
  unfold run CommandData.encode CommandData.packet
  dsimp only
  rw [parser_parseOptions_eq, hsize, hbuf]
  exact ⟨rfl, rfl⟩

theorem packet_run {apis : List ParserApi} (hown : ∀ api ∈ apis, api.OwnObjectOnly)
    (entries : List ArgVEntry) :
    (run apis entries).packet = reference apis (parsedArgs entries) := by
  have htable : ∀ p ∈ parsedTable apis (parsedArgs entries), p.api.OwnObjectOnly := by
    intro p hp
    obtain ⟨api, hapi, rfl⟩ := List.mem_map.mp hp
    exact hown api hapi
  rw [(run_eq apis entries).2, netPacket_foreachParser htable]
  unfold parsedTable reference
  rw [List.findSome?_map]
  congr 1
  funext api
  exact OptParser.packed_feedAll_instantiate (parsedArgs entries)

/-- The dispatcher equals running each encoder on its own. At every iteration of
the option loop the counter is the number of the entries that are OK; what is sent
is the packet of the reference; and no encoder is called again after a refusal. -/
theorem dispatcher_refines_reference (apis : List ParserApi)
    (hown : ∀ api ∈ apis, api.OwnObjectOnly) (entries : List ArgVEntry) :
    (∀ k, ((instantiateParsers apis).parseOptions (entries.take k)).goodParsers =
      ((instantiateParsers apis).parseOptions (entries.take k)).parser.countP (·.parser.isOK)) ∧
    (run apis entries).packet = reference apis (parsedArgs entries) ∧
    ∀ p ∈ (run apis entries).parser, p.parser.calls.Pairwise fun c _ => ¬c.Refuses :=
  ⟨fun k => CommandData.counted_parseOptions (counted_instantiateParsers apis) (entries.take k),
    packet_run hown entries, fun p hp => (heeded_run apis entries p hp).last⟩

theorem ownObjectOnly_sample :
    ∀ api ∈ parserApis Eds.Host.sample PassThru.Host.little, api.OwnObjectOnly := by
  refine List.forall_mem_cons.mpr ⟨ownObjectOnly_edsApi ?_, ?_⟩
  · intro id out out' buf sz
    exact ⟨0, id, 8, buf.slice 0 8, out, out', rfl, rfl, rfl⟩
  · exact List.forall_mem_cons.mpr ⟨ownObjectOnly_passThruApi _, List.forall_mem_nil _⟩

/-- The EDS encoder refuses the byte order, and the packet is the one that the
PassThru encoder builds on its own. -/
theorem dispatcher_refines_reference_endian :
    (run (parserApis Eds.Host.sample PassThru.Host.little)
      [⟨.endian, some (str "LE")⟩, ⟨.verbose, none⟩, ⟨.uint16, some (str "2")⟩]).packet =
        some [0x18, 0, 0xC0, 0, 0, 3, 0, 0x24, 2, 0] := by
  have h := (dispatcher_refines_reference (parserApis Eds.Host.sample PassThru.Host.little)
    ownObjectOnly_sample
    [⟨.endian, some (str "LE")⟩, ⟨.verbose, none⟩, ⟨.uint16, some (str "2")⟩]).2.1
  rw [h]
  decide

end CmdSend.Dispatch
