-- SUMMARY: main of tlm_recv.c: its options, its socket, and what a whole run binds, prints and frees.
import CmdSend.Lib.Run
import CmdSend.Lib.Spelling
import CmdSend.TlmRecv

/-!
# The telemetry server

`main` of `tlm_recv.c` from the words of the command line on. A run ends when the socket or
the port cannot be had, or when `recvfrom` fails. In the second case `main` frees the objects
of its displays before it returns, and one of them never came from `malloc`.
-/

namespace CmdSend.TlmRecv

open CLib

/-! ## The options -/

/-- The arguments of `getopt_long`: `optString` and `longOpts`. -/
def optionTable : OptionTable where
  optstring := str "c:p:v?"
  longOptions :=
    [⟨str "cpu", true, ch 'c'⟩, ⟨str "port", true, ch 'p'⟩, ⟨str "verbose", false, ch 'v'⟩,
      ⟨str "help", false, ch '?'⟩]

/-- `BASE_SERVER_PORT`. -/
def baseServerPort : BitVec 32 := 2234

/-- The variables that the options set: `Port` and `ConsoleUtils_Verbosity`. -/
structure Settings where
  port : BitVec 16
  verbosity : Nat

/-- The settings before the first option. -/
def defaults : Settings := ⟨baseServerPort.setWidth 16, 0⟩

/-- The switch of the option loop. The sums are those of `int`, which wrap around here, and
`Port` is an `unsigned short`. -/
def setOption (s : Settings) (r : OptionReport) : Settings :=
  if r.opt = ch 'c' then
    { s with port := (baseServerPort + atoi (r.optarg.getD []) - 1).setWidth 16 }
  else if r.opt = ch 'p' then { s with port := (atoi (r.optarg.getD [])).setWidth 16 }
  else if r.opt = ch 'v' then { s with verbosity := s.verbosity + 1 }
  else s

/-! ## The program -/

/-- The calls of the socket interface. A socket or a datagram that could not be had is
`none`. -/
inductive Event
  | socket (sd : Option Nat)
  | bind (sd : Nat) (port : BitVec 16) (ok : Bool)
  | recvfrom (sd : Nat) (data : Option (List Byte))

/-- The system in a run: the socket that it gives, the ports that can be bound, and what
arrives until `recvfrom` fails. -/
structure System where
  sd : Option Nat
  bind : Nat → BitVec 16 → Bool
  arrivals : List Arrival

/-- How a run ends: with a status, or in `free`, which aborts the program when it is given an
object that is not from the heap. -/
inductive Exit
  | status (n : Nat)
  | aborted
deriving DecidableEq, Repr

/-- How a run ends, and what it has done until then. -/
structure Ended where
  exit : Exit
  events : List Event
  printed : List Text
  freed : List Storage

/-- `DestroyDisplays`: what it passes to `free`, and whether it comes back. -/
def destroyDisplays : List Display → List Storage × Bool
  | [] => ([], true)
  | ⟨_, none⟩ :: rest => destroyDisplays rest
  | ⟨api, some _⟩ :: rest =>
    match api.storage with
    | .heap => (.heap :: (destroyDisplays rest).1, (destroyDisplays rest).2)
    | .static => ([.static], false)

/-- `main`, for the name of the program and the words behind it. -/
def main (apis : List DisplayApi) (name : Text) (argv : List Text) (sys : System) : Ended :=
  let settings := (Getopt.scan optionTable argv).1.foldl setOption defaults
  let port := settings.port
  let verbosity := settings.verbosity
  let tlm := instantiateDisplays apis
  match sys.sd with
  | none =>
    ⟨.status 1, [.socket none], log verbosity .error (name ++ str ": cannot open socket \n"), []⟩
  | some sd =>
    if !sys.bind sd port then
      ⟨.status 1, [.socket (some sd), .bind sd port false],
        log verbosity .error (name ++ str ": cannot bind port number " ++ fmtD port.toNat ++
          str " \n"), []⟩
    else
      let waiting := log verbosity .info (name ++ str ": waiting for data on port UDP " ++
        fmtU port.toNat ++ str "\n")
      let failed := log verbosity .error (name ++ str ": cannot receive data \n")
      let destroyed := destroyDisplays
        (sys.arrivals.foldl (fun tlm a => (receive verbosity tlm a).1) tlm).display
      { exit := if destroyed.2 then .status 0 else .aborted
        events := .socket (some sd) :: .bind sd port true ::
          (sys.arrivals.map (fun a => .recvfrom sd (some a.data)) ++ [.recvfrom sd none])
        printed := waiting ++ (serve verbosity tlm sys.arrivals).flatten ++ failed
        freed := destroyed.1 }

/-! ## The port -/

/-- The port that an option gives. -/
def portGiven (r : OptionReport) : Option (BitVec 16) :=
  if r.opt = ch 'c' then some ((baseServerPort + atoi (r.optarg.getD []) - 1).setWidth 16)
  else if r.opt = ch 'p' then some ((atoi (r.optarg.getD [])).setWidth 16)
  else none

/-- The port of the last option that gives one. -/
def portOf (rs : List OptionReport) : BitVec 16 :=
  (rs.reverse.findSome? portGiven).getD defaults.port

theorem port_setOption (s : Settings) (r : OptionReport) :
    (setOption s r).port = (portGiven r).getD s.port := by
  unfold setOption portGiven
  split
  · rfl
  split
  · rfl
  split <;> rfl

theorem port_foldl_setOption (rs : List OptionReport) :
    (rs.foldl setOption defaults).port = portOf rs :=
  foldl_last (I := fun _ => True) (g := Settings.port)
    (fun s r _ => ⟨trivial, port_setOption s r⟩) rs trivial

/-- The last option that gives a port decides. -/
theorem portOf_append (rs : List OptionReport) {r : OptionReport} {port : BitVec 16}
    (h : portGiven r = some port) {rs' : List OptionReport}
    (hlast : ∀ r ∈ rs', portGiven r = none) : portOf (rs ++ r :: rs') = port := by
  have hrest : rs'.reverse.findSome? portGiven = none :=
    List.findSome?_eq_none_iff.mpr fun x hx => hlast x (List.mem_reverse.mp hx)
  rw [portOf, List.reverse_append, List.reverse_cons, List.append_assoc, List.findSome?_append,
    hrest]
  simp [h]

/-- The processor with a number, in decimal, is heard at the base port and its number. -/
theorem portGiven_cpu {n : Nat} (h : n < 2 ^ 31) :
    portGiven ⟨ch 'c', some (fmtU n)⟩ = some (BitVec.ofNat 16 (2233 + n)) := by
  have hatoi := atoi_fmtU h
  unfold portGiven baseServerPort
  rw [if_pos rfl, Option.getD_some, hatoi]
  refine congrArg some (BitVec.eq_of_toNat_eq ?_)
  simp
  omega

theorem portGiven_port {n : Nat} (h : n < 2 ^ 31) :
    portGiven ⟨ch 'p', some (fmtU n)⟩ = some (BitVec.ofNat 16 n) := by
  have hatoi := atoi_fmtU h
  have hne : ch 'p' ≠ ch 'c' := by decide
  unfold portGiven
  rw [if_neg hne, if_pos rfl, Option.getD_some, hatoi]
  refine congrArg some (BitVec.eq_of_toNat_eq ?_)
  simp

/-- What the options say about the port. -/
structure GivesPort (rs : List OptionReport) : Prop where
  cpu : ∀ before after n, 2234 + n < 2 ^ 31 → rs = before ++ ⟨ch 'c', some (fmtU n)⟩ :: after →
    (∀ r ∈ after, portGiven r = none) → portOf rs = BitVec.ofNat 16 (2233 + n)
  port : ∀ before after, ∀ n < 2 ^ 31, rs = before ++ ⟨ch 'p', some (fmtU n)⟩ :: after →
    (∀ r ∈ after, portGiven r = none) → portOf rs = BitVec.ofNat 16 n
  base : (∀ r ∈ rs, portGiven r = none) → portOf rs = 2234

/-- The last processor number or port decides. -/
theorem givesPort (rs : List OptionReport) : GivesPort rs where
  cpu before after n hn hrs hlast := hrs ▸ portOf_append before (portGiven_cpu (by omega)) hlast
  port before after n hn hrs hlast := hrs ▸ portOf_append before (portGiven_port hn) hlast
  base hnone := by
    have hrs : rs.reverse.findSome? portGiven = none :=
      List.findSome?_eq_none_iff.mpr fun r hr => hnone r (List.mem_reverse.mp hr)
    rw [portOf, hrs]
    rfl

/-! ## Runs -/

/-- The objects of ready displays are freed up to the first one that is static. -/
theorem destroyDisplays_of_ready {host : EdsHost} {display : List Display}
    (h : Ready host display) {heap : List Storage} (hheap : ∀ s ∈ heap, s = .heap)
    (hstorage : display.map (·.api.storage) = heap ++ [.static]) :
    destroyDisplays display = (heap ++ [.static], false) := by
  induction display generalizing heap with
  | nil => simp at hstorage
  | cons d rest ih =>
    obtain ⟨⟨hsome, -⟩, hrest⟩ := List.forall_mem_cons.mp h
    obtain ⟨api, obj⟩ := d
    cases obj with
    | none => cases hsome
    | some obj =>
      unfold destroyDisplays
      cases heap with
      | nil =>
        -- `free` does not come back from the static object
        have hstatic : api.storage = .static := (List.cons.inj hstorage).1
        rw [hstatic]
        rfl
      | cons s heap =>
        obtain ⟨rfl, hothers⟩ := List.forall_mem_cons.mp hheap
        obtain ⟨hfirst, hstorage⟩ := List.cons.inj hstorage
        have hfirst : api.storage = .heap := hfirst
        rw [hfirst, ih hrest hothers hstorage]
        rfl

theorem Serving.storage {host : EdsHost} {apis : List DisplayApi} {tlm : TlmData}
    (h : Serving host apis tlm) :
    tlm.display.map (·.api.storage) = apis.map DisplayApi.storage := by
  rw [← h.apis, List.map_map]
  rfl

/-- Either build ends with the static object of the PassThru display. -/
theorem storage_of_builds {host : EdsHost} {apis : List DisplayApi}
    (hbuild : apis = displayApis host ∨ apis = [passThruApi]) :
    ∃ heap, (∀ s ∈ heap, s = Storage.heap) ∧
      apis.map DisplayApi.storage = heap ++ [Storage.static] := by
  cases hbuild with
  | inl heq =>
    subst heq
    exact ⟨[.heap], List.forall_mem_singleton.mpr rfl, rfl⟩
  | inr heq =>
    subst heq
    exact ⟨[], List.forall_mem_nil _, rfl⟩

/-- The socket can be had, and the port can be bound to it. -/
def System.Binds (sys : System) (port : BitVec 16) : Prop :=
  ∃ sd, sys.sd = some sd ∧ sys.bind sd port = true

/-- What a run does for some options. -/
structure Serves (host : EdsHost) (apis : List DisplayApi) (rs : List OptionReport)
    (sys : System) (e : Ended) : Prop where
  /-- The port is that of the options, and no other port is tried. -/
  givesPort : GivesPort rs
  port : ∀ sd port ok, .bind sd port ok ∈ e.events → port = portOf rs
  /-- Each datagram is shown, in the order of arrival, between two messages at most. -/
  shown : sys.Binds (portOf rs) → ∃ before blocks after, before.length ≤ 1 ∧ after.length ≤ 1 ∧
    e.printed = before ++ blocks.flatten ++ after ∧
    List.Forall₂ (ShownBy host apis (rs.foldl setOption defaults).verbosity) sys.arrivals blocks
  /-- At the end the object of each display is passed to `free` once, and the last of them
  aborts the program. -/
  aborted : sys.Binds (portOf rs) → e.exit = .aborted ∧ e.freed = apis.map DisplayApi.storage
  /-- A run that does not get there receives nothing and frees nothing. -/
  idle : ¬sys.Binds (portOf rs) →
    e.exit = .status 1 ∧ (∀ sd data, .recvfrom sd data ∉ e.events) ∧ e.freed = []

theorem length_log_le (verbosity : Nat) (lev : LogLevel) (text : Text) :
    (log verbosity lev text).length ≤ 1 := by
  unfold log
  split
  · exact Nat.le_refl 1
  · exact Nat.zero_le 1

/-- However its command line is spelled, the server binds the port that the last `--cpu` or
`--port` gives, shows each datagram, and in the end frees every display. It never returns: the
object of the PassThru display is a static variable. -/
theorem serves_main (host : EdsHost) {apis : List DisplayApi}
    (hbuild : apis = displayApis host ∨ apis = [passThruApi]) {rs : List OptionReport}
    {positional line : List Text} (h : CommandLine optionTable rs positional line) (name : Text)
    (sys : System) : Serves host apis rs sys (main apis name line sys) := by
  obtain ⟨hne, hserving⟩ := serving_of_builds hbuild
  obtain ⟨heap, hheap, hstorage⟩ := storage_of_builds hbuild
  have hreports := (Getopt.scan_of_commandLine (by decide) h).1
  have hport := port_foldl_setOption rs
  unfold main
  rw [hreports]
  dsimp only
  rw [hport]
  have hbinds : sys.Binds (portOf rs) ↔ ∃ sd, sys.sd = some sd ∧ sys.bind sd (portOf rs) = true :=
    Iff.rfl
  cases hsd : sys.sd with
  | none =>
    -- no socket
    dsimp only
    have hnot : ¬sys.Binds (portOf rs) := by simp [hbinds, hsd]
    refine ⟨givesPort rs, fun sd port ok hx => ?_, fun hb => absurd hb hnot,
      fun hb => absurd hb hnot, fun _ => ⟨rfl, ?_, rfl⟩⟩
    · exact absurd hx (by simp)
    · simp
  | some sd =>
    dsimp only
    cases hbind : sys.bind sd (portOf rs) with
    | false =>
      -- the port is taken
      rw [Bool.not_false, if_pos rfl]
      have hnot : ¬sys.Binds (portOf rs) := by simp [hbinds, hsd, hbind]
      refine ⟨givesPort rs, fun sd' port ok hx => ?_, fun hb => absurd hb hnot,
        fun hb => absurd hb hnot, fun _ => ⟨rfl, ?_, rfl⟩⟩
      · have hbound : sd' = sd ∧ port = portOf rs ∧ ok = false := by simpa using hx
        exact hbound.2.1
      · simp
    | true =>
      -- the receive loop, and the objects of the displays behind it
      have hyes : sys.Binds (portOf rs) := ⟨sd, hsd, hbind⟩
      have hlast : Serving host apis (sys.arrivals.foldl
          (fun tlm a => (receive (rs.foldl setOption defaults).verbosity tlm a).1)
          (instantiateDisplays apis)) :=
        List.foldlRecOn sys.arrivals _ hserving fun _ ht a _ => serving_receive ht _ a
      rw [Bool.not_true, if_neg Bool.false_ne_true,
        destroyDisplays_of_ready hlast.ready hheap (hlast.storage.trans hstorage)]
      refine ⟨givesPort rs, fun sd' port ok hx => ?_, fun _ => ?_, fun _ => ⟨rfl, ?_⟩,
        fun hnot => absurd hyes hnot⟩
      · have hbound : sd' = sd ∧ port = portOf rs ∧ ok = true := by simpa using hx
        exact hbound.2.1
      · exact ⟨_, _, _, length_log_le _ _ _, length_log_le _ _ _, rfl,
          shownBy_serve hserving hne _ sys.arrivals⟩
      · exact hstorage.symm

/-- The third processor of a mission, on a system that binds every port. -/
theorem serves_main_cpu :
    portOf [⟨ch 'v', none⟩, ⟨ch 'p', some (str "17")⟩, ⟨ch 'c', some (fmtU 3)⟩] = 2236 ∧
      Serves .sample (displayApis .sample)
        [⟨ch 'v', none⟩, ⟨ch 'p', some (str "17")⟩, ⟨ch 'c', some (fmtU 3)⟩]
        ⟨some 3, fun _ _ => true, [⟨[1, 2, 3], [], fun _ => ⟨fun _ => 255, fun _ => 255⟩⟩]⟩
        (main (displayApis .sample) (str "tlm_recv")
          [str "-v", str "--port", str "17", str "--cpu=3"]
          ⟨some 3, fun _ _ => true, [⟨[1, 2, 3], [], fun _ => ⟨fun _ => 255, fun _ => 255⟩⟩]⟩) := by
  have hline : CommandLine optionTable
      [⟨ch 'v', none⟩, ⟨ch 'p', some (str "17")⟩, ⟨ch 'c', some (fmtU 3)⟩] []
      [str "-v", str "--port", str "17", str "--cpu=3"] :=
    .option (@Spells.flags _ (ch 'v') [] (by decide))
      (.option (@Spells.longSeparate _ (str "port") (str "17") ⟨str "port", true, ch 'p'⟩
          (by decide) rfl (by decide) (by decide))
        (.option (@Spells.longJoined _ (str "cpu") (fmtU 3) ⟨str "cpu", true, ch 'c'⟩
          (by decide) rfl (by decide)) .nil))
  refine ⟨?_, serves_main .sample (Or.inl rfl) hline _ _⟩
  exact portOf_append [⟨ch 'v', none⟩, ⟨ch 'p', some (str "17")⟩] (portGiven_cpu (by decide))
    fun _ hx => absurd hx List.not_mem_nil

end CmdSend.TlmRecv
