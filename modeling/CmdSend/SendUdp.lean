-- SUMMARY: SendUdp of send_udp.c: the calls of the socket interface that send a packet, for any network.
import CmdSend.Lib.Numeral

/-!
# Sending a packet

`SendUdp` goes through the addresses of a host until a socket connects to one of them. The
operating system is a parameter: each call takes its state to another one, and nothing is
assumed of its answers. `Event` lists the calls that were made, with what they returned.
-/

namespace CmdSend.Udp

open CLib

/-- A call of the socket interface. A socket or a list of addresses that could not be had is
`none`. -/
inductive Event (AddrInfo : Type)
  | getaddrinfo (hostname portNum : Text) (result : Option (List AddrInfo))
  | socket (rp : AddrInfo) (sd : Option Nat)
  | connect (sd : Nat) (rp : AddrInfo) (ok : Bool)
  | getnameinfo (rp : AddrInfo)
  | send (sd : Nat) (packet : List Byte) (rc : Int)
  | close (sd : Nat)
  | freeaddrinfo (result : List AddrInfo)

/-- The operating system. The addresses are those for datagrams over IPv4. -/
structure Network where
  World : Type
  AddrInfo : Type
  getaddrinfo : World → Text → Text → Option (List AddrInfo) × World
  socket : World → AddrInfo → Option Nat × World
  connect : World → Nat → AddrInfo → Bool × World
  getnameinfo : World → AddrInfo → World
  send : World → Nat → List Byte → Int × World
  close : World → Nat → World
  freeaddrinfo : World → List AddrInfo → World

/-- A network that connects to the first address and sends everything. -/
def Network.loopback : Network where
  World := Unit
  AddrInfo := Unit
  getaddrinfo _ _ _ := (some [()], ())
  socket _ _ := (some 3, ())
  connect _ _ _ := (true, ())
  getnameinfo _ _ := ()
  send _ _ packet := (packet.length, ())
  close _ _ := ()
  freeaddrinfo _ _ := ()

variable (net : Network)

/-- What the loop over the addresses leaves: the address and the socket that it has ended
with. -/
structure Attempt where
  found : Option (net.AddrInfo × Nat)
  world : net.World
  events : List (Event net.AddrInfo)

/-- What `SendUdp` returns and leaves behind. -/
structure Sent where
  rc : Int
  world : net.World
  events : List (Event net.AddrInfo)

/-- The loop over the addresses. -/
def tryAddresses : net.World → List net.AddrInfo → Attempt net
  | world, [] => ⟨none, world, []⟩
  | world, rp :: rest =>
    match net.socket world rp with
    | (none, world) =>
      let r := tryAddresses world rest
      { r with events := .socket rp none :: r.events }
    | (some sd, world) =>
      match net.connect world sd rp with
      | (true, world) => ⟨some (rp, sd), world, [.socket rp (some sd), .connect sd rp true]⟩
      | (false, world) =>
        let r := tryAddresses (net.close world sd) rest
        { r with events := .socket rp (some sd) :: .connect sd rp false :: .close sd :: r.events }

/-- `SendUdp`, with the packet in place of its address and its size. A null pointer for the
host is `none`. -/
def sendUdp (world : net.World) (hostname : Option Text) (portNum : Text) (packet : List Byte) :
    Sent net :=
  match hostname with
  | none => ⟨-1, world, []⟩
  | some hostname =>
    if atoi portNum = -1 then ⟨-2, world, []⟩
    else
      match net.getaddrinfo world hostname portNum with
      | (none, world) => ⟨-3, world, [.getaddrinfo hostname portNum none]⟩
      | (some result, world) =>
        let tried := tryAddresses net world result
        let events := .getaddrinfo hostname portNum (some result) :: tried.events
        match tried.found with
        | none =>
          ⟨-4, net.freeaddrinfo tried.world result, events ++ [.freeaddrinfo result]⟩
        | some (rp, sd) =>
          let world := net.freeaddrinfo (net.getnameinfo tried.world rp) result
          let (rc, world) := net.send world sd packet
          ⟨if rc ≠ packet.length then -6 else 0, net.close world sd,
            events ++ [.getnameinfo rp, .freeaddrinfo result, .send sd packet rc, .close sd]⟩

/-! ## The resources -/

/-- What a program holds of the system: a socket, with whether it is connected, and a list
of addresses. -/
structure Held (AddrInfo : Type) where
  sd : Option (Nat × Bool)
  result : Option (List AddrInfo)

/-- The calls that are allowed with what is held, and what is held after them. -/
inductive Held.Step {AddrInfo : Type} : Held AddrInfo → Event AddrInfo → Held AddrInfo → Prop
  | getaddrinfo (hostname portNum : Text) (result : Option (List AddrInfo)) :
      Step ⟨none, none⟩ (.getaddrinfo hostname portNum result) ⟨none, result⟩
  | socket {result : List AddrInfo} {rp : AddrInfo} (sd : Option Nat) : rp ∈ result →
      Step ⟨none, some result⟩ (.socket rp sd) ⟨sd.map (·, false), some result⟩
  | connect {result : List AddrInfo} {rp : AddrInfo} (sd : Nat) (ok : Bool) : rp ∈ result →
      Step ⟨some (sd, false), some result⟩ (.connect sd rp ok) ⟨some (sd, ok), some result⟩
  | getnameinfo {result : List AddrInfo} {rp : AddrInfo} (sd : Option (Nat × Bool)) :
      rp ∈ result → Step ⟨sd, some result⟩ (.getnameinfo rp) ⟨sd, some result⟩
  | send (sd : Nat) (result : Option (List AddrInfo)) (packet : List Byte) (rc : Int) :
      Step ⟨some (sd, true), result⟩ (.send sd packet rc) ⟨some (sd, true), result⟩
  | close (sd : Nat) (ok : Bool) (result : Option (List AddrInfo)) :
      Step ⟨some (sd, ok), result⟩ (.close sd) ⟨none, result⟩
  | freeaddrinfo (sd : Option (Nat × Bool)) (result : List AddrInfo) :
      Step ⟨sd, some result⟩ (.freeaddrinfo result) ⟨sd, none⟩

/-- A sequence of allowed calls. -/
inductive Held.Run {AddrInfo : Type} : Held AddrInfo → List (Event AddrInfo) →
    Held AddrInfo → Prop
  | nil (h : Held AddrInfo) : Run h [] h
  | cons {h h₁ h' : Held AddrInfo} {e : Event AddrInfo} {es : List (Event AddrInfo)} :
      Step h e h₁ → Run h₁ es h' → Run h (e :: es) h'

theorem Held.Run.append {AddrInfo : Type} {h h₁ h' : Held AddrInfo}
    {es es' : List (Event AddrInfo)} (hrun : Run h es h₁) (hrun' : Run h₁ es' h') :
    Run h (es ++ es') h' := by
  induction hrun with
  | nil => exact hrun'
  | cons hstep _ ih => exact .cons hstep (ih hrun')

variable {net}

/-- The address that the loop ends with is one of those it was given. -/
theorem mem_of_found {world : net.World} {rest : List net.AddrInfo} {rp : net.AddrInfo} {sd : Nat}
    (h : (tryAddresses net world rest).found = some (rp, sd)) : rp ∈ rest := by
  induction rest generalizing world with
  | nil => cases h
  | cons x rest ih =>
    unfold tryAddresses at h
    split at h
    · exact List.mem_cons_of_mem x (ih h)
    · split at h
      · obtain ⟨rfl, -⟩ := Prod.mk.inj (Option.some.inj h)
        exact List.mem_cons_self
      · exact List.mem_cons_of_mem x (ih h)

/-- The loop closes each socket that does not connect. -/
theorem run_tryAddresses (result rest : List net.AddrInfo) (h : ∀ rp ∈ rest, rp ∈ result)
    (world : net.World) :
    Held.Run ⟨none, some result⟩ (tryAddresses net world rest).events
      ⟨(tryAddresses net world rest).found.map fun f => (f.2, true), some result⟩ := by
  induction rest generalizing world with
  | nil => exact .nil _
  | cons rp rest ih =>
    have hrp := h rp List.mem_cons_self
    have hrest : ∀ rp ∈ rest, rp ∈ result := fun x hx => h x (List.mem_cons_of_mem rp hx)
    unfold tryAddresses
    cases hsocket : net.socket world rp with
    | mk sd world₁ =>
      cases sd with
      | none => exact .cons (.socket none hrp) (ih hrest world₁)
      | some sd =>
        simp only
        cases hconnect : net.connect world₁ sd rp with
        | mk ok world₂ =>
          cases ok with
          | true => exact .cons (.socket (some sd) hrp) (.cons (.connect sd true hrp) (.nil _))
          | false =>
            exact .cons (.socket (some sd) hrp) (.cons (.connect sd false hrp)
              (.cons (.close sd false _) (ih hrest _)))

/-- `SendUdp` makes only allowed calls, and holds nothing when it returns: every socket is
closed once and the addresses are freed once, whatever fails, and no address is used after
that. -/
theorem run_sendUdp (world : net.World) (hostname : Option Text) (portNum : Text)
    (packet : List Byte) :
    Held.Run ⟨none, none⟩ (sendUdp net world hostname portNum packet).events ⟨none, none⟩ := by
  unfold sendUdp
  cases hostname with
  | none => exact .nil _
  | some hostname =>
    simp only
    split
    · exact .nil _
    cases hlookup : net.getaddrinfo world hostname portNum with
    | mk found world₁ =>
      cases found with
      | none => exact .cons (.getaddrinfo ..) (.nil _)
      | some result =>
        have htried := run_tryAddresses result result (fun _ h => h) world₁
        simp only
        cases hfound : (tryAddresses net world₁ result).found with
        | none =>
          rw [hfound] at htried
          exact .cons (.getaddrinfo ..) (htried.append (.cons (.freeaddrinfo ..) (.nil _)))
        | some f =>
          rw [hfound] at htried
          exact .cons (.getaddrinfo ..) (htried.append
            (.cons (.getnameinfo _ (mem_of_found hfound)) (.cons (.freeaddrinfo ..)
              (.cons (.send ..) (.cons (.close ..) (.nil _))))))

/-! ## The delivery -/

/-- The addresses that a socket was asked for. -/
def asked {AddrInfo : Type} (events : List (Event AddrInfo)) : List AddrInfo :=
  events.filterMap fun
    | .socket rp _ => some rp
    | _ => none

/-- The sockets that connected. -/
def connected {AddrInfo : Type} (events : List (Event AddrInfo)) : List (Nat × AddrInfo) :=
  events.filterMap fun
    | .connect sd rp true => some (sd, rp)
    | _ => none

/-- What was sent, with what the system made of it. -/
def sends {AddrInfo : Type} (events : List (Event AddrInfo)) : List (Nat × List Byte × Int) :=
  events.filterMap fun
    | .send sd packet rc => some (sd, packet, rc)
    | _ => none

/-- The loop ends at the first address that a socket connects to. -/
theorem tryAddresses_spec (world : net.World) (rest : List net.AddrInfo) :
    sends (tryAddresses net world rest).events = [] ∧
      match (tryAddresses net world rest).found with
      | none => asked (tryAddresses net world rest).events = rest ∧
          connected (tryAddresses net world rest).events = []
      | some (rp, sd) => ∃ before after, rest = before ++ rp :: after ∧
          asked (tryAddresses net world rest).events = before ++ [rp] ∧
          connected (tryAddresses net world rest).events = [(sd, rp)] := by
  induction rest generalizing world with
  | nil => exact ⟨rfl, rfl, rfl⟩
  | cons rp rest ih =>
    unfold tryAddresses
    cases hsocket : net.socket world rp with
    | mk sd world₁ =>
      cases sd with
      | none =>
        obtain ⟨hsends, hspec⟩ := ih world₁
        refine ⟨hsends, ?_⟩
        simp only
        cases hfound : (tryAddresses net world₁ rest).found with
        | none =>
          simp only [hfound] at hspec ⊢
          exact ⟨congrArg (rp :: ·) hspec.1, hspec.2⟩
        | some f =>
          simp only [hfound] at hspec ⊢
          obtain ⟨before, after, hrest, hasked, hconnected⟩ := hspec
          exact ⟨rp :: before, after, congrArg (rp :: ·) hrest, congrArg (rp :: ·) hasked,
            hconnected⟩
      | some sd =>
        simp only
        cases hconnect : net.connect world₁ sd rp with
        | mk ok world₂ =>
          cases ok with
          | true => exact ⟨rfl, [], rest, rfl, rfl, rfl⟩
          | false =>
            obtain ⟨hsends, hspec⟩ := ih (net.close world₂ sd)
            refine ⟨hsends, ?_⟩
            simp only
            cases hfound : (tryAddresses net (net.close world₂ sd) rest).found with
            | none =>
              simp only [hfound] at hspec ⊢
              exact ⟨congrArg (rp :: ·) hspec.1, hspec.2⟩
            | some f =>
              simp only [hfound] at hspec ⊢
              obtain ⟨before, after, hrest, hasked, hconnected⟩ := hspec
              exact ⟨rp :: before, after, congrArg (rp :: ·) hrest, congrArg (rp :: ·) hasked,
                hconnected⟩

/-- The loop looks no host up. -/
theorem getaddrinfo_notMem_tryAddresses (world : net.World) (rest : List net.AddrInfo)
    (host port : Text) (result : Option (List net.AddrInfo)) :
    .getaddrinfo host port result ∉ (tryAddresses net world rest).events := by
  induction rest generalizing world with
  | nil => exact List.not_mem_nil
  | cons rp rest ih =>
    unfold tryAddresses
    split
    · simp [ih]
    · split
      · simp
      · simp [ih]

/-- The host that is looked up is the one that was given. -/
theorem eq_of_getaddrinfo_mem {world : net.World} {hostname : Option Text} {portNum : Text}
    {packet : List Byte} {host port : Text} {result : Option (List net.AddrInfo)}
    (h : .getaddrinfo host port result ∈ (sendUdp net world hostname portNum packet).events) :
    hostname = some host ∧ portNum = port := by
  unfold sendUdp at h
  cases hostname with
  | none => cases h
  | some hostname =>
    simp only at h
    split at h
    · cases h
    · split at h
      · simp_all
      · rename_i result' world₁ _
        have hloop := getaddrinfo_notMem_tryAddresses world₁ result' host port result
        split at h
        · simp_all
        · simp_all

/-- The ways through `SendUdp`. -/
inductive Outcome (hostname : Option Text) (portNum : Text) (packet : List Byte) : Sent net → Prop
  | noCall {s : Sent net} : s.rc = -1 ∨ s.rc = -2 → s.events = [] →
      Outcome hostname portNum packet s
  | noAddress {s : Sent net} {host : Text} : hostname = some host → s.rc = -3 →
      s.events = [.getaddrinfo host portNum none] → Outcome hostname portNum packet s
  | noSocket {s : Sent net} {host : Text} {result : List net.AddrInfo} : hostname = some host →
      s.rc = -4 → .getaddrinfo host portNum (some result) ∈ s.events → asked s.events = result →
      connected s.events = [] → sends s.events = [] → Outcome hostname portNum packet s
  | sent {s : Sent net} {host : Text} {before after : List net.AddrInfo} {rp : net.AddrInfo}
      {rc : Int} (sd : Nat) : hostname = some host →
      s.rc = (if rc ≠ packet.length then -6 else 0) →
      .getaddrinfo host portNum (some (before ++ rp :: after)) ∈ s.events →
      asked s.events = before ++ [rp] → connected s.events = [(sd, rp)] →
      sends s.events = [(sd, packet, rc)] → Outcome hostname portNum packet s

theorem outcome_sendUdp (world : net.World) (hostname : Option Text) (portNum : Text)
    (packet : List Byte) :
    Outcome hostname portNum packet (sendUdp net world hostname portNum packet) := by
  unfold sendUdp
  cases hostname with
  | none => exact .noCall (Or.inl rfl) rfl
  | some hostname =>
    simp only
    split
    · exact .noCall (Or.inr rfl) rfl
    cases hlookup : net.getaddrinfo world hostname portNum with
    | mk found world₁ =>
      cases found with
      | none => exact .noAddress rfl rfl rfl
      | some result =>
        obtain ⟨hsends, hspec⟩ := tryAddresses_spec world₁ result
        simp only
        cases hfound : (tryAddresses net world₁ result).found with
        | none =>
          simp only [hfound] at hspec
          refine .noSocket rfl rfl List.mem_cons_self ?_ ?_ ?_
          · simpa [asked] using hspec.1
          · simpa [connected] using hspec.2
          · simpa [sends] using hsends
        | some f =>
          simp only [hfound] at hspec
          obtain ⟨before, after, hresult, hasked, hconnected⟩ := hspec
          subst hresult
          refine .sent f.2 rfl rfl List.mem_cons_self ?_ ?_ ?_
          · simpa [asked] using hasked
          · simpa [connected] using hconnected
          · simpa [sends] using hsends

theorem sends_sendUdp (world : net.World) (hostname : Option Text) (portNum : Text)
    (packet : List Byte) :
    sends (sendUdp net world hostname portNum packet).events = [] ∨
      ∃ sd rc, sends (sendUdp net world hostname portNum packet).events = [(sd, packet, rc)] := by
  have hout := outcome_sendUdp world hostname portNum packet
  generalize sendUdp net world hostname portNum packet = s at hout
  cases hout with
  | noCall _ hevents | noAddress _ _ hevents => exact Or.inl (by rw [hevents]; rfl)
  | noSocket _ _ _ _ _ hsends => exact Or.inl hsends
  | sent sd _ _ _ _ _ hsends => exact Or.inr ⟨sd, _, hsends⟩

/-- What is sent, and to which of the addresses. -/
structure Delivers (hostname : Option Text) (portNum : Text) (packet : List Byte)
    (s : Sent net) : Prop where
  address : ∀ x ∈ sends s.events, ∃ host before rp after sd rc, hostname = some host ∧
    .getaddrinfo host portNum (some (before ++ rp :: after)) ∈ s.events ∧
    asked s.events = before ++ [rp] ∧ connected s.events = [(sd, rp)] ∧
    sends s.events = [(sd, packet, rc)]
  success : s.rc = 0 ↔ ∃ sd, sends s.events = [(sd, packet, (packet.length : Int))]
  short : s.rc = -6 ↔ ∃ sd rc, rc ≠ (packet.length : Int) ∧ sends s.events = [(sd, packet, rc)]
  noSocket : s.rc = -4 → sends s.events = [] ∧ connected s.events = [] ∧
    .getaddrinfo (hostname.getD []) portNum (some (asked s.events)) ∈ s.events
  noAddress : s.rc = -3 → s.events = [.getaddrinfo (hostname.getD []) portNum none]
  noCall : s.rc = -1 ∨ s.rc = -2 ↔ s.events = []

/-- Where nothing is sent, only the values that are returned matter. -/
theorem delivers_of_none {hostname : Option Text} {portNum : Text} {packet : List Byte}
    {s : Sent net} (hsends : sends s.events = []) (hrc : s.rc ≠ 0 ∧ s.rc ≠ -6)
    (hsocket : s.rc = -4 → connected s.events = [] ∧
      .getaddrinfo (hostname.getD []) portNum (some (asked s.events)) ∈ s.events)
    (haddress : s.rc = -3 → s.events = [.getaddrinfo (hostname.getD []) portNum none])
    (hcall : s.rc = -1 ∨ s.rc = -2 ↔ s.events = []) : Delivers hostname portNum packet s where
  address x hx := by
    rw [hsends] at hx
    exact absurd hx List.not_mem_nil
  success := by simp [hsends, hrc.1]
  short := by simp [hsends, hrc.2]
  noSocket h := ⟨hsends, hsocket h⟩
  noAddress := haddress
  noCall := hcall

/-- A packet is sent at most once and whole, on the socket of the first address that one
could be connected to, and the value that is returned says how far it came. -/
theorem delivers_sendUdp (world : net.World) (hostname : Option Text) (portNum : Text)
    (packet : List Byte) :
    Delivers hostname portNum packet (sendUdp net world hostname portNum packet) := by
  have hout := outcome_sendUdp world hostname portNum packet
  generalize sendUdp net world hostname portNum packet = s at hout
  cases hout with
  | noCall hrc hevents =>
    refine delivers_of_none (by rw [hevents]; rfl) ?_ ?_ ?_ (iff_of_true hrc hevents)
    · omega
    · omega
    · omega
  | noAddress hhost hrc hevents =>
    subst hhost
    refine delivers_of_none (by rw [hevents]; rfl) ?_ ?_ (fun _ => hevents) ?_
    · omega
    · omega
    · exact iff_of_false (by omega) (by rw [hevents]; exact List.cons_ne_nil _ _)
  | noSocket hhost hrc hmem hasked hconnected hsends =>
    subst hhost hasked
    refine delivers_of_none hsends ?_ (fun _ => ⟨hconnected, hmem⟩) ?_ ?_
    · omega
    · omega
    · exact iff_of_false (by omega) (List.ne_nil_of_mem hmem)
  | @sent host before after rp rc sd hhost hrc hmem hasked hconnected hsends =>
    have hcode : s.rc = 0 ∧ rc = packet.length ∨ s.rc = -6 ∧ rc ≠ packet.length := by
      rw [hrc]
      split
      · rename_i hne
        exact Or.inr ⟨rfl, hne⟩
      · rename_i heq
        exact Or.inl ⟨rfl, not_not.mp heq⟩
    constructor
    · exact fun _ _ => ⟨host, before, rp, after, sd, rc, hhost, hmem, hasked, hconnected, hsends⟩
    · rw [hsends]
      simp
      omega
    · rw [hsends]
      simp
      omega
    · omega
    · omega
    · exact iff_of_false (by omega) (List.ne_nil_of_mem hmem)

end CmdSend.Udp
