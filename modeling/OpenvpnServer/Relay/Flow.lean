import OpenvpnServer.Relay.Policy

namespace OpenvpnServer.Relay

open OpenvpnServer.Lib OpenvpnServer.Lib.Netip

inductive DialError where
  | refused
  | unreachable
  | contextEnded
  | noDestination
  deriving DecidableEq, Repr

-- What the receiving loop of `dialTCP` sees next: the end of its context, or
-- the result of the dial to the `i`-th address.
inductive Received (addresses : List AddrPort) where
  | done
  | result (i : Fin addresses.length) (err : Option DialError)

inductive Dialed where
  | connected (addr : AddrPort)
  | failed (err : DialError)
  deriving DecidableEq, Repr

-- One turn per address; `none` while the loop is still waiting.
def dialLoop (addresses : List AddrPort) :
    Nat → DialError → List (Received addresses) → Option Dialed
  | 0, last, _ => some (.failed last)
  | _ + 1, _, [] => none
  | _ + 1, _, .done :: _ => some (.failed .contextEnded)
  | _ + 1, _, .result i none :: _ => some (.connected (addresses.get i))
  | turns + 1, _, .result _ (some err) :: rest => dialLoop addresses turns err rest

def dialTCP (addresses : List AddrPort) (received : List (Received addresses)) : Option Dialed :=
  dialLoop addresses addresses.length .noDestination received

-- The second attempt is made only after a refused first one, while the shared
-- context has not ended by the check after it or during the pause.
def connectTCP (addresses : List AddrPort) (first : List (Received addresses))
    (endedAfterFirst endedInPause : Bool) (second : List (Received addresses)) : Option Dialed :=
  match dialTCP addresses first with
  | none => none
  | some (.connected addr) => some (.connected addr)
  | some (.failed err) =>
      if endedAfterFirst then some (.failed err)
      else if err ≠ .refused then some (.failed err)
      else if endedInPause then some (.failed .contextEnded)
      else dialTCP addresses second

-- The first candidate whose socket can be opened.
def dialUDP (addresses : List AddrPort) (opens : AddrPort → Bool) : Option AddrPort :=
  addresses.find? opens

inductive DialRun (addresses : List AddrPort) where
  | tcp (first : List (Received addresses)) (endedAfterFirst endedInPause : Bool)
      (second : List (Received addresses))
  | udp (opens : AddrPort → Bool)

def dialedAddr (addresses : List AddrPort) : DialRun addresses → Option AddrPort
  | .tcp first endedAfterFirst endedInPause second =>
      match connectTCP addresses first endedAfterFirst endedInPause second with
      | some (.connected addr) => some addr
      | _ => none
  | .udp opens => dialUDP addresses opens

-- An open flow: its target, the portal target remembered in its context, the
-- address it was dialled at and the relay URL it was authorized under.
structure Flow where
  target : Text
  tcp : Bool
  pinned : Option AddrPort
  addr : Addr
  origin : Text
  deriving DecidableEq, Repr

section Serve

variable (interfaceAddrs : List Text) (unicodeLower : Char → Char)

-- The part of `ServeHTTP` after a successful authorization: resolve the target,
-- dial one of the validated addresses, remember what the recheck needs.
def Admitted (p : CompiledPolicy) (flow : Flow) : Prop :=
  ∃ lookup addresses dialed,
    resolveDestination interfaceAddrs unicodeLower flow.target p flow.tcp lookup =
      .ok (flow.pinned, addresses) ∧
    (∃ run : DialRun addresses, (flow.tcp = true ↔ ∃ a b c d, run = .tcp a b c d) ∧
      dialedAddr addresses run = some dialed) ∧
    flow.addr = dialed.addr ∧ flow.origin = p.policy.url

-- Whether an open flow is a guest's portal flow that the current policy still
-- permits. Only the remembered target is compared, not the hostname.
def portalFlow (flow : Flow) (addr : Addr) (p : CompiledPolicy) : Bool :=
  match flow.pinned, p.guestPortal with
  | some target, some portal => target = portal.target ∧ target.addr = addr
  | _, _ => false

def staysOpen (flow : Flow) (answer : Option CompiledPolicy) : Bool :=
  match answer with
  | none => false
  | some p =>
      if p.policy.url ≠ flow.origin then false
      else p.allows interfaceAddrs flow.addr || portalFlow flow flow.addr p

end Serve

end OpenvpnServer.Relay
