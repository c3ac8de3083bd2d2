import OpenvpnServer.Lib.Netip

namespace OpenvpnServer.Relay

open OpenvpnServer.Lib OpenvpnServer.Lib.Netip

structure PortalConfig where
  host : Text
  target : Text
  hosts : List Text
  deriving DecidableEq, Repr

-- The policy service's answer for one credential, as decoded.
structure Policy where
  credentialID : Text
  client : Text
  cidrs : List Text
  blockedCIDRs : List Text
  url : Text
  guest : Bool
  portal : Option PortalConfig
  deriving DecidableEq, Repr

-- The portal hostname and the guest links' hostnames, with the one address
-- they are all pinned to.
structure GuestPortal where
  hosts : List Text
  target : AddrPort
  deriving DecidableEq, Repr

-- A policy after `compile`. The source keeps both in one struct and compiles on
-- first use; here an uncompiled policy has no `allows`.
structure CompiledPolicy where
  policy : Policy
  guestPortal : Option GuestPortal
  allowedPrefixes : List Prefix
  blockedPrefixes : List Prefix
  deriving DecidableEq, Repr

section Portal

-- The lower case of a single rune, which no result below depends on.
variable (unicodeLower : Char → Char)

def normalHost (host : Text) : Text :=
  (if host.getLast? = some '.' then host.dropLast else host).map unicodeLower

def hostForbidden : List Char :=
  [':', '/', ' ', '\\', '?', '#', '@', '\t', '\r', '\n']

-- The hosts in the order they are entered; the first one that is not a plain
-- hostname makes the whole portal an error.
def portalHosts : List Text → Option (List Text)
  | [] => some []
  | value :: rest =>
      let host := normalHost unicodeLower value
      if host = [] ∨ host.any (· ∈ hostForbidden) then none
      else (portalHosts rest).map (host :: ·)

def parseGuestPortal (c : PortalConfig) : Option GuestPortal :=
  match parseAddrPort c.target with
  | none => none
  | some target =>
      if !target.addr.is4 ∨ !target.addr.isGlobalUnicast ∨ target.port < 1024 then none
      else (portalHosts unicodeLower (c.host :: c.hosts)).map fun hosts => ⟨hosts, target⟩

def parsePrefixes (values : List Text) : Option (List Prefix) :=
  values.mapM fun value => (parsePrefix value).map Prefix.masked

-- Only a guest's portal is parsed; a full client's is ignored.
def compilePortal (p : Policy) : Option (Option GuestPortal) :=
  match p.guest, p.portal with
  | true, some c => (parseGuestPortal unicodeLower c).map some
  | _, _ => some none

def Policy.compile (p : Policy) : Option CompiledPolicy := do
  let guestPortal ← compilePortal unicodeLower p
  let allowedPrefixes ← parsePrefixes p.cidrs
  let blockedPrefixes ← parsePrefixes p.blockedCIDRs
  pure ⟨p, guestPortal, allowedPrefixes, blockedPrefixes⟩

end Portal

section Host

-- The relay host's interface addresses as `net.InterfaceAddrs` prints them.
variable (interfaceAddrs : List Text)

def hostNetworks : List Prefix :=
  (interfaceAddrs.filterMap parsePrefix).map Prefix.masked

def sharedSpace : Prefix := ⟨.v4 (BitVec.ofNat 32 0x64400000), 10, by decide, rfl⟩

def guestBlocked : List Prefix := sharedSpace :: hostNetworks interfaceAddrs

def localForGuests (addr : Addr) (extra : List Prefix) : Bool :=
  addr.isPrivate || (guestBlocked interfaceAddrs).any (·.contains addr) ||
    extra.any (·.contains addr)

def CompiledPolicy.allows (p : CompiledPolicy) (addr : Addr) : Bool :=
  let addr := addr.unmap
  if addr.isLoopback || addr.isUnspecified || addr.isMulticast || addr.isLinkLocalUnicast ||
      addr.isLinkLocalMulticast then false
  else if p.policy.guest && localForGuests interfaceAddrs addr p.blockedPrefixes then false
  else p.allowedPrefixes.any (·.contains addr)

end Host

inductive DestinationError where
  | invalidTarget
  | dnsFailed
  | destinationDenied
  deriving DecidableEq, Repr

-- Host and port of "host:port" or "[host]:port", split at the last colon.
def splitHostPort (hostport : Text) : Option (Text × Text) :=
  match cutLast ':' hostport with
  | none => none
  | some (before, port) =>
      match before with
      | '[' :: rest =>
          match cutFirst ']' rest with
          | some (host, []) =>
              if host.contains '[' || port.contains '[' || port.contains ']' then none
              else some (host, port)
          | _ => none
      | _ =>
          if before.contains ':' || hostport.contains '[' || hostport.contains ']' then none
          else some (before, port)

-- An optional sign and decimal digits.
def atoi (s : Text) : Option Int :=
  match s with
  | '+' :: digits => (decimal? digits).map Int.ofNat
  | '-' :: digits => (decimal? digits).map fun n => -Int.ofNat n
  | digits => (decimal? digits).map Int.ofNat

def maxCandidates : Nat := 16

section Resolve

variable (interfaceAddrs : List Text)

-- `lookup` is what DNS answers for the host, `none` when the lookup fails.
def resolveAll (target : Text) (p : CompiledPolicy) (lookup : Option (List Addr)) :
    Except DestinationError (List AddrPort) :=
  match splitHostPort target with
  | none => .error .invalidTarget
  | some (_, portText) =>
      match atoi portText with
      | none => .error .invalidTarget
      | some port =>
          if port < 1 ∨ 65535 < port then .error .invalidTarget
          else
            match lookup with
            | none => .error .dnsFailed
            | some addrs =>
                let allowed := ((addrs.filter (p.allows interfaceAddrs)).take maxCandidates).map
                  fun addr => (⟨addr.unmap, port.toNat⟩ : AddrPort)
                if allowed = [] then .error .destinationDenied else .ok allowed

variable (unicodeLower : Char → Char)

-- The portal target a flow is pinned to, when it is one of a guest's portal flows.
def pinnedTarget (p : CompiledPolicy) (tcp : Bool) (host portText : Text) : Option AddrPort :=
  match p.policy.guest, p.guestPortal with
  | true, some portal =>
      if tcp = true ∧ portText = "443".toList ∧ normalHost unicodeLower host ∈ portal.hosts then
        some portal.target
      else none
  | _, _ => none

-- The value remembered in the flow's context, and the addresses it may dial.
def resolveDestination (target : Text) (p : CompiledPolicy) (tcp : Bool)
    (lookup : Option (List Addr)) :
    Except DestinationError (Option AddrPort × List AddrPort) :=
  match splitHostPort target with
  | none => .error .invalidTarget
  | some (host, portText) =>
      match pinnedTarget unicodeLower p tcp host portText with
      | some portalTarget => .ok (some portalTarget, [portalTarget])
      | none => (resolveAll interfaceAddrs target p lookup).map fun addresses => (none, addresses)

end Resolve

end OpenvpnServer.Relay
