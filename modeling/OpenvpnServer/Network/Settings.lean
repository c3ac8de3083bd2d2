import OpenvpnServer.Lib.Ipaddress

namespace OpenvpnServer.Network

open OpenvpnServer.Lib OpenvpnServer.Lib.Ipaddress

structure Service where
  name : Text
  host : Text
  url : Text
  isPublic : Bool
  paths : List Text
  insecureTls : Bool
  deriving DecidableEq, Repr

structure GuestLink where
  url : Text
  wholeSite : Bool
  deriving DecidableEq, Repr

structure Gateway where
  domain : Text
  openvpnHost : Text
  openvpnBackend : Text
  relayHost : Text
  relayBackend : Text
  relayPublicUrl : Text
  portalListener : Text
  trustedCidrs : List Text
  guestLinks : List GuestLink
  replaceServices : Bool
  services : List Service
  deriving DecidableEq, Repr

structure NetworkSettings where
  vpnSubnet : Text
  poolFirst : Text
  poolLast : Text
  guestSubnet : Text
  dnsServers : List Text
  routes : List Text
  proxyCidrs : List Text
  gateway : Gateway
  deriving DecidableEq, Repr

-- A split URL. Reading the port can be a `ValueError`, the outer `none`.
structure Url where
  scheme : Text
  hostname : Option Text
  username : Option Text
  password : Option Text
  port : Option (Option Nat)
  path : Text
  query : Text
  fragment : Text

-- What no result depends on: Unicode lower case and digits, `repr`, and
-- `urllib`, whose `urlsplit` can be a `ValueError`.
structure Python where
  lower : Text → Text
  isDigit : Char → Bool
  int : Text → Option Nat
  repr : Text → Text
  urlsplit : Text → Option Url
  urlunsplit : Text → Text → Text → Text → Text → Text

-- A `PkiError` with its message, or a `ValueError` that is not turned into one.
inductive Failure where
  | pki (message : Text)
  | valueError
  deriving DecidableEq, Repr

def refuse {α : Type} (message : String) : Except Failure α := .error (.pki message.toList)

section Helpers

variable (python : Python)

-- [\s`{}\\]
def unsafeChar (c : Char) : Bool := pySpace c || c ∈ [Char.ofNat 96, '{', '}', '\\']

-- [a-z0-9](?:[a-z0-9-]{0,61}[a-z0-9])?
def isLabel (label : Text) : Bool :=
  let alnum (c : Char) : Bool := c.isLower || c.isDigit
  label.length ≤ 63 && label.all (fun c => alnum c || c = '-') && label.head?.any alnum &&
    label.getLast?.any alnum

-- HOSTNAME.fullmatch
def isHostname (text : Text) : Bool :=
  2 ≤ (text.splitOn '.').length && (text.splitOn '.').all isLabel

def hostname (value : Text) : Except Failure Text :=
  let value := (python.lower (pyStrip value)).rdropWhile (· = '.')
  if 253 < value.length ∨ isHostname value = false then
    refuse "Enter a DNS hostname without a scheme, path or port"
  else .ok value

def cidrsRefused : Failure :=
  .pki "Enter network CIDRs such as 192.0.2.0/24; /0 networks are not allowed".toList

def cidrNetworks (values : List Text) (ipv4 : Bool) : Except Failure (List IpNetwork) :=
  match values.mapM fun value => ipNetwork (pyStrip value) with
  | none => .error cidrsRefused
  | some networks =>
      if networks.any fun net => net.prefixlen = 0 || (ipv4 && !net.is4) then .error cidrsRefused
      else .ok networks

def cidrs (values : List Text) (ipv4 : Bool) : Except Failure (List Text) :=
  match cidrNetworks values ipv4 with
  | .error failure => .error failure
  | .ok networks => .ok (fromKeys (networks.map IpNetwork.str))

-- value.rpartition(":"), without the separator
def rpartition (value : Text) : Text × Text := (cutLast ':' value).getD ([], value)

-- port.isdigit()
def allDigits (port : Text) : Bool := !port.isEmpty && port.all python.isDigit

def hostPort (value : Text) : Except Failure Text :=
  let (host, port) := rpartition value
  if host = [] ∨ allDigits python port = false then
    refuse "Enter an address and port, such as 192.0.2.20:8444"
  else
    match python.int port with
    | none => .error .valueError
    | some n =>
        if ¬(1 ≤ n ∧ n ≤ 65535) ∨ host.any (fun c => unsafeChar c || c ∈ ['/', '@', '?', '#']) then
          refuse "Enter an address and port, such as 192.0.2.20:8444"
        else .ok (host ++ ':' :: decimal n)

def octet (ip : BitVec 32) (i : Nat) : Nat := ip.toNat / 2 ^ (24 - 8 * i) % 256

-- No address of this network, of the host, of the link, no multicast and no
-- reserved one.
def isUnicast (ip : BitVec 32) : Bool :=
  octet ip 0 ≠ 0 && octet ip 0 ≠ 127 && !(octet ip 0 = 169 && octet ip 1 = 254) &&
    octet ip 0 < 224

def portalListener (value : Text) : Except Failure Text :=
  let (host, port) := rpartition value
  let refused : Except Failure Text :=
    refuse ("Guest portal listener: enter the gateway's LAN IPv4 address and a port of 1024 or " ++
      "higher, such as 192.0.2.10:9443")
  match Netip.parseIPv4 host with
  | none => refused
  | some ip =>
      if allDigits python port = false then refused
      else
        match python.int port with
        | none => refused
        | some n =>
            if 1024 ≤ n ∧ n ≤ 65535 ∧ isUnicast ip = true then
              .ok (dotted ip.toNat ++ ':' :: decimal n)
            else refused

-- A `str` that is neither `None` nor empty
def given (text : Option Text) : Bool := text.any fun t => !t.isEmpty

def backendUrl (value : Text) : Except Failure Text :=
  let refused : Except Failure Text :=
    refuse "Enter an HTTP(S) address without credentials, such as http://192.0.2.20:8080"
  match python.urlsplit value with
  | none => refused
  | some url =>
      if (url.scheme ≠ "http".toList ∧ url.scheme ≠ "https".toList) ∨ given url.hostname = false ∨
          given url.username = true ∨ given url.password = true ∨ value.any unsafeChar = true ∨
          url.port = none then
        refused
      else .ok value

-- `relay.validate_url`
def validateUrl (url : Text) : Except Failure Text :=
  let url := (pyStrip url).rdropWhile (· = '/')
  let refused : Except Failure Text :=
    refuse "Relay URL must be an HTTPS origin, e.g. https://relay.example.com:8443"
  match python.urlsplit url with
  | none => refused
  | some parsed =>
      if parsed.port = none ∨ parsed.scheme ≠ "https".toList ∨ given parsed.hostname = false ∨
          parsed.username ≠ none ∨ parsed.password ≠ none ∨ parsed.query ≠ [] ∨
          parsed.fragment ≠ [] ∨ parsed.path ≠ [] ∨ parsed.port = some (some 0) ∨
          url.any (fun c => pySpace c || c ∈ ['{', '}', '\\']) = true then
        refused
      else .ok url

end Helpers

end OpenvpnServer.Network
