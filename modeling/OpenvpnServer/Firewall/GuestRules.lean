import Mathlib.Data.Char
import Mathlib.Data.List.Lex
import Mathlib.Data.List.Sort
import OpenvpnServer.Access.Lease
import OpenvpnServer.Config.Edit
import OpenvpnServer.Lib.Ipaddress

-- The rules of OVPN-FORWARD that `guest_rules` adds. Each of them is for packets
-- from GUEST_SUB, which are the ones looked at here.
namespace OpenvpnServer.Firewall

open OpenvpnServer.Lib OpenvpnServer.Lib.Ipaddress OpenvpnServer.Lib.Netip
open OpenvpnServer.Access (addressChar isSpace)
open OpenvpnServer.Config (afterWord)

inductive Protocol where
  | tcp
  | udp
  | icmp
  deriving DecidableEq, Repr

-- The type of an ICMP packet stands in the place of a port.
structure Packet where
  dst : BitVec 32
  protocol : Protocol
  port : Nat
  deriving DecidableEq, Repr

inductive Target where
  | accept
  | drop
  deriving DecidableEq, Repr

structure Destination where
  address : BitVec 32
  mask : BitVec 32
  deriving DecidableEq, Repr

def Destination.matches (d : Destination) (ip : BitVec 32) : Bool :=
  ip &&& d.mask = d.address &&& d.mask

structure Rule where
  dst : Option Destination
  protocol : Option Protocol
  port : Option Nat
  target : Target
  deriving DecidableEq, Repr

def Rule.matches (rule : Rule) (packet : Packet) : Bool :=
  rule.dst.all (·.matches packet.dst) && rule.protocol.all (· = packet.protocol) &&
    rule.port.all (· = packet.port)

def firstMatch (chain : List Rule) (packet : Packet) : Option Target :=
  (chain.find? (·.matches packet)).map Rule.target

section Destinations

def prefixMask (bits : Nat) : BitVec 32 := BitVec.ofNat 32 ((2 ^ bits - 1) * 2 ^ (32 - bits))

def parseMask (text : Text) : Option (BitVec 32) :=
  match decimal? text with
  | some bits => if bits ≤ 32 then some (prefixMask bits) else none
  | none => parseIPv4 text

-- The argument of `-d`; `none` when iptables refuses it.
def parseDestination (text : Text) : Option Destination :=
  match cutFirst '/' text with
  | none => (parseIPv4 text).map fun address => ⟨address, prefixMask 32⟩
  | some (address, mask) =>
      match parseIPv4 address, parseMask mask with
      | some address, some mask => some ⟨address, mask⟩
      | _, _ => none

end Destinations

section Sed

-- [[:space:]]\+
def afterBlanks : Text → Option Text
  | [] => none
  | c :: rest => if isSpace c then some (rest.dropWhile isSpace) else none

-- ^[[:space:]]*push[[:space:]]\+"
def afterPush (line : Text) : Option Text :=
  ((afterWord "push" (line.dropWhile isSpace)).bind afterBlanks).bind (afterWord "\"")

-- \([0-9.]\+\)
def addressAt (text : Text) : Option (Text × Text) :=
  if text.takeWhile addressChar = [] then none
  else some (text.takeWhile addressChar, text.dropWhile addressChar)

-- \([0-9.]\+\)".*
def quotedAddress (text : Text) : Option Text :=
  match addressAt text with
  | some (address, '"' :: _) => some address
  | _ => none

-- dhcp-option DNS \([0-9.]\+\)".*
def dhcpOption (pushed : Text) : Option Text :=
  (afterWord "dhcp-option DNS " pushed).bind quotedAddress

-- dns server [0-9]\+ address \([0-9.]\+\)".*
def dnsServer (pushed : Text) : Option Text :=
  match afterWord "dns server " pushed with
  | none => none
  | some rest =>
      if rest.takeWhile Char.isDigit = [] then none
      else (afterWord " address " (rest.dropWhile Char.isDigit)).bind quotedAddress

-- What the first command leaves of a line is no line for the second.
def dnsLine (line : Text) : Option Text :=
  match afterPush line with
  | none => none
  | some pushed => (dhcpOption pushed).or (dnsServer pushed)

-- [[:space:]"]
def routeBreak (c : Char) : Bool := isSpace c || c = '"'

-- \([0-9.]\+\)[[:space:]"]\+\([0-9.]*\).* as \1/\2
def routeAt (text : Text) : Option Text :=
  match addressAt text with
  | none => none
  | some (address, rest) =>
      if rest.head?.any routeBreak then
        some (address ++ '/' :: (rest.dropWhile routeBreak).takeWhile addressChar)
      else none

-- "route[[:space:]]\+ before it
def pushedRoute (line : Text) : Option Text :=
  (((afterPush line).bind (afterWord "route")).bind afterBlanks).bind routeAt

-- s|/$|/255.255.255.255|
def hostMask (net : Text) : Text :=
  if net.getLast? = some '/' then net ++ "255.255.255.255".toList else net

-- /(0|128)\.0\.0\.0$
def isDefaultRoute (net : Text) : Bool :=
  "/0.0.0.0".toList.isSuffixOf net || "/128.0.0.0".toList.isSuffixOf net

end Sed

section Chain

-- `sort -u`
def sortUnique (lines : List Text) : List Text := (fromKeys lines).insertionSort (· ≤ ·)

def pushedDns (conf : Text) : List Text := sortUnique ((conf.splitOn '\n').filterMap dnsLine)

def pushedRoutes (conf : Text) : List Text :=
  (((conf.splitOn '\n').filterMap pushedRoute).map hostMask).filter (!isDefaultRoute ·)

def guestBlock : List Text :=
  ["10.0.0.0/8".toList, "172.16.0.0/12".toList, "192.168.0.0/16".toList, "100.64.0.0/10".toList,
    "169.254.0.0/16".toList]

-- ^[0-9.]+(\/[0-9]+)?$
def isLinkNet (field : Text) : Bool :=
  match cutFirst '/' field with
  | none => field ≠ [] && field.all addressChar
  | some (address, bits) =>
      address ≠ [] && address.all addressChar && bits ≠ [] && bits.all Char.isDigit

def dropTo (dst : Destination) : Rule := ⟨some dst, none, none, .drop⟩

def dnsRules (dst : Destination) : List Rule :=
  [⟨some dst, some .udp, some 53, .accept⟩, ⟨some dst, some .tcp, some 53, .accept⟩]

-- echo-request
def pingRule : Rule := ⟨none, some .icmp, some 8, .drop⟩

-- `linkRoutes` are the first fields of `ip -4 -o route show scope link`. A refused
-- rule ends the start of the server, except for a pushed route.
def guestRules (linkRoutes : List Text) (conf : Text) : Option (List Rule) := do
  let dns ← (pushedDns conf).mapM parseDestination
  let nets ← (guestBlock ++ sortUnique (linkRoutes.filter isLinkNet)).mapM parseDestination
  let routes := (pushedRoutes conf).filterMap parseDestination
  pure (dns.flatMap dnsRules ++ pingRule :: (nets.map dropTo ++ routes.map dropTo))

end Chain

end OpenvpnServer.Firewall
