import OpenvpnServer.Lib.Netip
import OpenvpnServer.Lib.Python

-- Addresses and networks as Python's `ipaddress` module reads and prints them.
-- Addresses in dotted form are read as `Netip.parseIPv4` reads them.
namespace OpenvpnServer.Lib.Ipaddress

open OpenvpnServer.Lib.Netip

-- A network whose host bits are not set.
structure Network (width : Nat) where
  address : BitVec width
  prefixlen : Nat
  prefixlen_le : prefixlen ≤ width
  strict : Prefix.clearHost width prefixlen address.toNat = address.toNat
  deriving DecidableEq

-- An IPv6 network may have a scope, empty when it has none.
inductive IpNetwork where
  | v4 (net : Network 32)
  | v6 (net : Network 128) (scope : Text)
  deriving DecidableEq

namespace IpNetwork

def prefixlen : IpNetwork → Nat
  | v4 net => net.prefixlen
  | v6 net _ => net.prefixlen

def is4 : IpNetwork → Bool
  | v4 _ => true
  | v6 _ _ => false

def toPrefix : IpNetwork → Prefix
  | v4 net => ⟨.v4 net.address, net.prefixlen, net.prefixlen_le, rfl⟩
  | v6 net _ => ⟨.v6 net.address [], net.prefixlen, net.prefixlen_le, rfl⟩

end IpNetwork

section Read

def strictNetwork {width : Nat} (address : BitVec width) (prefixlen : Nat) :
    Option (Network width) :=
  if h : prefixlen ≤ width ∧ Prefix.clearHost width prefixlen address.toNat = address.toNat then
    some ⟨address, prefixlen, h.1, h.2⟩
  else none

-- The address and what follows the only slash.
def splitOptionalNetmask (text : Text) : Option (Text × Option Text) :=
  match text.splitOn '/' with
  | [address] => some (address, none)
  | [address, mask] => some (address, some mask)
  | _ => none

def prefixFromString (maxPrefixlen : Nat) (text : Text) : Option Nat :=
  match decimal? text with
  | some n => if n ≤ maxPrefixlen then some n else none
  | none => none

-- The number of leading ones of a mask that has zeros after them.
def prefixFromInt (mask : Nat) : Option Nat :=
  (List.range 33).find? fun ones => mask = (2 ^ ones - 1) * 2 ^ (32 - ones)

-- A prefix length, a netmask or a host mask.
def makeNetmask4 (text : Text) : Option Nat :=
  match prefixFromString 32 text with
  | some n => some n
  | none =>
      match parseIPv4 text with
      | none => none
      | some mask =>
          match prefixFromInt mask.toNat with
          | some n => some n
          | none => prefixFromInt (2 ^ 32 - 1 - mask.toNat)

def ipv4Network (text : Text) : Option (Network 32) :=
  match splitOptionalNetmask text with
  | none => none
  | some (address, mask) =>
      match parseIPv4 address, mask.elim (some 32) makeNetmask4 with
      | some address, some prefixlen => strictNetwork address prefixlen
      | _, _ => none

-- `IPv4Network(text, strict=False)`
def ipv4NetworkOf (text : Text) : Option (Network 32) :=
  match splitOptionalNetmask text with
  | none => none
  | some (address, mask) =>
      match parseIPv4 address, mask.elim (some 32) makeNetmask4 with
      | some address, some prefixlen =>
          strictNetwork (BitVec.ofNat 32 (Prefix.clearHost 32 prefixlen address.toNat)) prefixlen
      | _, _ => none

def hextet? (part : Text) : Option Nat :=
  if part ≠ [] ∧ part.length ≤ 4 ∧ part.all isHexDigit then some (hexValue part) else none

def hex (n : Nat) : Text := Nat.toDigits 16 n

-- The parts between colons, a dotted last one as two.
def ipv6Parts (text : Text) : Option (List Text) :=
  let parts := text.splitOn ':'
  let last := parts.getLast?.getD []
  if parts.length < 3 then none
  else if '.' ∈ last then
    (parseIPv4 last).map fun ip =>
      parts.dropLast ++ [hex (ip.toNat / 2 ^ 16), hex (ip.toNat % 2 ^ 16)]
  else some parts

def skipIndices (parts : List Text) : List Nat :=
  (List.range parts.length).filter fun i => 1 ≤ i ∧ i + 1 < parts.length ∧ parts[i]? = some []

def ipv6Groups (parts : List Text) : Option (List Nat) :=
  if 9 < parts.length then none
  else
    match skipIndices parts with
    | [] => if parts.length = 8 then parts.mapM hextet? else none
    | [i] =>
        -- an empty first or last part belongs to the gap
        let hi := if parts.head? = some [] then (parts.take i).tail else parts.take i
        let lo := if parts.getLast? = some [] then (parts.drop (i + 1)).dropLast
          else parts.drop (i + 1)
        if (parts.head? = some [] ∧ hi ≠ []) ∨ (parts.getLast? = some [] ∧ lo ≠ []) ∨
            8 ≤ hi.length + lo.length then none
        else
          match hi.mapM hextet?, lo.mapM hextet? with
          | some high, some low =>
              some (high ++ List.replicate (8 - (high.length + low.length)) 0 ++ low)
          | _, _ => none
    | _ => none

-- The scope is what follows the only percent sign.
def splitScope (text : Text) : Option (Text × Text) :=
  match cutFirst '%' text with
  | none => some (text, [])
  | some (address, scope) => if scope = [] ∨ '%' ∈ scope then none else some (address, scope)

def ipv6Address (text : Text) : Option (BitVec 128 × Text) :=
  match splitScope text with
  | none => none
  | some (address, scope) =>
      match (ipv6Parts address).bind ipv6Groups with
      | some groups => some (BitVec.ofNat 128 (ofGroups groups), scope)
      | none => none

def ipv6Network (text : Text) : Option IpNetwork :=
  match splitOptionalNetmask text with
  | none => none
  | some (address, mask) =>
      match ipv6Address address, mask.elim (some 128) (prefixFromString 128) with
      | some (address, scope), some prefixlen =>
          (strictNetwork address prefixlen).map fun net => .v6 net scope
      | _, _ => none

-- `ipaddress.ip_network(text, strict=True)`, `none` for a `ValueError`
def ipNetwork (text : Text) : Option IpNetwork :=
  match ipv4Network text with
  | some net => some (.v4 net)
  | none => ipv6Network text

def ipv6NetworkOf (text : Text) : Option IpNetwork :=
  match splitOptionalNetmask text with
  | none => none
  | some (address, mask) =>
      match ipv6Address address, mask.elim (some 128) (prefixFromString 128) with
      | some (address, scope), some prefixlen =>
          (strictNetwork (BitVec.ofNat 128 (Prefix.clearHost 128 prefixlen address.toNat))
            prefixlen).map fun net => .v6 net scope
      | _, _ => none

-- `ipaddress.ip_network(text, strict=False)`
def ipNetworkOf (text : Text) : Option IpNetwork :=
  match ipv4NetworkOf text with
  | some net => some (.v4 net)
  | none => ipv6NetworkOf text

end Read

section Print

def decimal (n : Nat) : Text := Nat.toDigits 10 n

def dotted (n : Nat) : Text :=
  joinWith '.' [decimal (n / 2 ^ 24 % 256), decimal (n / 2 ^ 16 % 256), decimal (n / 2 ^ 8 % 256),
    decimal (n % 256)]

def hextetValues (n : Nat) : List Nat :=
  (List.range 8).map fun i => n / 2 ^ (16 * (7 - i)) % 2 ^ 16

-- The loop of `_compress_hextets`: the longest run of zeros so far, and the one
-- that ends here.
structure ZeroRun where
  bestStart : Nat
  bestLen : Nat
  start : Nat
  len : Nat
  deriving DecidableEq, Repr

def ZeroRun.step (run : ZeroRun) (index : Nat) (part : Text) : ZeroRun :=
  if part = ['0'] then
    let start := if run.len = 0 then index else run.start
    let len := run.len + 1
    if run.bestLen < len then ⟨start, len, start, len⟩
    else ⟨run.bestStart, run.bestLen, start, len⟩
  else ⟨run.bestStart, run.bestLen, run.start, 0⟩

def zeroRuns : List Text → Nat → ZeroRun → ZeroRun
  | [], _, run => run
  | part :: rest, index, run => zeroRuns rest (index + 1) (run.step index part)

def compressHextets (parts : List Text) : List Text :=
  let run := zeroRuns parts 0 ⟨0, 0, 0, 0⟩
  if 1 < run.bestLen then
    (if run.bestStart = 0 then [[]] else []) ++ parts.take run.bestStart ++ [[]] ++
      parts.drop (run.bestStart + run.bestLen) ++
      (if run.bestStart + run.bestLen = parts.length then [[]] else [])
  else parts

def stringFromInt (n : Nat) : Text := joinWith ':' (compressHextets ((hextetValues n).map hex))

-- An IPv4-mapped address is printed with a dotted end.
def ipv6String (n : Nat) : Text :=
  if n / 2 ^ 32 = 0xffff then stringFromInt (n / 2 ^ 32) ++ ':' :: dotted (n % 2 ^ 32)
  else stringFromInt n

def netmask (net : Network 32) : Nat := (2 ^ net.prefixlen - 1) * 2 ^ (32 - net.prefixlen)

def withScope (address scope : Text) : Text :=
  if scope = [] then address else address ++ '%' :: scope

-- `str(network)`
def IpNetwork.str : IpNetwork → Text
  | .v4 net => dotted net.address.toNat ++ '/' :: decimal net.prefixlen
  | .v6 net scope => withScope (ipv6String net.address.toNat) scope ++ '/' :: decimal net.prefixlen

end Print

example : (ipNetwork "10.8.0.0/255.255.255.0".toList).map IpNetwork.str =
    some "10.8.0.0/24".toList := by decide
example : (ipNetwork "2001:DB8:0:0:1::/80".toList).map IpNetwork.str =
    some "2001:db8:0:0:1::/80".toList := by decide
example : (ipNetwork "fe80::1%eth0".toList).map IpNetwork.str =
    some "fe80::1%eth0/128".toList := by decide

end OpenvpnServer.Lib.Ipaddress
