import OpenvpnServer.Lib.Text

namespace OpenvpnServer.Lib.Netip

-- An IP address: IPv4, or IPv6 with a zone (empty when it carries none). An
-- IPv4-mapped address is an IPv6 one until it is unmapped.
inductive Addr where
  | v4 (bits : BitVec 32)
  | v6 (bits : BitVec 128) (zone : Text)
  deriving DecidableEq, Repr

namespace Addr

def is4 : Addr → Bool
  | v4 _ => true
  | v6 _ _ => false

def is6 (a : Addr) : Bool := !a.is4

def zone : Addr → Text
  | v4 _ => []
  | v6 _ z => z

def hasZone (a : Addr) : Bool := a.zone ≠ []

def bitLen : Addr → Nat
  | v4 _ => 32
  | v6 _ _ => 128

def toNat : Addr → Nat
  | v4 b => b.toNat
  | v6 b _ => b.toNat

def is4In6 : Addr → Bool
  | v4 _ => false
  | v6 b _ => b.toNat / 2 ^ 32 = 0xffff

-- An IPv4-mapped address becomes the IPv4 one and loses its zone.
def unmap : Addr → Addr
  | v4 b => v4 b
  | v6 b z => if (v6 b z).is4In6 then v4 (BitVec.ofNat 32 b.toNat) else v6 b z

def byte (a : Addr) (i : Nat) : Nat := a.toNat / 2 ^ (a.bitLen - 8 * (i + 1)) % 256

-- The classifications read an IPv4-mapped address as the IPv4 one.
def isLoopback (a : Addr) : Bool :=
  match a.unmap with
  | v4 b => (v4 b).byte 0 = 127
  | v6 b _ => b.toNat = 1

def isUnspecified (a : Addr) : Bool := a = v4 0 ∨ a = v6 0 []

def isMulticast (a : Addr) : Bool :=
  match a.unmap with
  | v4 b => (v4 b).byte 0 &&& 0xf0 = 0xe0
  | v6 b z => (v6 b z).byte 0 = 0xff

def isLinkLocalUnicast (a : Addr) : Bool :=
  match a.unmap with
  | v4 b => (v4 b).byte 0 = 169 ∧ (v4 b).byte 1 = 254
  | v6 b z => (v6 b z).byte 0 = 0xfe ∧ (v6 b z).byte 1 &&& 0xc0 = 0x80

def isLinkLocalMulticast (a : Addr) : Bool :=
  match a.unmap with
  | v4 b => (v4 b).byte 0 = 224 ∧ (v4 b).byte 1 = 0 ∧ (v4 b).byte 2 = 0
  | v6 b z => (v6 b z).byte 0 = 0xff ∧ (v6 b z).byte 1 &&& 0x0f = 2

def isPrivate (a : Addr) : Bool :=
  match a.unmap with
  | v4 b =>
      (v4 b).byte 0 = 10 ∨ ((v4 b).byte 0 = 172 ∧ (v4 b).byte 1 &&& 0xf0 = 16) ∨
        ((v4 b).byte 0 = 192 ∧ (v4 b).byte 1 = 168)
  | v6 b z => (v6 b z).byte 0 &&& 0xfe = 0xfc

def isGlobalUnicast (a : Addr) : Bool :=
  a.unmap ≠ v4 0 ∧ a.unmap ≠ v4 0xffffffff ∧ a.unmap ≠ v6 0 [] ∧ !a.isLoopback ∧
    !a.isMulticast ∧ !a.isLinkLocalUnicast

end Addr

structure AddrPort where
  addr : Addr
  port : Nat
  deriving DecidableEq, Repr

-- A network: an address without a zone and a number of leading bits.
structure Prefix where
  addr : Addr
  bits : Nat
  bits_le : bits ≤ addr.bitLen
  no_zone : addr.zone = []
  deriving DecidableEq, Repr

namespace Prefix

-- No address of the other family and no zoned address is contained.
def contains (p : Prefix) (a : Addr) : Bool :=
  !a.hasZone ∧ p.addr.bitLen = a.bitLen ∧
    p.addr.toNat / 2 ^ (p.addr.bitLen - p.bits) = a.toNat / 2 ^ (p.addr.bitLen - p.bits)

def clearHost (width keep value : Nat) : Nat := value / 2 ^ (width - keep) * 2 ^ (width - keep)

def masked (p : Prefix) : Prefix :=
  match h : p.addr with
  | .v4 b =>
      ⟨.v4 (BitVec.ofNat 32 (clearHost 32 p.bits b.toNat)), p.bits,
        by have := p.bits_le; simpa [h, Addr.bitLen] using this, rfl⟩
  | .v6 b _ =>
      ⟨.v6 (BitVec.ofNat 128 (clearHost 128 p.bits b.toNat)) [], p.bits,
        by have := p.bits_le; simpa [h, Addr.bitLen] using this, rfl⟩

end Prefix

-- One field of a dotted address: decimal, at most 255, no leading zero.
def parseOctet (field : Text) : Option Nat :=
  match decimal? field with
  | none => none
  | some n => if n ≤ 255 ∧ (field.head? ≠ some '0' ∨ field.length = 1) then some n else none

def parseIPv4 (s : Text) : Option (BitVec 32) :=
  match (s.splitOn '.').mapM parseOctet with
  | some [a, b, c, d] => some (BitVec.ofNat 32 (a * 2 ^ 24 + b * 2 ^ 16 + c * 2 ^ 8 + d))
  | _ => none

-- The group loop of the IPv6 parser: the groups read so far, the position of
-- the "::" among them, and what is left of the text. A dotted tail stands for
-- the last two groups.
def parseGroups : Nat → List Nat → Option Nat → Text → Option (List Nat × Option Nat × Text)
  | 0, groups, ellipsis, s => some (groups, ellipsis, s)
  | fuel + 1, groups, ellipsis, s =>
      let digits := s.takeWhile isHexDigit
      if digits.length = 0 ∨ 4 < digits.length then none
      else
        match s.dropWhile isHexDigit with
        | '.' :: _ =>
            if (ellipsis = none ∧ groups.length ≠ 6) ∨ 8 < groups.length + 2 then none
            else (parseIPv4 s).map fun v =>
              (groups ++ [v.toNat / 2 ^ 16, v.toNat % 2 ^ 16], ellipsis, [])
        | [] => some (groups ++ [hexValue digits], ellipsis, [])
        | [':'] => none
        | ':' :: ':' :: rest =>
            if ellipsis ≠ none then none
            else if rest = [] then
              some (groups ++ [hexValue digits], some (groups.length + 1), [])
            else parseGroups fuel (groups ++ [hexValue digits]) (some (groups.length + 1)) rest
        | ':' :: rest => parseGroups fuel (groups ++ [hexValue digits]) ellipsis rest
        | _ => none

def ofGroups (groups : List Nat) : Nat := groups.foldl (fun acc g => acc * 2 ^ 16 + g) 0

-- The "::" stands for at least one group of zeros.
def expandGroups (groups : List Nat) : Option Nat → Option (List Nat)
  | none => if groups.length = 8 then some groups else none
  | some at_ =>
      if groups.length < 8 then
        some (groups.take at_ ++ List.replicate (8 - groups.length) 0 ++ groups.drop at_)
      else none

def parseIPv6Groups (s : Text) : Option (List Nat) :=
  let start : Option (List Nat × Option Nat × Text) :=
    match s with
    | ':' :: ':' :: [] => some ([], some 0, [])
    | ':' :: ':' :: rest => parseGroups 8 [] (some 0) rest
    | _ => parseGroups 8 [] none s
  match start with
  | some (groups, ellipsis, []) => expandGroups groups ellipsis
  | _ => none

def parseIPv6 (s : Text) : Option Addr :=
  match cutFirst '%' s with
  | some (_, []) => none
  | some (text, zone) =>
      (parseIPv6Groups text).map fun g => .v6 (BitVec.ofNat 128 (ofGroups g)) zone
  | none => (parseIPv6Groups s).map fun g => .v6 (BitVec.ofNat 128 (ofGroups g)) []

-- The first of `.`, `:` and `%` decides what the text may be.
def parseAddr (s : Text) : Option Addr :=
  match s.find? (fun c => c = '.' ∨ c = ':' ∨ c = '%') with
  | some '.' => (parseIPv4 s).map .v4
  | some ':' => parseIPv6 s
  | _ => none

-- A prefix length: decimal digits without a sign or a leading zero.
def parseBits (s : Text) : Option Nat :=
  if 1 < s.length ∧ s.head? = some '0' then none else decimal? s

def parsePrefix (s : Text) : Option Prefix :=
  match cutLast '/' s with
  | none => none
  | some (text, bitsText) =>
      match parseAddr text, parseBits bitsText with
      | some a, some bits =>
          if h : a.zone = [] ∧ bits ≤ a.bitLen then some ⟨a, bits, h.2, h.1⟩ else none
      | _, _ => none

-- A port number of an address and port: decimal digits up to 65535.
def parsePort (s : Text) : Option Nat :=
  match decimal? s with
  | none => none
  | some n => if n ≤ 65535 then some n else none

-- An IPv6 address stands in brackets, an IPv4 one does not.
def parseAddrPort (s : Text) : Option AddrPort :=
  match cutLast ':' s with
  | none => none
  | some ([], _) => none
  | some ('[' :: rest, portText) =>
      if rest.getLast? = some ']' then
        match parseAddr rest.dropLast, parsePort portText with
        | some a, some port => if a.is6 then some ⟨a, port⟩ else none
        | _, _ => none
      else none
  | some (text, portText) =>
      match parseAddr text, parsePort portText with
      | some a, some port => if a.is4 then some ⟨a, port⟩ else none
      | _, _ => none

end OpenvpnServer.Lib.Netip
