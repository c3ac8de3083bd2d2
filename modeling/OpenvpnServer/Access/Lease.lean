import OpenvpnServer.Lib.Dict
import OpenvpnServer.Lib.Run
import OpenvpnServer.Lib.Text

namespace OpenvpnServer.Access

open OpenvpnServer.Lib

-- The values of /tmp/openvpn-access.env that decide about addresses, the guest
-- range as integers.
structure Config where
  guestFirst : Nat
  guestLast : Nat
  maxDevices : Nat
  deriving DecidableEq, Repr

def int2ip (n : Nat) : Text :=
  Nat.toDigits 10 (n / 2 ^ 24 % 256) ++ '.' :: Nat.toDigits 10 (n / 2 ^ 16 % 256) ++
    '.' :: Nat.toDigits 10 (n / 2 ^ 8 % 256) ++ '.' :: Nat.toDigits 10 (n % 256)

-- ^[A-Za-z0-9][A-Za-z0-9_.@-]{0,63}$
def nameChar (c : Char) : Bool := c.isAlphanum || c ∈ ['_', '.', '@', '-']

def validName : Text → Bool
  | [] => false
  | c :: rest => c.isAlphanum && rest.all nameChar && rest.length ≤ 63

-- A POSIX [[:space:]]
def isSpace (c : Char) : Bool := c ∈ [' ', '\t', '\n', '\x0b', '\x0c', '\r']

def addressChar (c : Char) : Bool := c.isDigit || c = '.'

-- s/^[[:space:]]*ifconfig-push[[:space:]]\+\([0-9.]\+\).*/\1/p on one line
def pushLine (line : Text) : Option Text :=
  let rest := line.dropWhile isSpace
  if "ifconfig-push".toList.isPrefixOf rest then
    let after := rest.drop "ifconfig-push".length
    let ip := (after.dropWhile isSpace).takeWhile addressChar
    if (after.head?.any isSpace) && !ip.isEmpty then some ip else none
  else none

-- The address a staticclients file pushes, if there is such a file and line.
def staticAddress (file : Option Text) : Option Text :=
  file.bind fun content => (content.splitOn '\n').findSome? pushLine

inductive Transport where
  | udp
  | tcp
  deriving DecidableEq, Repr

-- A connection as the scripts see it, and the transport they do not see.
structure Peer where
  commonName : Text
  untrustedIp : Text
  untrustedPort : Text
  transport : Transport
  deriving DecidableEq, Repr

-- "name real-address port"
def Peer.me (peer : Peer) : Text :=
  peer.commonName ++ ' ' :: peer.untrustedIp ++ ' ' :: peer.untrustedPort

structure Lease where
  line : Text
  mtime : Nat
  deriving DecidableEq, Repr

-- The lease directory, by file name. The names are addresses, so that the
-- script's glob sees all of them.
abbrev Leases := Dict Text Lease

-- What else client-connect finds: guests/<name>, staticclients/<name> and
-- ifconfig_pool_remote_ip.
structure Found where
  guest : Bool
  staticFile : Option Text
  poolAddress : Text
  deriving DecidableEq, Repr

section Connect

variable (config : Config)

-- grep -lE "^name " | wc -l
def devices (leases : Leases) (cn : Text) : Nat :=
  (leases.values.filter fun lease => (cn ++ [' ']).isPrefixOf lease.line).length

def guestRange : List Text :=
  (List.range' config.guestFirst (config.guestLast + 1 - config.guestFirst)).map int2ip

def freeGuest (leases : Leases) : Option Text :=
  (guestRange config).find? fun ip => leases.get? ip = none

-- `ip` of the script before it falls back to the pool; `none` when it refuses.
def chooseAddress (leases : Leases) (found : Found) : Option (Option Text) :=
  if found.guest then (freeGuest config leases).map some
  else
    match staticAddress found.staticFile with
    | some ip => some (if leases.get? ip = none then some ip else none)
    | none => some none

def isAddress (text : Text) : Bool := !text.isEmpty && text.all addressChar

-- What OpenVPN gives a client the script pushes nothing to.
def poolOffer (found : Found) : Option Text :=
  if found.poolAddress.isEmpty then none else some found.poolAddress

-- client-connect: refused, or the address the client is going to have, if any,
-- and the leases.
def clientConnect (leases : Leases) (now : Nat) (peer : Peer) (found : Found) :
    Option (Option Text × Leases) :=
  if validName peer.commonName = false then some (poolOffer found, leases)
  else if 0 < config.maxDevices ∧ config.maxDevices ≤ devices leases peer.commonName then none
  else
    match chooseAddress config leases found with
    | none => none
    | some (some ip) => some (some ip, leases.set ip ⟨peer.me, now⟩)
    | some none =>
        if isAddress found.poolAddress then
          some (poolOffer found, leases.set found.poolAddress ⟨peer.me, now⟩)
        else some (poolOffer found, leases)

-- grep -lxF "$me" | xargs rm
def clientDisconnect (leases : Leases) (peer : Peer) : Leases :=
  if validName peer.commonName then leases.filter fun _ lease => lease.line ≠ peer.me
  else leases

end Connect

structure StatusFile where
  mtime : Nat
  text : Text
  deriving DecidableEq, Repr

-- (^|[[:space:],])ip([[:space:],]|$), for an address of digits and dots
def StatusFile.lists (status : StatusFile) (ip : Text) : Bool :=
  ip ∈ status.text.splitOnP fun c => isSpace c || c = ','

-- Only against a status of the last minute, and only leases older than that.
def reapLeases (leases : Leases) (now : Nat) (status : StatusFile) : Leases :=
  if now < status.mtime + 60 then
    leases.filter fun ip lease => decide (now ≤ lease.mtime + 60) || status.lists ip
  else leases

structure Device where
  peer : Peer
  address : Option Text
  guest : Bool
  deriving DecidableEq, Repr

structure AccessState where
  leases : Leases
  connected : List Device
  now : Nat
  deriving DecidableEq

-- As `prepare_access` leaves it.
def AccessState.init : AccessState := ⟨.empty, [], 0⟩

inductive AccessStep where
  -- `stays` is false for a client OpenVPN turns away after the script
  | connect (peer : Peer) (found : Found) (stays : Bool)
  | disconnect (i : Nat)
  -- a client that is gone without its disconnect script
  | vanish (i : Nat)
  | reap (status : StatusFile)
  | tick (seconds : Nat)
  deriving DecidableEq, Repr

def AccessState.step (config : Config) (s : AccessState) : AccessStep → Option AccessState
  | .connect peer found stays =>
      match clientConnect config s.leases s.now peer found with
      | none => some s
      | some (address, leases) =>
          if stays then
            some { s with leases, connected := s.connected ++ [⟨peer, address, found.guest⟩] }
          else some { s with leases }
  | .disconnect i =>
      match s.connected[i]? with
      | some device =>
          some { s with
            leases := clientDisconnect s.leases device.peer
            connected := s.connected.eraseIdx i }
      | none => none
  | .vanish i =>
      if i < s.connected.length then some { s with connected := s.connected.eraseIdx i } else none
  | .reap status => some { s with leases := reapLeases s.leases s.now status }
  | .tick seconds => some { s with now := s.now + seconds }

end OpenvpnServer.Access
