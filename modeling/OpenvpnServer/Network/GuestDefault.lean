import OpenvpnServer.Lib.Utf8
import OpenvpnServer.Network.AddressPlan
import OpenvpnServer.Network.Theorems

-- The guest range before the first save: the upper half of the `server` network of
-- server.conf, computed by the UI and by the entrypoint. server.conf is read as bytes.
namespace OpenvpnServer.Network

open OpenvpnServer.Lib OpenvpnServer.Lib.Ipaddress OpenvpnServer.Lib.Netip

section Shell

-- What separates awk's fields within a line.
def awkBlank (c : Char) : Bool := c = ' ' || c = '\t'

def awkField (line : Text) : Text × Text :=
  let start := line.dropWhile awkBlank
  (start.takeWhile (! awkBlank ·), start.dropWhile (! awkBlank ·))

-- $1 == "server" {print $2, $3; exit}
def serverFields (line : Text) : Option (Text × Text) :=
  let (first, rest) := awkField line
  if first = "server".toList then some ((awkField rest).1, (awkField (awkField rest).2).1) else none

-- The words of the first `server` line, both empty where there is none.
def awkServer (conf : Text) : Text × Text :=
  ((conf.splitOn '\n').findSome? serverFields).getD ([], [])

-- An unquoted variable with IFS=. : a dot at the end starts no further word.
def ifsWords (text : Text) : List Text :=
  if (text.splitOn '.').getLast? = some [] then (text.splitOn '.').dropLast else text.splitOn '.'

-- case $octet in 255) ((bits+=8));; …
def octetBits (octet : Text) : Option Nat :=
  if octet = "255".toList then some 8
  else if octet = "254".toList then some 7
  else if octet = "252".toList then some 6
  else if octet = "248".toList then some 5
  else if octet = "240".toList then some 4
  else if octet = "224".toList then some 3
  else if octet = "192".toList then some 2
  else if octet = "128".toList then some 1
  else if octet = "0".toList then some 0
  else none

def maskBits (mask : Text) : Option Nat :=
  (ifsWords mask).foldlM (fun bits octet => (octetBits octet).map (bits + ·)) 0

-- A word in shell arithmetic; only decimal numbers are modelled, octal ones are not.
def arithmeticWord (octet : Text) : Option Nat :=
  if octet.head? = some '0' ∧ octet.length ≠ 1 then none else decimal? octet

-- number=$(( (number << 8) + octet )); only the last 32 bits are used
def addressNumber (ip : Text) : Option Nat :=
  (ifsWords ip).foldlM (fun number octet => (arithmeticWord octet).map (number * 2 ^ 8 + ·)) 0

-- GUEST_SUB from the words of server.conf
def guestOfWords (ip mask : Text) : Option Text := do
  let bits ← maskBits mask
  if 1 ≤ bits ∧ bits ≤ 28 then
    let number ← addressNumber ip
    pure (dotted (number + 2 ^ (31 - bits)) ++ '/' :: decimal (bits + 1))
  else none

def guestDefault (conf : Bytes) : Option Text :=
  guestOfWords (awkServer (latin1 conf)).1 (awkServer (latin1 conf)).2

-- ${TRUST_SUB:-$ip/$mask}
def trustDefault (conf : Bytes) : Text :=
  (awkServer (latin1 conf)).1 ++ '/' :: (awkServer (latin1 conf)).2

-- GUEST_SUB as `load_network_settings` computes it, before the portal is looked at.
def loadedGuestSub (vars : ShellVars) (conf : Bytes) (file : Option Text) : Option Text :=
  let vars := ((file.map shellLines).getD []).foldl ShellVars.assign vars
  if vars.guestSub = [] then guestDefault conf else some vars.guestSub

theorem loadedGuestSub_of_load {vars loaded : ShellVars} {conf : Bytes} {file : Option Text}
    (h : loadNetworkSettings vars (trustDefault conf) (guestDefault conf) file = some loaded) :
    loadedGuestSub vars conf file = some loaded.guestSub := by
  unfold loadNetworkSettings at h
  unfold loadedGuestSub
  dsimp only at h ⊢
  generalize ((file.map shellLines).getD []).foldl ShellVars.assign vars = given at h ⊢
  have hkept : (if given.trustSub = [] then { given with trustSub := trustDefault conf }
      else given).guestSub = given.guestSub := by
    split <;> rfl
  rw [hkept] at h
  cases hguest : if given.guestSub = [] then guestDefault conf else some given.guestSub with
  | none =>
      rw [hguest] at h
      cases h
  | some guest =>
      rw [hguest] at h
      dsimp only at h
      by_cases hportal : guestPortalValidate
          (if given.trustSub = [] then { given with trustSub := trustDefault conf }
            else given).guestPortalTarget = true
      · rw [if_pos hportal] at h
        cases h
        rfl
      · rw [if_neg hportal] at h
        cases h

end Shell

section Ui

-- `settings.guest_sub`: a file that is no text ends like one without the line.
def uiGuestSub (host : Host) (conf : Bytes) (settings : Option Text) : Except Refusal Text :=
  guestSub host ⟨(utf8Decode? conf).getD [], settings, .empty, []⟩

-- The network of the first match of ^\s*server\s+(\S+)\s+(\S+)
def patternNetwork (conf : Bytes) : Option (Network 32) :=
  (utf8Decode? conf).bind fun text =>
    (searchLines serverWords (universalNewlines text)).bind fun words =>
      ipv4Network (words.1 ++ '/' :: words.2)

-- What is returned for the network, and for a file without one.
def bootstrapText : Option (Network 32) → Except Refusal Text
  | none => .ok "10.8.0.128/25".toList
  | some net => match upperHalf net with
      | none => .error .internal
      | some half => .ok (IpNetwork.v4 half).str

theorem guestSubBootstrap_eq (conf : Text) :
    guestSubBootstrap conf =
      bootstrapText ((searchLines serverWords (universalNewlines conf)).bind fun words =>
        ipv4Network (words.1 ++ '/' :: words.2)) := by
  unfold guestSubBootstrap bootstrapText
  cases (searchLines serverWords (universalNewlines conf)).bind fun words =>
    ipv4Network (words.1 ++ '/' :: words.2) <;> rfl

theorem uiGuestSub_none {host : Host} (hhost : host.guestSub = []) (conf : Bytes) :
    uiGuestSub host conf none = bootstrapText (patternNetwork conf) := by
  have hbootstrap : uiGuestSub host conf none = guestSubBootstrap ((utf8Decode? conf).getD []) := by
    unfold uiGuestSub guestSub
    simp [readNetwork, hhost]
  rw [hbootstrap, guestSubBootstrap_eq]
  unfold patternNetwork
  cases utf8Decode? conf with
  | some text => rfl
  | none => rfl

end Ui

end OpenvpnServer.Network
