import OpenvpnServer.Access.Lease
import OpenvpnServer.Lib.Run
import OpenvpnServer.Network.Files
import OpenvpnServer.Network.ServerConf

-- The requests that change addresses: static ones, guests, new clients and the
-- network settings. The files they read and write are the state.
namespace OpenvpnServer.Network

open OpenvpnServer.Lib OpenvpnServer.Lib.Ipaddress OpenvpnServer.Lib.Netip
open OpenvpnServer.Access (addressChar isSpace validName)
open OpenvpnServer.Config (afterWord)

-- server.conf, settings.conf, the files of staticclients/ and the names in
-- guests/.
structure AddressState where
  serverConf : Text
  settings : Option Text
  staticclients : Dict Text Text
  guests : List Text
  deriving DecidableEq

-- The environment of the UI and of the entrypoint. `guestDefault` is what the
-- entrypoint takes from server.conf before the first save.
structure Host where
  python : Python
  wide : Char → Bool
  guestSub : Text
  vars : ShellVars
  trustDefault : Text → Text
  guestDefault : Text → Option Text

-- How a request ends without a change. `internal` is an exception that no caller
-- expects.
inductive Refusal where
  | pki (message : Text)
  | http (status : Nat) (detail : Text)
  | valueError
  | internal
  deriving DecidableEq, Repr

def Refusal.ofFailure : Failure → Refusal
  | .pki message => .pki message
  | .valueError => .valueError

section GuestRange

-- (\S+)
def wordAt (text : Text) : Option (Text × Text) :=
  if text.takeWhile (! pySpace ·) = [] then none
  else some (text.takeWhile (! pySpace ·), text.dropWhile (! pySpace ·))

-- ^\s*server\s+(\S+)\s+(\S+)
def serverWords (start : Text) : Option (Text × Text) := do
  let rest ← afterOption "server" start
  let (address, rest) ← wordAt rest
  let rest ← afterSpaces rest
  let (mask, _) ← wordAt rest
  pure (address, mask)

-- The second of `net.subnets(prefixlen_diff=1)`, which a single address has not.
def upperHalf (net : Network 32) : Option (Network 32) :=
  strictNetwork (net.address + BitVec.ofNat 32 (2 ^ (31 - net.prefixlen))) (net.prefixlen + 1)

def guestSubBootstrap (conf : Text) : Except Refusal Text :=
  match (searchLines serverWords (universalNewlines conf)).bind fun words =>
      ipv4Network (words.1 ++ '/' :: words.2) with
  | none => .ok "10.8.0.128/25".toList
  | some net =>
      match upperHalf net with
      | none => .error .internal
      | some half => .ok (IpNetwork.v4 half).str

variable (host : Host)

-- `settings.guest_sub`; saved settings without this text are not expected.
def guestSub (s : AddressState) : Except Refusal Text :=
  match readNetwork s.settings with
  | .error _ => .error .valueError
  | .ok (.obj []) =>
      if host.guestSub = [] then guestSubBootstrap s.serverConf else .ok host.guestSub
  | .ok (.obj fields) =>
      match fields.lookup "guest_subnet".toList with
      | some (.str text) => .ok text
      | _ => .error .internal
  | .ok _ => .error .internal

def inGuestRange (s : AddressState) (ip : Text) : Except Refusal Bool :=
  match parseIPv4 ip with
  | none => .ok false
  | some address =>
      match guestSub host s with
      | .error .valueError => .ok false
      | .error refusal => .error refusal
      | .ok text =>
          match ipv4NetworkOf text with
          | none => .ok false
          | some net => .ok (decide (inNetwork address.toNat net))

end GuestRange

section Static

-- ^\s*ifconfig-push\s+(\S+)
def pushedAddress (line : Text) : Option Text :=
  ((afterOption "ifconfig-push" line).bind wordAt).map Prod.fst

def staticIps (files : Dict Text Text) : List (Text × Text) :=
  files.entries.filterMap fun file =>
    if file.1.head? = some '.' then none
    else ((splitlines (universalNewlines file.2)).findSome? pushedAddress).map (file.1, ·)

def guestNames (files : List Text) : List Text := files.filter validName

def validateName (name : Text) : Except Refusal Unit :=
  if validName name = false then
    .error (.pki "Invalid client name: use 1-64 characters from letters, digits, _ . @ -".toList)
  else if name.map Char.toLower ∈ ["server".toList, "ca".toList] then
    .error (.pki ('\x27' :: name ++ "' is a reserved name".toList))
  else .ok ()

def subnetProblem (ip : Text) (address : Nat) (subnet : VpnSubnet) : Option Text :=
  if ¬inNetwork address subnet.net ∨ address = firstAddress subnet.net ∨
      address = firstAddress subnet.net + 1 ∨ address = broadcastAddress subnet.net then
    some (ip ++ " is not a client address in the VPN subnet ".toList ++ (IpNetwork.v4 subnet.net).str)
  else if subnet.first ≤ address ∧ address ≤ subnet.last then
    some (ip ++ " is in the dynamic pool ".toList ++ dotted subnet.first ++ '-' ::
      dotted subnet.last ++ "; use a free address outside it".toList)
  else none

variable (host : Host)

-- Why an address cannot be given to a client, or `none`.
def staticIpProblem (s : AddressState) (name ip : Text) : Except Refusal (Option Text) :=
  match parseIPv4 ip with
  | none => .ok (some "Invalid IPv4 address".toList)
  | some address =>
      match (vpnSubnet host.wide s.serverConf).bind (subnetProblem ip address.toNat) with
      | some problem => .ok (some problem)
      | none =>
          match inGuestRange host s ip with
          | .error refusal => .error refusal
          | .ok true =>
              .ok (some (ip ++ " is in the guest range ".toList ++
                (guestSub host s).toOption.getD [] ++
                ", where guests get their addresses".toList))
          | .ok false =>
              .ok (((staticIps s.staticclients).find? fun entry =>
                entry.2 = ip ∧ entry.1 ≠ name).map fun entry =>
                  ip ++ " is already assigned to ".toList ++ entry.1)

def checkStaticIp (s : AddressState) (name ip : Text) : Except Refusal Unit :=
  match staticIpProblem host s name ip with
  | .error refusal => .error refusal
  | .ok (some problem) => .error (.pki problem)
  | .ok none => .ok ()

def pushFile (ip mask : Text) : Text := "ifconfig-push ".toList ++ ip ++ ' ' :: mask ++ ['\n']

def subnetMask (conf : Text) : Text :=
  ((vpnSubnet host.wide conf).map fun subnet => dotted (netmask subnet.net)).getD
    "255.255.255.0".toList

def setGuest (name : Text) (guest : Bool) (s : AddressState) : Except Refusal AddressState := do
  validateName name
  if guest then
    pure { s with
      staticclients := s.staticclients.erase name
      guests := if name ∈ s.guests then s.guests else name :: s.guests }
  else pure { s with guests := s.guests.filter (· ≠ name) }

-- No address and an empty one remove the file.
def setStaticIp (name : Text) (ip : Option Text) (s : AddressState) :
    Except Refusal AddressState := do
  validateName name
  let ip := ip.getD []
  if ip ≠ [] ∧ name ∈ guestNames s.guests then
    .error (.pki ("Guests get an address from the guest range for each device; make the client " ++
      "a full-access one to give it a static IP").toList)
  else if ip = [] then pure { s with staticclients := s.staticclients.erase name }
  else
    checkStaticIp host s name ip
    pure { s with
      staticclients := s.staticclients.set name (pushFile ip (subnetMask host s.serverConf)) }

end Static

section Create

inductive CertState where
  | valid
  | expired
  | revoked
  deriving DecidableEq, Repr

structure NewClient where
  name : Text
  days : Option Int
  passphrase : Option Text
  staticIp : Option Text
  guest : Bool

-- The certificate the name has, and why genclient.sh fails, if it does. The
-- script has written the static address when it ends well.
structure PkiAnswer where
  existing : Option CertState
  failure : Option Text

-- s/^[[:space:]]*server[[:space:]]\+[0-9.]\+[[:space:]]\+\([0-9.]\+\).*/\1/p on a line
def maskLine (line : Text) : Option Text := do
  let rest ← afterWord "server" (line.dropWhile isSpace)
  if rest.head?.any isSpace then
    let rest := rest.dropWhile isSpace
    let after := rest.dropWhile addressChar
    let mask := (after.dropWhile isSpace).takeWhile addressChar
    if rest.head?.any addressChar && after.head?.any isSpace && !mask.isEmpty then some mask
    else none
  else none

def serverMask (conf : Text) : Text :=
  ((conf.splitOn '\n').findSome? maskLine).getD "255.255.255.0".toList

variable (host : Host)

def pkiCreateClient (name : Text) (days : Option Int) (passphrase staticIp : Text)
    (answer : PkiAnswer) (s : AddressState) : Except Refusal AddressState := do
  validateName name
  if days.any fun n => ¬(1 ≤ n ∧ n ≤ 3650) then
    .error (.pki "Validity must be between 1 and 3650 days".toList)
  else
    if staticIp ≠ [] then checkStaticIp host s name staticIp else pure ()
    if passphrase ≠ [] ∧ passphrase.length < 4 then
      .error (.pki "Passphrase must be at least 4 characters".toList)
    else
      match answer.failure with
      | some message => .error (.pki message)
      | none =>
          if staticIp = [] then pure s
          else
            pure { s with
              staticclients :=
                s.staticclients.set name (pushFile staticIp (serverMask s.serverConf)) }

-- `_create_client`, up to what it does in the database and for 2FA.
def createClient (body : NewClient) (answer : PkiAnswer) (s : AddressState) :
    Except Refusal AddressState := do
  let name := pyStrip body.name
  validateName name
  let ip := pyStrip (body.staticIp.getD [])
  if answer.existing = some .valid then
    .error (.http 409 "A client with this name already exists".toList)
  else if answer.existing = some .expired then
    .error (.http 409
      "This client's certificate has expired - renew it on the client's page".toList)
  else if body.guest ∧ ip ≠ [] then
    .error (.http 400
      "Guests get an address from the guest range for each device, not a static IP".toList)
  else
    let s ← pkiCreateClient host name body.days (body.passphrase.getD []) ip answer s
    let s ← setGuest name body.guest s
    if ip = [] then setStaticIp host name none s else pure s

end Create

section Save

-- What `save_settings` does under the lock with the settings it validated.
def writeSettings (data : NetworkSettings) (s : AddressState) : Except Refusal AddressState :=
  match serverConfLines s.serverConf data with
  | none => .error .valueError
  | some lines =>
      match serverConfText (joinWith '\n' lines ++ ['\n']) with
      | .error message => .error (.pki message)
      | .ok conf => .ok { s with serverConf := conf, settings := some (settingsConf data) }

variable (host : Host)

def validateSettings (body : NetworkSettings) (s : AddressState) :
    Except Refusal NetworkSettings :=
  match validate host.python ((staticIps s.staticclients).map Prod.snd) body with
  | .error failure => .error (.ofFailure failure)
  | .ok data => .ok data

def saveSettings (body : NetworkSettings) (s : AddressState) : Except Refusal AddressState := do
  let data ← validateSettings host body s
  writeSettings data s

end Save

section Lease

-- GUEST_FIRST and GUEST_LAST of `prepare_access`, for a subnet in CIDR notation.
def leaseRange (guestSub : Text) : Option (Nat × Nat) :=
  match cutFirst '/' guestSub with
  | none => none
  | some (address, bits) =>
      match parseIPv4 address, decimal? bits with
      | some net, some bits =>
          if bits ≤ 32 then
            some ((net.toNat + 1) % 2 ^ 32,
              (net.toNat + 2 ^ (32 - bits) + 2 ^ 32 - 2) % 2 ^ 32)
          else none
      | _, _ => none

-- The range the entrypoint prepares when it starts OpenVPN in this state.
def prepareAccess (host : Host) (s : AddressState) : Option (Nat × Nat) :=
  (loadNetworkSettings host.vars (host.trustDefault s.serverConf) (host.guestDefault s.serverConf)
    s.settings).bind fun vars => leaseRange vars.guestSub

end Lease

section Step

inductive Operation where
  | setStaticIp (name : Text) (ip : Option Text)
  | setGuest (name : Text) (guest : Bool)
  | createClient (body : NewClient) (answer : PkiAnswer)
  | saveSettings (body : NetworkSettings)

variable (host : Host)

def Operation.run : Operation → AddressState → Except Refusal AddressState
  | .setStaticIp name ip => Network.setStaticIp host name ip
  | .setGuest name guest => Network.setGuest name guest
  | .createClient body answer => Network.createClient host body answer
  | .saveSettings body => Network.saveSettings host body

def addressStep (s : AddressState) (operation : Operation) : Option AddressState :=
  match operation.run host s with
  | .ok next => some next
  | .error _ => some s

end Step

end OpenvpnServer.Network
