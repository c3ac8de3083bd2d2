import OpenvpnServer.Lib.Json
import OpenvpnServer.Network.Validate

-- The two files `save_settings` writes and their three readers. Files are texts.
namespace OpenvpnServer.Network

open OpenvpnServer.Lib OpenvpnServer.Lib.Ipaddress OpenvpnServer.Lib.Netip

section Write

def texts (values : List Text) : Json := .arr (values.map .str)

def GuestLink.toJson (link : GuestLink) : Json :=
  .obj [("url".toList, .str link.url), ("whole_site".toList, .bool link.wholeSite)]

def Service.toJson (service : Service) : Json :=
  .obj [("name".toList, .str service.name), ("host".toList, .str service.host),
    ("url".toList, .str service.url), ("public".toList, .bool service.isPublic),
    ("paths".toList, texts service.paths), ("insecure_tls".toList, .bool service.insecureTls)]

def Gateway.toJson (gateway : Gateway) : Json :=
  .obj [("domain".toList, .str gateway.domain), ("openvpn_host".toList, .str gateway.openvpnHost),
    ("openvpn_backend".toList, .str gateway.openvpnBackend),
    ("relay_host".toList, .str gateway.relayHost),
    ("relay_backend".toList, .str gateway.relayBackend),
    ("relay_public_url".toList, .str gateway.relayPublicUrl),
    ("portal_listener".toList, .str gateway.portalListener),
    ("trusted_cidrs".toList, texts gateway.trustedCidrs),
    ("guest_links".toList, .arr (gateway.guestLinks.map GuestLink.toJson)),
    ("replace_services".toList, .bool gateway.replaceServices),
    ("services".toList, .arr (gateway.services.map Service.toJson))]

-- `model_dump()` as JSON
def NetworkSettings.toJson (data : NetworkSettings) : Json :=
  .obj [("vpn_subnet".toList, .str data.vpnSubnet), ("pool_first".toList, .str data.poolFirst),
    ("pool_last".toList, .str data.poolLast), ("guest_subnet".toList, .str data.guestSubnet),
    ("dns_servers".toList, texts data.dnsServers), ("routes".toList, texts data.routes),
    ("proxy_cidrs".toList, texts data.proxyCidrs), ("gateway".toList, data.gateway.toJson)]

def settingLine (key : String) (value : Text) : Text := key.toList ++ '=' :: value ++ ['\n']

def settingFields (data : NetworkSettings) : List (String × Text) :=
  [("TRUST_SUB", data.vpnSubnet), ("GUEST_SUB", data.guestSubnet),
    ("PROXY_CIDRS", joinWith ' ' data.proxyCidrs),
    ("GUEST_PORTAL_TARGET", data.gateway.portalListener), ("NETWORK_JSON", data.toJson.dumps)]

def settingsConf (data : NetworkSettings) : Text :=
  (settingFields data).flatMap fun field => settingLine field.1 field.2

def proxiesConf (data : NetworkSettings) : Text :=
  settingLine "PROXY_CIDRS" (joinWith ' ' data.proxyCidrs)

end Write

section PythonReader

inductive ReadFailure where
  | jsonDecode
  | valueError (message : String)
  deriving DecidableEq, Repr

def readNetwork (file : Option Text) : Except ReadFailure Json :=
  match file with
  | none => .ok (.obj [])
  | some text =>
      match (splitlines (universalNewlines text)).find? ("NETWORK_JSON=".toList.isPrefixOf ·) with
      | none => .error (.valueError "Network settings are incomplete; save them again in Settings")
      | some line =>
          match Json.loads (line.drop "NETWORK_JSON=".length) with
          | none => .error .jsonDecode
          | some json => .ok json

end PythonReader

section ShellReader

-- The three variables of the entrypoint; unset is empty.
structure ShellVars where
  trustSub : Text
  guestSub : Text
  guestPortalTarget : Text
  deriving DecidableEq, Repr

-- IFS='=' read -r key value: the value is all that follows, except for a
-- delimiter at the end of an otherwise single word.
def shellRead (line : Text) : Text × Text :=
  match cutFirst '=' line with
  | none => (line, [])
  | some (key, value) =>
      match cutFirst '=' value with
      | some (word, []) => (key, word)
      | _ => (key, value)

def ShellVars.assign (vars : ShellVars) (line : Text) : ShellVars :=
  let (key, value) := shellRead line
  if key = "TRUST_SUB".toList then { vars with trustSub := value }
  else if key = "GUEST_SUB".toList then { vars with guestSub := value }
  else if key = "GUEST_PORTAL_TARGET".toList then { vars with guestPortalTarget := value }
  else vars

-- Only terminated lines are processed, and NUL bytes are dropped.
def shellLines (text : Text) : List Text := ((text.filter (· ≠ '\x00')).splitOn '\n').dropLast

def portalIpv4 (text : Text) : Bool :=
  match (text.splitOn '.').mapM parseOctet with
  | some [a, b, _, _] => a ≠ 0 && a ≠ 127 && !(a = 169 && b = 254) && a < 224
  | _ => false

-- ^[1-9][0-9]{3,4}$ and at most 65535
def portalPort (text : Text) : Bool :=
  text.head? ≠ some '0' && (text.length = 4 || text.length = 5) &&
    (decimal? text).any fun n => n ≤ 65535

def guestPortalValidate (target : Text) : Bool :=
  let (ip, port) := (cutLast ':' target).getD (target, target)
  target.isEmpty || (portalIpv4 ip && portalPort port)

-- The defaults from server.conf; there need not be one for guests.
def loadNetworkSettings (vars : ShellVars) (trustDefault : Text) (guestDefault : Option Text)
    (file : Option Text) : Option ShellVars :=
  let vars := ((file.map shellLines).getD []).foldl ShellVars.assign vars
  let vars := if vars.trustSub = [] then { vars with trustSub := trustDefault } else vars
  let guest := if vars.guestSub = [] then guestDefault else some vars.guestSub
  match guest with
  | none => none
  | some guest =>
      if guestPortalValidate vars.guestPortalTarget then some { vars with guestSub := guest }
      else none

end ShellReader

section GoReader

inductive FileRead where
  | missing
  | failed
  | content (text : Text)

-- unicode.IsSpace
def goSpace (c : Char) : Bool :=
  (9 ≤ c.toNat && c.toNat ≤ 13) || (8192 ≤ c.toNat && c.toNat ≤ 8202) ||
    c.toNat ∈ [32, 133, 160, 5760, 8232, 8233, 8239, 8287, 12288]

-- strings.Fields(strings.ReplaceAll(value, ",", " "))
def goFields (value : Text) : List Text :=
  (value.splitOnP fun c => c = ',' || goSpace c).filter (· ≠ [])

def trustedPrefix (cidr : Text) : Option Prefix :=
  match parsePrefix cidr with
  | none => none
  | some p => if p.bits = 0 then none else some p.masked

def parseTrustedProxies (value : Text) : Option (List Prefix) :=
  match (goFields value).mapM trustedPrefix with
  | none => none
  | some [] => none
  | some prefixes => some prefixes

-- The empty list trusts nobody.
def networkProxyTrust (file : FileRead) (fallback : List Prefix) : List Prefix :=
  match file with
  | .missing => fallback
  | .failed => []
  | .content text =>
      match (text.splitOn '\n').find? ("PROXY_CIDRS=".toList.isPrefixOf ·) with
      | none => []
      | some line => (parseTrustedProxies (line.drop "PROXY_CIDRS=".length)).getD []

end GoReader

end OpenvpnServer.Network
