import OpenvpnServer.Config.Edit
import OpenvpnServer.Lib.Shlex
import OpenvpnServer.Network.Validate

-- The network lines of server.conf: how a save replaces them and how
-- `vpn_subnet` reads them back.
namespace OpenvpnServer.Network

open OpenvpnServer.Lib OpenvpnServer.Lib.Ipaddress OpenvpnServer.Lib.Netip
open OpenvpnServer.Config (afterWord afterNewlines endLine keepsManagement replaceCrLf writeConfig)

section Write

def pushesNetwork (pushed : List Text) : Bool :=
  pushed.head? = some "route".toList || pushed.head? = some "dns".toList ||
    pushed.take 2 = ["dhcp-option".toList, "DNS".toList]

-- Whether a save drops a line; `none` is the `ValueError` of `shlex`.
def replacedLine (line : Text) : Option Bool :=
  match shlexSplit true line with
  | none => none
  | some words =>
      if words.head? = some "server".toList ∨ words.head? = some "ifconfig-pool".toList then
        some true
      else
        match words with
        | word :: argument :: _ =>
            if word = "push".toList then (shlexSplit false argument).map pushesNetwork
            else some false
        | _ => some false

def keptLines : List Text → Option (List Text)
  | [] => some []
  | line :: rest =>
      match replacedLine line with
      | none => none
      | some replaced =>
          (keptLines rest).map fun kept => if replaced then kept else line :: kept

def serverLine (net : Network 32) : Text :=
  "server ".toList ++ dotted net.address.toNat ++ ' ' :: dotted (netmask net) ++ " nopool".toList

def poolLine (first last : Text) : Text := "ifconfig-pool ".toList ++ first ++ ' ' :: last

-- Two lines for each server, which the first of them numbers.
def dnsLines : Nat → List Text → List Text
  | _, [] => []
  | i, dns :: rest =>
      ("push \"dns server ".toList ++ decimal i ++ " address ".toList ++ dns ++ ['"']) ::
        ("push \"dhcp-option DNS ".toList ++ dns ++ ['"']) :: dnsLines (i + 1) rest

def routeLine (route : Network 32) : Text :=
  "push \"route ".toList ++ dotted route.address.toNat ++ ' ' :: dotted (netmask route) ++ ['"']

def networkLines (data : NetworkSettings) : Option (List Text) :=
  match ipv4Network data.vpnSubnet, data.routes.mapM ipv4Network with
  | some net, some routes =>
      some (serverLine net :: poolLine data.poolFirst data.poolLast ::
        (dnsLines 0 data.dnsServers ++ routes.map routeLine))
  | _, _ => none

def serverConfLines (conf : Text) (data : NetworkSettings) : Option (List Text) :=
  match keptLines (pyLines (universalNewlines conf)), networkLines data with
  | some kept, some added => some (kept ++ added)
  | _, _ => none

-- `"\n".join(lines) + "\n"`
def confContent (lines : List Text) : Text := joinWith '\n' lines ++ ['\n']

-- What `write_config` leaves in the file, as `Config.writeConfig` has it in bytes.
def serverConfText (content : Text) : Except Text Text :=
  if 200000 < content.length then .error "Configuration file too large".toList
  else if keepsManagement (endLine (replaceCrLf content)) = false then
    .error "server.conf must keep the 'management' line - the UI needs it".toList
  else .ok (endLine (replaceCrLf content))

theorem writeConfig_eq (content : Text) :
    writeConfig .server content =
      match serverConfText content with
      | .error message => .error (.pki (String.ofList message))
      | .ok text => .ok (utf8 text) := by
  unfold writeConfig serverConfText
  by_cases hlong : 200000 < content.length
  · simp [hlong]
  · by_cases hkeeps : keepsManagement (endLine (replaceCrLf content)) = false
    · simp [hlong, hkeeps]
    · simp [hlong, hkeeps]

end Write

section Read

-- \s+
def afterSpaces : Text → Option Text
  | [] => none
  | c :: rest => if pySpace c then some (rest.dropWhile pySpace) else none

-- \s*word\s+ at the start of a line
def afterOption (word : String) (start : Text) : Option Text :=
  (afterWord word (start.dropWhile pySpace)).bind afterSpaces

-- The first match of a pattern that starts with ^, in mode re.M.
def searchLines {α : Type} (pattern : Text → Option α) (text : Text) : Option α :=
  (text :: afterNewlines text).findSome? pattern

variable (wide : Char → Bool)

-- [\d.], where \d also has the decimal digits beyond ASCII
def numberChar (c : Char) : Bool := c = '.' || c.isDigit || (127 < c.toNat && wide c)

-- ([\d.]+)
def numberAt (text : Text) : Option (Text × Text) :=
  if text.takeWhile (numberChar wide) = [] then none
  else some (text.takeWhile (numberChar wide), text.dropWhile (numberChar wide))

-- \s*word\s+([\d.]+)\s+([\d.]+) and what follows
def twoNumbers (word : String) (start : Text) : Option (Text × Text × Text) := do
  let rest ← afterOption word start
  let (first, rest) ← numberAt wide rest
  let rest ← afterSpaces rest
  let (second, rest) ← numberAt wide rest
  pure (first, second, rest)

-- (\s+nopool)?
def nopoolAt (text : Text) : Bool := ((afterSpaces text).bind (afterWord "nopool")).isSome

structure VpnSubnet where
  net : Network 32
  first : Nat
  last : Nat
  deriving DecidableEq

-- `vpn_subnet()`; the pool without an address has its last one before its first.
def vpnSubnet (conf : Text) : Option VpnSubnet :=
  let text := universalNewlines conf
  match searchLines (twoNumbers wide "server") text with
  | none => none
  | some (address, mask, rest) =>
      match ipv4NetworkOf (address ++ '/' :: mask) with
      | none => none
      | some net =>
          if nopoolAt rest then
            match searchLines (twoNumbers wide "ifconfig-pool") text with
            | none => some ⟨net, 1, 0⟩
            | some (first, last, _) =>
                match parseIPv4 first, parseIPv4 last with
                | some first, some last => some ⟨net, first.toNat, last.toNat⟩
                | _, _ => none
          else some ⟨net, firstAddress net + 2, broadcastAddress net - 1⟩

end Read

end OpenvpnServer.Network
