import Mathlib.Data.Char
import Mathlib.Data.List.Lex
import Mathlib.Data.List.Sort
import OpenvpnServer.Lib.Utf8
import OpenvpnServer.Network.AddressPlan
import OpenvpnServer.Network.Load
import OpenvpnServer.Relay.Policy

-- From the saved settings to the relay's policy: `relay.authorize` in Python,
-- the policy service's answer in JSON, and the policy the relay decodes.
namespace OpenvpnServer.Relay

open OpenvpnServer.Lib OpenvpnServer.Network

-- Why there is no answer: a `ValueError`, a `TypeError` or another failure to
-- take a value apart, or a refused name.
inductive StateError where
  | valueError
  | typeError
  | refused (refusal : Refusal)
  deriving DecidableEq

structure Cert where
  cn : Text
  serial : Text
  notBefore : Option Nat
  notAfter : Option Nat
  deriving DecidableEq, Repr

-- What `authorize` reads: the clock, settings.conf, the rows of the settings
-- table, the issued certificates, the status of each serial in index.txt
-- (`none` when it cannot be read) and the guest markers.
structure PolicyState where
  now : Nat
  networkFile : Option Text
  rows : Text → Option Text
  certificates : Text → Option Cert
  index : Option (Text → Option Text)
  guests : List Text

-- `hexdigest()`: two digits for each of the 32 bytes
def hexdigest (digest : BitVec 256) : Text :=
  (List.range 64).map fun i => Nat.digitChar (digest.toNat / 2 ^ (252 - 4 * i) % 16)

section Eligible

def eligible (s : PolicyState) (name : Text) : Except StateError (Option Cert) :=
  match validateName name with
  | .error refusal => .error (.refused refusal)
  | .ok () =>
      match s.certificates name, s.index with
      | some cert, some index =>
          if cert.cn ≠ name ∨ index cert.serial ≠ some ['V'] ∨ cert.notAfter.getD 0 ≤ s.now ∨
              s.now < cert.notBefore.getD 0 then
            .ok none
          else .ok (some cert)
      | _, _ => .ok none

end Eligible

section Portal

-- `urllib`, and the flag that is made of a value other than `true` and `false`.
variable (python : Python) (laxBool : Json → Option Bool)

-- The "portal" object. A link's hostname may be missing.
structure PortalAnswer where
  host : Text
  target : Text
  hosts : List (Option Text)
  deriving DecidableEq

-- `link_rule(link)["host"]`
def linkHost (link : GuestLink) : Except StateError (Option Text) :=
  match python.urlsplit link.url with
  | none => .error .valueError
  | some url => .ok url.hostname

def textLe (a b : Option Text) : Prop := a.getD [] ≤ b.getD []

instance (a b : Option Text) : Decidable (textLe a b) :=
  inferInstanceAs (Decidable (_ ≤ _))

-- `sorted(set(hosts))`; a missing host does not compare with a text.
def sortedHosts (hosts : List (Option Text)) : Except StateError (List (Option Text)) :=
  if none ∈ hosts ∧ 1 < (fromKeys hosts).length then .error .typeError
  else .ok ((fromKeys hosts).insertionSort textLe)

def loadNetwork (file : Option Text) : Except StateError Json :=
  match readNetwork file with
  | .error _ => .error .valueError
  | .ok saved => .ok saved

def guestPortal (file : Option Text) : Except StateError (Option PortalAnswer) := do
  let saved ← loadNetwork file
  if truthy saved = false then pure none
  else
    match saved with
    | .obj members =>
        match NetworkSettings.ofMembers laxBool members with
        | none => .error .valueError
        | some data =>
            if data.gateway.openvpnHost = [] ∨ data.gateway.portalListener = [] then pure none
            else do
              let hosts ← data.gateway.guestLinks.mapM (linkHost python)
              let hosts ← sortedHosts hosts
              pure (some ⟨data.gateway.openvpnHost, data.gateway.portalListener, hosts⟩)
    | _ => .error .typeError

-- `settings.read_network().get("routes", [])`
def savedRoutes (file : Option Text) : Except StateError Json := do
  match ← loadNetwork file with
  | .obj members => pure ((member? "routes" members).getD (.arr []))
  | _ => .error .typeError

end Portal

section Authorize

variable (python : Python) (laxBool : Json → Option Bool) (sha256 : Text → BitVec 256)

structure RelaySettings where
  enabled : Bool
  url : Text
  deriving DecidableEq

-- `get_settings(db)`
def relaySettings (s : PolicyState) : Except StateError RelaySettings :=
  match Json.loads ((s.rows "apple_relay".toList).getD ['{', '}']) with
  | none => .error .valueError
  | some (.obj members) =>
      let read : Option RelaySettings := do
        let enabled ← withDefault members "enabled" false (readBool laxBool)
        let url ← withDefault members "url" [] (readTextUpTo 2048)
        pure ⟨enabled, url⟩
      match read with
      | none => .error .valueError
      | some config => .ok config
  | some _ => .error .typeError

-- A client's row. The serial is only looked at when the secret fits.
structure Grant where
  secret : Text
  serial : Option Json

def readGrant (raw : Text) : Except StateError Grant :=
  match Json.loads raw with
  | none => .error .valueError
  | some (.obj members) =>
      match member? "secret" members with
      | some (.str secret) => .ok ⟨secret, member? "serial" members⟩
      | _ => .error .typeError
  | some _ => .error .typeError

-- The certificate is there and the one the grant was given for.
def Grant.holds (grant : Grant) : Option Cert → Except StateError Bool
  | none => .ok false
  | some cert =>
      match grant.serial with
      | none => .error .typeError
      | some (.str serial) => .ok (cert.serial = serial)
      | some _ => .ok false

structure PolicyAnswer where
  client : Text
  credentialId : Text
  guest : Bool
  url : Text
  blockedCidrs : Json
  portal : Option PortalAnswer

-- A failure to read the network settings is only raised in strict mode, and
-- only a `TypeError` always.
def lenient {α : Type} (strictState : Bool) : Except StateError α → Except StateError (Option α)
  | .ok value => .ok (some value)
  | .error .valueError => if strictState then .error .valueError else .ok none
  | .error failure => .error failure

-- What only a guest's answer has: the portal and the pushed routes.
def guestFields (s : PolicyState) (guest : Bool) :
    Except StateError (Option PortalAnswer × Json) :=
  if guest then do
    let portal ← guestPortal python laxBool s.networkFile
    let routes ← savedRoutes s.networkFile
    pure (portal, routes)
  else pure (none, .arr [])

def authorize (s : PolicyState) (authorization : Text) (strictState : Bool) :
    Except StateError (Option PolicyAnswer) :=
  if "Bearer ".toList.isPrefixOf authorization = false ∨ 512 < authorization.length then .ok none
  else
    match cutFirst ':' (authorization.drop 7) with
    | none => .ok none
    | some (name, secret) =>
        match s.rows ("relay_client:".toList ++ name) with
        | none => .ok none
        | some raw =>
            if raw = [] then .ok none
            else do
              let grant ← readGrant raw
              if secret ≠ grant.secret then pure none
              else
                let cert ← eligible s name
                let config ← relaySettings laxBool s
                let guest := decide (name ∈ s.guests)
                if config.enabled = false then pure none
                else
                  let holds ← grant.holds cert
                  if holds = false then pure none
                  else
                    let fields ← lenient strictState (guestFields python laxBool s guest)
                    pure (fields.map fun (portal, routes) =>
                      { client := name
                        credentialId := hexdigest (sha256 grant.secret)
                        guest := guest
                        url := config.url
                        blockedCidrs := routes
                        portal := portal })

end Authorize

section Reply

def hostJson : Option Text → Json
  | some host => .str host
  | none => .null

def PortalAnswer.toJson (portal : PortalAnswer) : Json :=
  .obj [("host".toList, .str portal.host), ("target".toList, .str portal.target),
    ("hosts".toList, .arr (portal.hosts.map hostJson))]

def PolicyAnswer.toJson (answer : PolicyAnswer) : Json :=
  .obj [("client".toList, .str answer.client),
    ("credential_id".toList, .str answer.credentialId), ("guest".toList, .bool answer.guest),
    ("url".toList, .str answer.url),
    ("allowed_cidrs".toList, texts ["0.0.0.0/0".toList, "::/0".toList]),
    ("blocked_cidrs".toList, answer.blockedCidrs),
    ("portal".toList, (answer.portal.map PortalAnswer.toJson).getD .null)]

-- `json.dumps(body).encode()`
def reply (answer : PolicyAnswer) : Bytes := utf8 answer.toJson.dumpsSpaced

end Reply

section Decode

def decodeLimit : Nat := 32768

-- A missing member and `null` leave a field as it is, which is empty.
def decodeText : Option Json → Option Text
  | none | some .null => some []
  | some (.str text) => some text
  | some _ => none

def decodeTexts : Option Json → Option (List Text)
  | none | some .null => some []
  | some (.arr items) => items.mapM fun item => decodeText (some item)
  | some _ => none

def decodeFlag : Option Json → Option Bool
  | none | some .null => some false
  | some (.bool value) => some value
  | some _ => none

def decodePortal : Option Json → Option (Option PortalConfig)
  | none | some .null => some none
  | some (.obj members) => do
      let host ← decodeText (member? "host" members)
      let target ← decodeText (member? "target" members)
      let hosts ← decodeTexts (member? "hosts" members)
      pure (some ⟨host, target, hosts⟩)
  | some _ => none

def Policy.ofJson : Json → Option Policy
  | .obj members => do
      let credentialID ← decodeText (member? "credential_id" members)
      let client ← decodeText (member? "client" members)
      let cidrs ← decodeTexts (member? "allowed_cidrs" members)
      let blockedCIDRs ← decodeTexts (member? "blocked_cidrs" members)
      let url ← decodeText (member? "url" members)
      let guest ← decodeFlag (member? "guest" members)
      let portal ← decodePortal (member? "portal" members)
      pure { credentialID, client, cidrs, blockedCIDRs, url, guest, portal }
  | _ => none

-- `json.NewDecoder(io.LimitReader(resp.Body, 32768)).Decode(&p)`: the first value
-- of what is left of the body. The relay's decoder and Python's differ in what
-- no answer has, such as `NaN` and surrogates without a partner.
def decodePolicy (body : Bytes) : Option Policy := do
  let text ← utf8Decode? (body.take decodeLimit)
  let (json, _) ← Json.scanValue text.length (Json.skipSpace text)
  Policy.ofJson json

end Decode

end OpenvpnServer.Relay
