import OpenvpnServer.Network.Settings

namespace OpenvpnServer.Network

open OpenvpnServer.Lib OpenvpnServer.Lib.Ipaddress

section Addressing

def firstAddress (net : Network 32) : Nat := net.address.toNat

def broadcastAddress (net : Network 32) : Nat :=
  net.address.toNat + 2 ^ (32 - net.prefixlen) - 1

def inNetwork (ip : Nat) (net : Network 32) : Prop :=
  firstAddress net ≤ ip ∧ ip ≤ broadcastAddress net

instance (ip : Nat) (net : Network 32) : Decidable (inNetwork ip net) :=
  inferInstanceAs (Decidable (_ ∧ _))

structure Addressing where
  net : Network 32
  guest : Network 32
  first : Nat
  last : Nat

-- The pool and the guest range lie in the network, apart from each other and
-- from the server's own address.
def Addressing.fits (a : Addressing) : Prop :=
  a.net.prefixlen ≤ 28 ∧
  (firstAddress a.net ≤ firstAddress a.guest ∧ broadcastAddress a.guest ≤ broadcastAddress a.net) ∧
  (a.net.prefixlen < a.guest.prefixlen ∧ a.guest.prefixlen ≤ 30) ∧
  (firstAddress a.net + 1 < a.first ∧ a.first ≤ a.last ∧ a.last < broadcastAddress a.net) ∧
  ¬(a.first ≤ broadcastAddress a.guest ∧ firstAddress a.guest ≤ a.last) ∧
  ¬inNetwork (firstAddress a.net + 1) a.guest

instance (a : Addressing) : Decidable a.fits := by
  unfold Addressing.fits
  infer_instance

def parseAddressing (data : NetworkSettings) : Option Addressing :=
  match ipv4Network data.vpnSubnet, ipv4Network data.guestSubnet, Netip.parseIPv4 data.poolFirst,
    Netip.parseIPv4 data.poolLast with
  | some net, some guest, some first, some last =>
      let a : Addressing := ⟨net, guest, first.toNat, last.toNat⟩
      if a.fits then some a else none
  | _, _, _, _ => none

def validateDns (values : List Text) : Option (List Text) :=
  (values.mapM Netip.parseIPv4).map fun ips => fromKeys (ips.map fun ip => dotted ip.toNat)

-- An address in use may not lie outside the network, in the guest range or the
-- pool, or be reserved.
def checkStatic (a : Addressing) : List Text → Except Failure Unit
  | [] => .ok ()
  | text :: rest =>
      match Netip.parseIPv4 text with
      | none => .error .valueError
      | some ip =>
          if ¬inNetwork ip.toNat a.net ∨ inNetwork ip.toNat a.guest ∨
              (a.first ≤ ip.toNat ∧ ip.toNat ≤ a.last) ∨
              ip.toNat ∈ [firstAddress a.net, firstAddress a.net + 1, broadcastAddress a.net] then
            refuse "Move existing static client addresses before changing these networks"
          else checkStatic a rest

def addressingRefused : Failure :=
  .pki ("Use a valid VPN subnet, a client pool inside it and a separate guest subnet inside " ++
    "it").toList

-- `staticIps` is what `pki.static_ips()` finds.
def validateAddressing (staticIps : List Text) (data : NetworkSettings) :
    Except Failure NetworkSettings :=
  match parseAddressing data, validateDns data.dnsServers with
  | some a, some dns => do
      checkStatic a staticIps
      let routes ← cidrs data.routes true
      let proxies ← cidrs data.proxyCidrs false
      if proxies = [] then refuse "Keep at least one trusted proxy address"
      else
        pure { data with
          vpnSubnet := (IpNetwork.v4 a.net).str
          guestSubnet := (IpNetwork.v4 a.guest).str
          poolFirst := dotted a.first
          poolLast := dotted a.last
          dnsServers := dns
          routes := routes
          proxyCidrs := proxies }
  | _, _ => .error addressingRefused

end Addressing

section Gateway

variable (python : Python)

def optional (check : Text → Except Failure Text) (value : Text) : Except Failure Text :=
  if value = [] then .ok value else check value

def withMessage (message : String) : Except Failure Text → Except Failure Text
  | .error (.pki _) => refuse message
  | result => result

def validateGuestLink (domain : Text) (reserved : List Text) (link : GuestLink) :
    Except Failure GuestLink :=
  let raw := pyStrip link.url
  let about (message : Text) : Except Failure GuestLink :=
    .error (.pki ("Guest link ".toList ++ python.repr raw ++ message))
  let refused := about ": enter an https:// address without a port or credentials".toList
  match python.urlsplit raw with
  | none => refused
  | some url =>
      match hostname python (url.hostname.getD []) with
      | .error _ => refused
      | .ok host =>
          if url.scheme ≠ "https".toList ∨
              (url.port ≠ some none ∧ url.port ≠ some (some 443)) ∨ given url.username = true ∨
              given url.password = true ∨ raw.any unsafeChar = true then
            refused
          else if domain = [] ∨ ('.' :: domain).isSuffixOf host = false then
            about (": only websites under your domain (".toList ++
              (if domain = [] then "not set".toList else domain) ++
              ") can be opened by guests".toList)
          else if host ∈ reserved then about ": this hostname cannot be a guest link".toList
          else
            .ok { link with
              url := python.urlunsplit "https".toList host
                (if url.path = [] then ['/'] else url.path) url.query url.fragment }

-- [a-z][a-z0-9-]{0,39}
def isServiceName (name : Text) : Bool :=
  name.head?.any Char.isLower && name.length ≤ 40 &&
    name.all fun c => c.isLower || c.isDigit || c = '-'

def validateServices (reserved : List Text) : List Text → List Service →
    Except Failure (List Service)
  | _, [] => .ok []
  | names, service :: rest =>
      if isServiceName service.name = false ∨ service.name ∈ names then
        refuse "Give each service a unique lowercase name"
      else do
        let host ← hostname python service.host
        let url ← backendUrl python service.url
        if host ∈ reserved then
          refuse "Additional services cannot use the OpenVPN website or dashboard hostname"
        else if service.paths.any fun path => path.head? ≠ some '/' || path.any unsafeChar then
          refuse "Service paths must start with / and contain no whitespace or template characters"
        else
          let services ← validateServices reserved (service.name :: names) rest
          pure ({ service with host := host, url := url } :: services)

def validateGateway (gateway : Gateway) : Except Failure Gateway := do
  let domain ← optional (hostname python) gateway.domain
  let openvpnHost ← optional (hostname python) gateway.openvpnHost
  let relayHost ← optional (hostname python) gateway.relayHost
  let openvpnBackend ← optional (fun value => withMessage
    ("VPN server web address: enter an HTTP(S) URL with the web UI port, " ++
      "such as http://192.0.2.20:8080") (backendUrl python value)) gateway.openvpnBackend
  let relayBackend ← optional (fun value => withMessage
    "Relay backend: enter this server's address and relay port, such as 192.0.2.20:8444"
    (hostPort python value)) gateway.relayBackend
  let relayPublicUrl ← optional (validateUrl python) gateway.relayPublicUrl
  let listener ← optional (portalListener python) gateway.portalListener
  if gateway.portalListener ≠ [] ∧ openvpnHost = [] then
    refuse "Set the website hostname before the guest portal listener"
  else
    let trustedCidrs ← cidrs gateway.trustedCidrs false
    let reserved := [openvpnHost, "dashboard.".toList ++ domain]
    let guestLinks ← gateway.guestLinks.mapM
      (validateGuestLink python domain (reserved ++ [relayHost]))
    let services ← validateServices python reserved [] gateway.services
    pure {
      domain, openvpnHost, openvpnBackend, relayHost, relayBackend, relayPublicUrl
      portalListener := listener
      trustedCidrs, guestLinks, services
      replaceServices := gateway.replaceServices || !gateway.services.isEmpty }

def validate (staticIps : List Text) (body : NetworkSettings) : Except Failure NetworkSettings := do
  let data ← validateAddressing staticIps body
  let gateway ← validateGateway python data.gateway
  pure { data with gateway := gateway }

end Gateway

end OpenvpnServer.Network
