import OpenvpnServer.Network.Theorems

-- `NetworkSettings(**saved)`: the saved object read through the models again,
-- with their defaults and limits.
namespace OpenvpnServer.Network

open OpenvpnServer.Lib

variable {key : String} {members : List (Text × Json)} {limit : Nat} {α : Type}

section Fields

-- `saved.get(key)`
def member? (key : String) (members : List (Text × Json)) : Option Json :=
  (members.find? (·.1 = key.toList)).map Prod.snd

theorem member?_of_mem {value : Json}
    (hnodup : (members.map Prod.fst).Nodup) (h : (key.toList, value) ∈ members) :
    member? key members = some value := by
  induction members with
  | nil => cases h
  | cons member rest ih =>
      rw [List.map_cons, List.nodup_cons] at hnodup
      unfold member?
      rcases List.mem_cons.mp h with rfl | hrest
      · rw [List.find?_cons_of_pos (by simp)]
        rfl
      · have hne : member.1 ≠ key.toList := fun he =>
          hnodup.1 (he ▸ List.mem_map_of_mem (f := Prod.fst) hrest)
        rw [List.find?_cons_of_neg (by simpa using hne)]
        exact ih hnodup.2 hrest

def readText : Json → Option Text
  | .str text => some text
  | _ => none

def readTextUpTo (limit : Nat) (json : Json) : Option Text :=
  (readText json).bind fun text => if text.length ≤ limit then some text else none

def readList {α : Type} (limit : Nat) (read : Json → Option α) : Json → Option (List α)
  | .arr items => if items.length ≤ limit then items.mapM read else none
  | _ => none

def required {α : Type} (members : List (Text × Json)) (key : String) (read : Json → Option α) :
    Option α := (member? key members).bind read

def withDefault {α : Type} (members : List (Text × Json)) (key : String) (value : α)
    (read : Json → Option α) : Option α :=
  match member? key members with
  | none => some value
  | some json => read json

end Fields

section Models

-- The flag that is made of a value other than `true` and `false`.
variable (laxBool : Json → Option Bool)

def readBool : Json → Option Bool
  | .bool value => some value
  | json => laxBool json

def GuestLink.ofJson : Json → Option GuestLink
  | .obj members => do
      let url ← required members "url" (readTextUpTo 2048)
      let wholeSite ← withDefault members "whole_site" false (readBool laxBool)
      pure { url, wholeSite }
  | _ => none

def Service.ofJson : Json → Option Service
  | .obj members => do
      let name ← required members "name" readText
      let host ← required members "host" readText
      let url ← required members "url" readText
      let isPublic ← withDefault members "public" false (readBool laxBool)
      let paths ← withDefault members "paths" [] (readList 100 readText)
      let insecureTls ← withDefault members "insecure_tls" false (readBool laxBool)
      pure { name, host, url, isPublic, paths, insecureTls }
  | _ => none

def Gateway.ofJson : Json → Option Gateway
  | .obj members => do
      let domain ← withDefault members "domain" [] readText
      let openvpnHost ← withDefault members "openvpn_host" [] readText
      let openvpnBackend ← withDefault members "openvpn_backend" [] readText
      let relayHost ← withDefault members "relay_host" [] readText
      let relayBackend ← withDefault members "relay_backend" [] readText
      let relayPublicUrl ← withDefault members "relay_public_url" [] readText
      let portalListener ← withDefault members "portal_listener" [] readText
      let trustedCidrs ← withDefault members "trusted_cidrs" [] (readList 100 readText)
      let guestLinks ← withDefault members "guest_links" []
        (readList 50 (GuestLink.ofJson laxBool))
      let replaceServices ← withDefault members "replace_services" false (readBool laxBool)
      let services ← withDefault members "services" [] (readList 100 (Service.ofJson laxBool))
      pure {
        domain, openvpnHost, openvpnBackend, relayHost, relayBackend, relayPublicUrl
        portalListener, trustedCidrs, guestLinks, replaceServices, services }
  | _ => none

def emptyGateway : Gateway := ⟨[], [], [], [], [], [], [], [], [], false, []⟩

-- `bool(value)`
def truthy : Json → Bool
  | .null => false
  | .bool value => value
  | .num literal => (literal.takeWhile fun c => c ≠ 'e' && c ≠ 'E').any fun c =>
      c ∉ ['0', '.', '-']
  | .str text => text ≠ []
  | .arr items => !items.isEmpty
  | .obj members => !members.isEmpty

-- `value or {}` of an optional member, where it is a dictionary
def memberDict (key : String) (members : List (Text × Json)) : Option (List (Text × Json)) :=
  match member? key members with
  | none => some []
  | some (.obj inner) => some inner
  | some json => if truthy json then none else some []

def memberTruthy (key : String) (members : List (Text × Json)) : Bool :=
  (member? key members).any truthy

-- Settings of development builds had a "portal" object.
def upgrade (members : List (Text × Json)) : Option (List (Text × Json)) :=
  if (member? "portal" members).isNone then some members
  else do
    let portal ← memberDict "portal" members
    let gateway ← memberDict "gateway" members
    let others := members.filter (·.1 ≠ "portal".toList)
    let target := (member? "target" portal).getD .null
    let gateway :=
      if memberTruthy "enabled" portal ∧ truthy target ∧
          memberTruthy "portal_listener" gateway = false then
        Dict.setEntry "portal_listener".toList target gateway
      else gateway
    pure (Dict.setEntry "gateway".toList (.obj gateway) others)

def NetworkSettings.ofMembers (members : List (Text × Json)) : Option NetworkSettings := do
  let members ← upgrade members
  let vpnSubnet ← required members "vpn_subnet" readText
  let poolFirst ← required members "pool_first" readText
  let poolLast ← required members "pool_last" readText
  let guestSubnet ← required members "guest_subnet" readText
  let dnsServers ← withDefault members "dns_servers" [] (readList 10 readText)
  let routes ← withDefault members "routes" [] (readList 100 readText)
  let proxyCidrs ← withDefault members "proxy_cidrs" ["127.0.0.1/32".toList, "::1/128".toList]
    (readList 100 readText)
  let gateway ← withDefault members "gateway" emptyGateway (Gateway.ofJson laxBool)
  pure {
    vpnSubnet, poolFirst, poolLast, guestSubnet, dnsServers, routes, proxyCidrs, gateway }

end Models

section ReadBack

variable {laxBool : Json → Option Bool}

theorem readTextUpTo_str {text read : Text} :
    readTextUpTo limit (.str text) = some read ↔ read = text ∧ text.length ≤ limit := by
  unfold readTextUpTo readText
  rw [Option.bind_some]
  by_cases h : text.length ≤ limit
  · simp [h, eq_comm]
  · simp [h]

theorem readList_map {read : Json → Option α} {f : α → Json}
    {fits : α → Prop} (hread : ∀ x y, read (f x) = some y ↔ y = x ∧ fits x) {l loaded : List α} :
    readList limit read (.arr (l.map f)) = some loaded ↔
      loaded = l ∧ l.length ≤ limit ∧ ∀ x ∈ l, fits x := by
  have hitems : (l.map f).mapM read = some loaded ↔ loaded = l ∧ ∀ x ∈ l, fits x := by
    induction l generalizing loaded with
    | nil => simp [eq_comm]
    | cons x rest ih =>
        simp only [List.map_cons, List.mapM_cons, Option.bind_eq_bind, Option.bind_eq_some_iff,
          Option.pure_def, Option.some.injEq, hread, ih, List.forall_mem_cons]
        constructor
        · rintro ⟨y, ⟨rfl, hfirst⟩, others, ⟨rfl, hrest⟩, rfl⟩
          exact ⟨rfl, hfirst, hrest⟩
        · rintro ⟨rfl, hfirst, hrest⟩
          exact ⟨x, ⟨rfl, hfirst⟩, rest, ⟨rfl, hrest⟩, rfl⟩
  unfold readList
  dsimp only
  rw [List.length_map]
  by_cases h : l.length ≤ limit
  · rw [if_pos h, hitems]
    simp [h]
  · simp [h]

theorem readList_texts {values loaded : List Text} :
    readList limit readText (texts values) = some loaded ↔
      loaded = values ∧ values.length ≤ limit := by
  have hread : ∀ x y : Text, readText (.str x) = some y ↔ y = x ∧ True := by
    simp [readText, eq_comm]
  unfold texts
  rw [readList_map hread]
  simp

theorem required_at {json : Json}
    (hnodup : (members.map Prod.fst).Nodup) (i : Nat) (h : members[i]? = some (key.toList, json))
    (read : Json → Option α) : required members key read = read json := by
  rw [required, member?_of_mem hnodup (List.mem_of_getElem? h), Option.bind_some]

theorem withDefault_at {json : Json}
    (hnodup : (members.map Prod.fst).Nodup) (i : Nat) (h : members[i]? = some (key.toList, json))
    (value : α) (read : Json → Option α) : withDefault members key value read = read json := by
  rw [withDefault, member?_of_mem hnodup (List.mem_of_getElem? h)]

theorem keys_nodup (h : Json.WellFormed (.obj members)) :
    (members.map Prod.fst).Nodup := h.1

theorem GuestLink.ofJson_toJson {link loaded : GuestLink} :
    GuestLink.ofJson laxBool link.toJson = some loaded ↔
      loaded = link ∧ link.url.length ≤ 2048 := by
  have hnodup := keys_nodup link.wellFormed_toJson
  unfold GuestLink.toJson GuestLink.ofJson
  dsimp only
  rw [required_at hnodup 0 rfl, withDefault_at hnodup 1 rfl]
  simp only [readBool, Option.bind_eq_bind, Option.bind_eq_some_iff, readTextUpTo_str,
    Option.pure_def, Option.some.injEq]
  constructor
  · rintro ⟨url, ⟨rfl, hlength⟩, wholeSite, rfl, rfl⟩
    exact ⟨rfl, hlength⟩
  · rintro ⟨rfl, hlength⟩
    exact ⟨_, ⟨rfl, hlength⟩, _, rfl, rfl⟩

theorem Service.ofJson_toJson {service loaded : Service} :
    Service.ofJson laxBool service.toJson = some loaded ↔
      loaded = service ∧ service.paths.length ≤ 100 := by
  have hnodup := keys_nodup service.wellFormed_toJson
  unfold Service.toJson Service.ofJson
  dsimp only
  rw [required_at hnodup 0 rfl, required_at hnodup 1 rfl, required_at hnodup 2 rfl,
    withDefault_at hnodup 3 rfl, withDefault_at hnodup 4 rfl, withDefault_at hnodup 5 rfl]
  simp only [readBool, readText, Option.bind_eq_bind, Option.bind_some, Option.bind_eq_some_iff,
    readList_texts, Option.pure_def, Option.some.injEq]
  constructor
  · rintro ⟨paths, ⟨rfl, hlength⟩, rfl⟩
    exact ⟨rfl, hlength⟩
  · rintro ⟨rfl, hlength⟩
    exact ⟨_, ⟨rfl, hlength⟩, rfl⟩

-- What the models limit: the lengths of lists and of a link's address.
structure Gateway.WithinLimits (gateway : Gateway) : Prop where
  trustedCidrs : gateway.trustedCidrs.length ≤ 100
  guestLinks : gateway.guestLinks.length ≤ 50
  urls : ∀ link ∈ gateway.guestLinks, link.url.length ≤ 2048
  services : gateway.services.length ≤ 100
  paths : ∀ service ∈ gateway.services, service.paths.length ≤ 100

theorem Gateway.ofJson_toJson {gateway loaded : Gateway} :
    Gateway.ofJson laxBool gateway.toJson = some loaded ↔
      loaded = gateway ∧ gateway.WithinLimits := by
  have hnodup := keys_nodup gateway.wellFormed_toJson
  unfold Gateway.toJson Gateway.ofJson
  dsimp only
  rw [withDefault_at hnodup 0 rfl, withDefault_at hnodup 1 rfl, withDefault_at hnodup 2 rfl,
    withDefault_at hnodup 3 rfl, withDefault_at hnodup 4 rfl, withDefault_at hnodup 5 rfl,
    withDefault_at hnodup 6 rfl, withDefault_at hnodup 7 rfl, withDefault_at hnodup 8 rfl,
    withDefault_at hnodup 9 rfl, withDefault_at hnodup 10 rfl]
  simp only [readBool, readText, Option.bind_eq_bind, Option.bind_some, Option.bind_eq_some_iff,
    readList_texts, readList_map (fun _ _ => GuestLink.ofJson_toJson),
    readList_map (fun _ _ => Service.ofJson_toJson), Option.pure_def, Option.some.injEq]
  constructor
  · rintro ⟨trusted, ⟨rfl, htrusted⟩, links, ⟨rfl, hlinks, hurls⟩, services,
      ⟨rfl, hservices, hpaths⟩, rfl⟩
    exact ⟨rfl, htrusted, hlinks, hurls, hservices, hpaths⟩
  · rintro ⟨rfl, htrusted, hlinks, hurls, hservices, hpaths⟩
    exact ⟨_, ⟨rfl, htrusted⟩, _, ⟨rfl, hlinks, hurls⟩, _, ⟨rfl, hservices, hpaths⟩, rfl⟩

structure NetworkSettings.WithinLimits (data : NetworkSettings) : Prop where
  dnsServers : data.dnsServers.length ≤ 10
  routes : data.routes.length ≤ 100
  proxyCidrs : data.proxyCidrs.length ≤ 100
  gateway : data.gateway.WithinLimits

theorem NetworkSettings.ofMembers_toJson {data loaded : NetworkSettings}
    (h : data.toJson = .obj members) :
    NetworkSettings.ofMembers laxBool members = some loaded ↔
      loaded = data ∧ data.WithinLimits := by
  have hnodup := keys_nodup (wellFormed_toJson data)
  unfold NetworkSettings.toJson at h
  cases h
  have hportal : member? "portal" [("vpn_subnet".toList, Json.str data.vpnSubnet),
      ("pool_first".toList, Json.str data.poolFirst), ("pool_last".toList, Json.str data.poolLast),
      ("guest_subnet".toList, Json.str data.guestSubnet),
      ("dns_servers".toList, texts data.dnsServers), ("routes".toList, texts data.routes),
      ("proxy_cidrs".toList, texts data.proxyCidrs), ("gateway".toList, data.gateway.toJson)] =
      none := by
    rfl
  unfold NetworkSettings.ofMembers upgrade
  rw [hportal]
  simp only [Option.isNone_none, if_true, Option.bind_eq_bind, Option.bind_some]
  rw [required_at hnodup 0 rfl, required_at hnodup 1 rfl, required_at hnodup 2 rfl,
    required_at hnodup 3 rfl, withDefault_at hnodup 4 rfl, withDefault_at hnodup 5 rfl,
    withDefault_at hnodup 6 rfl, withDefault_at hnodup 7 rfl]
  simp only [readText, Option.bind_some, Option.bind_eq_some_iff, readList_texts,
    Gateway.ofJson_toJson, Option.pure_def, Option.some.injEq]
  constructor
  · rintro ⟨dns, ⟨rfl, hdns⟩, routes, ⟨rfl, hroutes⟩, proxies, ⟨rfl, hproxies⟩, gateway,
      ⟨rfl, hgateway⟩, rfl⟩
    exact ⟨rfl, hdns, hroutes, hproxies, hgateway⟩
  · rintro ⟨rfl, hdns, hroutes, hproxies, hgateway⟩
    exact ⟨_, ⟨rfl, hdns⟩, _, ⟨rfl, hroutes⟩, _, ⟨rfl, hproxies⟩, _, ⟨rfl, hgateway⟩, rfl⟩

end ReadBack

end OpenvpnServer.Network
