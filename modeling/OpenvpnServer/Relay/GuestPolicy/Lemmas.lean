import OpenvpnServer.Network.Files.Injection
import OpenvpnServer.Network.Saved
import OpenvpnServer.Relay.GuestPolicy
import OpenvpnServer.Relay.Policy.Theorems

namespace OpenvpnServer.Relay

open OpenvpnServer.Lib OpenvpnServer.Lib.Ipaddress OpenvpnServer.Lib.Netip OpenvpnServer.Network

variable {file : Option Text} {answer : PolicyAnswer} {routes : List Text}

section Authorize

variable {python : Python} {laxBool : Json → Option Bool} {sha256 : Text → BitVec 256}
  {s : PolicyState} {authorization : Text} {strictState : Bool} {answer : PolicyAnswer}

-- Of an answer: its client has a valid name, its URL is one the settings hold,
-- and a guest's portal and routes are read from the network settings.
structure Answered (python : Python) (laxBool : Json → Option Bool) (sha256 : Text → BitVec 256)
    (s : PolicyState) (answer : PolicyAnswer) : Prop where
  client : Access.validName answer.client = true
  credentialId : ∃ secret, answer.credentialId = hexdigest (sha256 secret)
  url : answer.url.length ≤ 2048
  guest : answer.guest = decide (answer.client ∈ s.guests)
  fields : guestFields python laxBool s answer.guest = .ok (answer.portal, answer.blockedCidrs)

theorem validName_of_eligible {name : Text} {cert : Option Cert}
    (h : eligible s name = .ok cert) : Access.validName name = true := by
  unfold eligible validateName at h
  by_cases hname : Access.validName name = false
  · rw [if_pos hname] at h
    cases h
  · simpa using hname

theorem relaySettings_url {config : RelaySettings} (h : relaySettings laxBool s = .ok config) :
    config.url.length ≤ 2048 := by
  unfold relaySettings at h
  split at h
  · cases h
  · rename_i members hloads
    dsimp only at h
    split at h
    · cases h
    · rename_i hread
      cases h
      simp only [Option.bind_eq_bind, Option.bind_eq_some_iff, Option.pure_def,
        Option.some.injEq] at hread
      obtain ⟨enabled, -, url, hurl, rfl⟩ := hread
      unfold withDefault at hurl
      split at hurl
      · cases hurl
        exact Nat.zero_le _
      · unfold readTextUpTo at hurl
        obtain ⟨text, -, htext⟩ := Option.bind_eq_some_iff.mp hurl
        split at htext
        · rename_i hlength
          cases htext
          exact hlength
        · cases htext
  · cases h

theorem lenient_eq_some {α : Type} {strict : Bool} {result : Except StateError α} {value : α}
    (h : lenient strict result = .ok (some value)) : result = .ok value := by
  unfold lenient at h
  split at h
  · cases h
    rfl
  · split at h <;> cases h
  · cases h

theorem answered_of_authorize
    (h : authorize python laxBool sha256 s authorization strictState = .ok (some answer)) :
    Answered python laxBool sha256 s answer := by
  unfold authorize at h
  split at h
  · cases h
  split at h
  · cases h
  rename_i name secret hcut
  split at h
  · cases h
  rename_i raw hraw
  split at h
  · cases h
  obtain ⟨grant, -, h⟩ := exists_of_bind h
  split at h
  · cases h
  obtain ⟨cert, hcert, h⟩ := exists_of_bind h
  obtain ⟨config, hconfig, h⟩ := exists_of_bind h
  dsimp only at h
  split at h
  · cases h
  obtain ⟨holds, -, h⟩ := exists_of_bind h
  split at h
  · cases h
  obtain ⟨fields, hfields, h⟩ := exists_of_bind h
  cases fields with
  | none => cases h
  | some fields =>
      cases h
      exact ⟨validName_of_eligible hcert, ⟨_, rfl⟩, relaySettings_url hconfig, rfl,
        lenient_eq_some hfields⟩

end Authorize

section Hosts

variable {python : Python} {laxBool : Json → Option Bool} {data : NetworkSettings}

-- `urlsplit` finds the host again in what `urlunsplit` puts together.
def SplitsHost (python : Python) : Prop :=
  ∀ host path query fragment, isHostname host = true →
    (python.urlsplit (python.urlunsplit "https".toList host path query fragment)).map
      Url.hostname = some (some host)

theorem linkHost_of_checked (hsplit : SplitsHost python) (h : GatewayChecked python data.gateway)
    {link : GuestLink} (hlink : link ∈ data.gateway.guestLinks) :
    ∃ host, ValidHost host ∧ linkHost python link = .ok (some host) := by
  obtain ⟨host, path, query, fragment, hhost, hurl⟩ := h.guestLinks link hlink
  obtain ⟨url, hread, hname⟩ :=
    Option.map_eq_some_iff.mp (hsplit host path query fragment hhost.1)
  refine ⟨host, hhost, ?_⟩
  unfold linkHost
  rw [hurl, hread, ← hname]

theorem mapM_linkHost {links : List GuestLink}
    (h : ∀ link ∈ links, ∃ host, ValidHost host ∧ linkHost python link = .ok (some host)) :
    ∃ hosts : List Text, links.mapM (linkHost python) = .ok (hosts.map some) ∧
      hosts.length = links.length ∧ (∀ host ∈ hosts, ValidHost host) ∧
      ∀ host, host ∈ hosts ↔ ∃ link ∈ links, linkHost python link = .ok (some host) := by
  induction links with
  | nil => exact ⟨[], rfl, rfl, by simp, by simp⟩
  | cons link rest ih =>
      obtain ⟨host, hvalid, hhost⟩ := h link List.mem_cons_self
      obtain ⟨hosts, hmap, hlength, hall, hmem⟩ :=
        ih fun other ho => h other (List.mem_cons_of_mem _ ho)
      refine ⟨host :: hosts, ?_, by rw [List.length_cons, hlength, List.length_cons], ?_, ?_⟩
      · rw [List.mapM_cons, hhost, hmap]
        rfl
      · rw [List.forall_mem_cons]
        exact ⟨hvalid, hall⟩
      · intro other
        rw [List.mem_cons, hmem]
        simp [hhost, eq_comm]

theorem sortedHosts_map_some (hosts : List Text) :
    ∃ sorted : List Text, sortedHosts (hosts.map some) = .ok (sorted.map some) ∧
      sorted.length ≤ hosts.length ∧ ∀ host, host ∈ sorted ↔ host ∈ hosts := by
  have hmem : ∀ host : Option Text,
      host ∈ (fromKeys (hosts.map some)).insertionSort textLe ↔ host ∈ hosts.map some := by
    intro host
    rw [List.mem_insertionSort, mem_fromKeys]
  refine ⟨((fromKeys (hosts.map some)).insertionSort textLe).map (·.getD []), ?_, ?_, ?_⟩
  · have hsome : ∀ host ∈ (fromKeys (hosts.map some)).insertionSort textLe,
        (some ∘ (·.getD [])) host = id host := by
      intro host hhost
      obtain ⟨text, -, rfl⟩ := List.mem_map.mp ((hmem host).mp hhost)
      rfl
    unfold sortedHosts
    rw [if_neg (by simp), List.map_map, List.map_congr_left hsome, List.map_id]
  · rw [List.length_map, List.length_insertionSort]
    have hle := length_fromKeys_le (hosts.map some)
    rwa [List.length_map] at hle
  · intro host
    rw [List.mem_map]
    constructor
    · rintro ⟨other, hother, rfl⟩
      obtain ⟨text, htext, rfl⟩ := List.mem_map.mp ((hmem other).mp hother)
      exact htext
    · intro hhost
      exact ⟨some host, (hmem _).mpr (List.mem_map_of_mem hhost), rfl⟩

-- The hostnames of the guest links, each in the answer once.
structure LinkHosts (python : Python) (data : NetworkSettings) (hosts : List Text) : Prop where
  length : hosts.length ≤ data.gateway.guestLinks.length
  valid : ∀ host ∈ hosts, ValidHost host
  mem_iff : ∀ host,
    host ∈ hosts ↔ ∃ link ∈ data.gateway.guestLinks, linkHost python link = .ok (some host)

theorem linkHosts_of_checked (hsplit : SplitsHost python) (h : GatewayChecked python data.gateway) :
    ∃ hosts, LinkHosts python data hosts ∧
      (data.gateway.guestLinks.mapM (linkHost python) >>= sortedHosts) = .ok (hosts.map some) := by
  obtain ⟨hosts, hmap, hlength, hvalid, hmem⟩ :=
    mapM_linkHost fun link hlink => linkHost_of_checked hsplit h hlink
  obtain ⟨sorted, hsorted, hle, hsame⟩ := sortedHosts_map_some hosts
  refine ⟨sorted, ⟨hlength ▸ hle, fun host hhost => hvalid host ((hsame host).mp hhost), ?_⟩, ?_⟩
  · exact fun host => (hsame host).trans (hmem host)
  · rw [hmap]
    exact hsorted

inductive PortalFor (python : Python) (data : NetworkSettings) : Option PortalAnswer → Prop
  | absent (h : data.gateway.openvpnHost = [] ∨ data.gateway.portalListener = []) :
      PortalFor python data none
  | present (hosts : List Text) (hhost : ValidHost data.gateway.openvpnHost)
      (hlistener : data.gateway.portalListener ≠ []) (hhosts : LinkHosts python data hosts) :
      PortalFor python data
        (some ⟨data.gateway.openvpnHost, data.gateway.portalListener, hosts.map some⟩)

theorem guestPortal_spec (hsplit : SplitsHost python) (h : GatewayChecked python data.gateway)
    (hread : readNetwork file = .ok data.toJson)
    {portal : Option PortalAnswer} (hportal : guestPortal python laxBool file = .ok portal) :
    data.WithinLimits ∧ PortalFor python data portal := by
  obtain ⟨members, hmembers⟩ : ∃ members, data.toJson = .obj members := ⟨_, rfl⟩
  have htruthy : truthy data.toJson = true := rfl
  unfold guestPortal loadNetwork at hportal
  rw [hread] at hportal
  obtain ⟨saved, hsaved, hbody⟩ := exists_of_bind hportal
  clear hportal
  cases hsaved
  rw [if_neg (by simp [htruthy]), hmembers] at hbody
  dsimp only at hbody
  cases hload : NetworkSettings.ofMembers laxBool members with
  | none =>
      rw [hload] at hbody
      cases hbody
  | some loaded =>
      rw [hload] at hbody
      dsimp only at hbody
      obtain ⟨rfl, hlimits⟩ := (NetworkSettings.ofMembers_toJson hmembers).mp hload
      refine ⟨hlimits, ?_⟩
      by_cases hempty : loaded.gateway.openvpnHost = [] ∨ loaded.gateway.portalListener = []
      · rw [if_pos hempty] at hbody
        cases hbody
        exact .absent hempty
      · rw [if_neg hempty] at hbody
        obtain ⟨hosts, hhosts, hsorted⟩ := linkHosts_of_checked hsplit h
        obtain ⟨given, hgiven, hrest⟩ := exists_of_bind hbody
        obtain ⟨sorted, hresult, hanswer⟩ := exists_of_bind hrest
        rw [hgiven] at hsorted
        change sortedHosts given = _ at hsorted
        rw [hsorted] at hresult
        cases hresult
        cases hanswer
        rw [not_or] at hempty
        exact .present hosts (h.openvpnHost.resolve_left hempty.1) hempty.2 hhosts

theorem savedRoutes_spec (hread : readNetwork file = .ok data.toJson) :
    savedRoutes file = .ok (texts data.routes) := by
  have hroutes := member?_of_mem (keys_nodup (wellFormed_toJson data))
    (List.mem_of_getElem? (i := 5) rfl : ("routes".toList, texts data.routes) ∈ _)
  unfold savedRoutes loadNetwork
  rw [hread]
  change Except.ok ((member? "routes" _).getD _) = _
  rw [hroutes]
  rfl

end Hosts

section Decode

def PortalAnswer.config (portal : PortalAnswer) : PortalConfig :=
  ⟨portal.host, portal.target, portal.hosts.map (·.getD [])⟩

def PolicyAnswer.policy (answer : PolicyAnswer) (routes : List Text) : Policy where
  credentialID := answer.credentialId
  client := answer.client
  cidrs := ["0.0.0.0/0".toList, "::/0".toList]
  blockedCIDRs := routes
  url := answer.url
  guest := answer.guest
  portal := answer.portal.map PortalAnswer.config

theorem decodeTexts_map {α : Type} {f : α → Json} {g : α → Text}
    (h : ∀ x, decodeText (some (f x)) = some (g x)) (l : List α) :
    decodeTexts (some (.arr (l.map f))) = some (l.map g) := by
  unfold decodeTexts
  induction l with
  | nil => rfl
  | cons x rest ih =>
      simp only [List.map_cons, List.mapM_cons, h, ih]
      rfl

theorem decodeTexts_texts (values : List Text) : decodeTexts (some (texts values)) = some values := by
  unfold texts
  rw [decodeTexts_map (g := id) (fun _ => rfl), List.map_id]

theorem PortalAnswer.wellFormed_toJson (portal : PortalAnswer) : portal.toJson.WellFormed := by
  have hhosts : Json.WellFormedItems (portal.hosts.map hostJson) :=
    wellFormedItems_map (fun host => by cases host <;> simp [hostJson, Json.WellFormed]) _
  refine ⟨?_, by simp [Json.WellFormedMembers, Json.WellFormed, hhosts]⟩
  simp only [List.map_cons, List.map_nil]
  decide

theorem PolicyAnswer.wellFormed_toJson
    (h : answer.blockedCidrs.WellFormed) : answer.toJson.WellFormed := by
  have hportal : ((answer.portal.map PortalAnswer.toJson).getD .null).WellFormed := by
    cases answer.portal with
    | none => trivial
    | some portal => exact portal.wellFormed_toJson
  refine ⟨?_, by simp [Json.WellFormedMembers, Json.WellFormed, wellFormed_texts, h, hportal]⟩
  simp only [List.map_cons, List.map_nil]
  decide

theorem decodePortal_toJson (portal : PortalAnswer) :
    decodePortal (some portal.toJson) = some (some portal.config) := by
  have hnodup := keys_nodup portal.wellFormed_toJson
  have hhosts : decodeTexts (some (.arr (portal.hosts.map hostJson))) =
      some (portal.hosts.map (·.getD [])) :=
    decodeTexts_map (fun host => by cases host <;> rfl) _
  unfold PortalAnswer.toJson decodePortal
  dsimp only
  rw [member?_of_mem hnodup (List.mem_of_getElem? (i := 0) rfl),
    member?_of_mem hnodup (List.mem_of_getElem? (i := 1) rfl),
    member?_of_mem hnodup (List.mem_of_getElem? (i := 2) rfl), hhosts]
  rfl

theorem Policy.ofJson_toJson
    (h : answer.blockedCidrs = texts routes) :
    Policy.ofJson answer.toJson = some (answer.policy routes) := by
  have hnodup := keys_nodup (PolicyAnswer.wellFormed_toJson (h ▸ wellFormed_texts routes))
  have hportal : decodePortal (some ((answer.portal.map PortalAnswer.toJson).getD .null)) =
      some (answer.portal.map PortalAnswer.config) := by
    cases answer.portal with
    | none => rfl
    | some portal => exact decodePortal_toJson portal
  unfold PolicyAnswer.toJson Policy.ofJson
  dsimp only
  rw [member?_of_mem hnodup (List.mem_of_getElem? (i := 1) rfl),
    member?_of_mem hnodup (List.mem_of_getElem? (i := 0) rfl),
    member?_of_mem hnodup (List.mem_of_getElem? (i := 4) rfl),
    member?_of_mem hnodup (List.mem_of_getElem? (i := 5) rfl),
    member?_of_mem hnodup (List.mem_of_getElem? (i := 3) rfl),
    member?_of_mem hnodup (List.mem_of_getElem? (i := 2) rfl),
    member?_of_mem hnodup (List.mem_of_getElem? (i := 6) rfl), hportal, h, decodeTexts_texts,
    decodeTexts_texts]
  rfl

theorem decodePolicy_reply
    (h : answer.blockedCidrs = texts routes) (hlength : (reply answer).length ≤ decodeLimit) :
    decodePolicy (reply answer) = some (answer.policy routes) := by
  have hformed := PolicyAnswer.wellFormed_toJson (h ▸ wellFormed_texts routes)
  unfold decodePolicy
  rw [List.take_of_length_le hlength]
  unfold reply
  rw [utf8Decode?_utf8]
  simp only [Option.bind_eq_bind, Option.bind_some, Json.scanValue_dumpsSpaced hformed]
  exact Policy.ofJson_toJson h

end Decode

end OpenvpnServer.Relay
