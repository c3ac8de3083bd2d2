import OpenvpnServer.Network.Files.Lemmas

namespace OpenvpnServer.Network

open OpenvpnServer.Lib OpenvpnServer.Lib.Ipaddress OpenvpnServer.Lib.Netip

variable {α : Type} {value : Text} {staticIps values : List Text} {body data : NetworkSettings}
  {networks : List IpNetwork} {c : Char}

section Validated

variable {python : Python}

theorem exists_of_bind {ε β : Type} {x : Except ε α} {f : α → Except ε β} {b : β}
    (h : x >>= f = .ok b) : ∃ a, x = .ok a ∧ f a = .ok b := by
  cases x with
  | error e => cases h
  | ok a => exact ⟨a, rfl, h⟩

theorem exists_of_mem_mapM_ok {ε β : Type} {f : α → Except ε β} {l : List α} {results : List β}
    (h : l.mapM f = .ok results) {y : β} (hy : y ∈ results) : ∃ x ∈ l, f x = .ok y := by
  induction l generalizing results with
  | nil =>
      cases h
      cases hy
  | cons x rest ih =>
      rw [List.mapM_cons] at h
      obtain ⟨first, hfirst, h⟩ := exists_of_bind h
      obtain ⟨others, hothers, h⟩ := exists_of_bind h
      cases h
      rcases List.mem_cons.mp hy with rfl | hmem
      · exact ⟨x, List.mem_cons_self, hfirst⟩
      · obtain ⟨z, hz, hresult⟩ := ih hothers hmem
        exact ⟨z, List.mem_cons_of_mem _ hz, hresult⟩

theorem portalListener_spec {listener : Text}
    (h : portalListener python value = .ok listener) : ValidListener listener := by
  unfold portalListener at h
  dsimp only at h
  split at h
  · cases h
  · rename_i ip hip
    split at h
    · cases h
    · split at h
      · cases h
      · rename_i n hn
        split at h
        · rename_i hvalid
          cases h
          exact .inr ⟨ip, n, hvalid.2.2, hvalid.1, hvalid.2.1, rfl⟩
        · cases h

theorem optional_spec {check : Text → Except Failure Text} {result : Text}
    (h : optional check value = .ok result) : result = [] ∨ check value = .ok result := by
  unfold optional at h
  split at h
  · rename_i hempty
    cases h
    exact .inl hempty
  · exact .inr h

def ValidHost (host : Text) : Prop := isHostname host = true ∧ host.length ≤ 253

theorem hostname_spec {host : Text} (h : hostname python value = .ok host) :
    ValidHost host := by
  unfold hostname at h
  dsimp only at h
  split at h
  · cases h
  · rename_i hvalid
    cases h
    rw [not_or, Bool.not_eq_false, not_lt] at hvalid
    exact ⟨hvalid.2, hvalid.1⟩

theorem validateGuestLink_spec {domain : Text} {reserved : List Text} {link checked : GuestLink}
    (h : validateGuestLink python domain reserved link = .ok checked) :
    ∃ host path query fragment, ValidHost host ∧
      checked.url = python.urlunsplit "https".toList host path query fragment := by
  unfold validateGuestLink at h
  dsimp only at h
  split at h
  · cases h
  · split at h
    · cases h
    · rename_i host hhost
      split at h
      · cases h
      · split at h
        · cases h
        · split at h
          · cases h
          · cases h
            exact ⟨host, _, _, _, hostname_spec hhost, rfl⟩

structure GatewayChecked (python : Python) (gateway : Gateway) : Prop where
  listener : ValidListener gateway.portalListener
  openvpnHost : gateway.openvpnHost = [] ∨ ValidHost gateway.openvpnHost
  guestLinks : ∀ link ∈ gateway.guestLinks, ∃ host path query fragment, ValidHost host ∧
    link.url = python.urlunsplit "https".toList host path query fragment

theorem validateGateway_spec {gateway checked : Gateway}
    (h : validateGateway python gateway = .ok checked) : GatewayChecked python checked := by
  unfold validateGateway at h
  obtain ⟨domain, -, h⟩ := exists_of_bind h
  obtain ⟨openvpnHost, hhost, h⟩ := exists_of_bind h
  obtain ⟨relayHost, -, h⟩ := exists_of_bind h
  obtain ⟨openvpnBackend, -, h⟩ := exists_of_bind h
  obtain ⟨relayBackend, -, h⟩ := exists_of_bind h
  obtain ⟨relayPublicUrl, -, h⟩ := exists_of_bind h
  obtain ⟨listener, hlistener, h⟩ := exists_of_bind h
  split at h
  · cases h
  · obtain ⟨trustedCidrs, -, h⟩ := exists_of_bind h
    obtain ⟨guestLinks, hlinks, h⟩ := exists_of_bind h
    obtain ⟨services, -, h⟩ := exists_of_bind h
    cases h
    refine ⟨?_, (optional_spec hhost).imp_right hostname_spec, fun link hlink => ?_⟩
    · rcases optional_spec hlistener with hempty | hvalid
      · exact .inl hempty
      · exact portalListener_spec hvalid
    · obtain ⟨given, -, hchecked⟩ := exists_of_mem_mapM_ok hlinks hlink
      exact validateGuestLink_spec hchecked

theorem validateAddressing_eq_ok
    (h : validateAddressing staticIps body = .ok data) :
    ∃ a dns routes proxies, parseAddressing body = some a ∧
      validateDns body.dnsServers = some dns ∧ checkStatic a staticIps = .ok () ∧
      cidrs body.routes true = .ok routes ∧ cidrs body.proxyCidrs false = .ok proxies ∧
      proxies ≠ [] ∧
      data = { body with
        vpnSubnet := (IpNetwork.v4 a.net).str
        guestSubnet := (IpNetwork.v4 a.guest).str
        poolFirst := dotted a.first
        poolLast := dotted a.last
        dnsServers := dns
        routes := routes
        proxyCidrs := proxies } := by
  unfold validateAddressing at h
  split at h
  · rename_i a dns ha hdns
    obtain ⟨⟨⟩, hstatic, h⟩ := exists_of_bind h
    obtain ⟨routes, hroutes, h⟩ := exists_of_bind h
    obtain ⟨proxies, hproxies, h⟩ := exists_of_bind h
    split at h
    · cases h
    · rename_i hne
      cases h
      exact ⟨a, dns, routes, proxies, ha, hdns, hstatic, hroutes, hproxies, hne, rfl⟩
  · cases h

theorem validate_eq_ok
    (h : validate python staticIps body = .ok data) :
    ∃ addressed gateway, validateAddressing staticIps body = .ok addressed ∧
      validateGateway python addressed.gateway = .ok gateway ∧
      data = { addressed with gateway := gateway } := by
  unfold validate at h
  obtain ⟨addressed, haddressed, h⟩ := exists_of_bind h
  obtain ⟨gateway, hgateway, h⟩ := exists_of_bind h
  cases h
  exact ⟨addressed, gateway, haddressed, hgateway, rfl⟩

structure Validated (body data : NetworkSettings) (networks : List IpNetwork) : Prop where
  vpnSubnet : ∃ net, data.vpnSubnet = (IpNetwork.v4 net).str
  guestSubnet : ∃ net, data.guestSubnet = (IpNetwork.v4 net).str
  parsed : cidrNetworks body.proxyCidrs false = .ok networks
  proxyCidrs : data.proxyCidrs = fromKeys (networks.map IpNetwork.str)
  proxies_ne : data.proxyCidrs ≠ []
  listener : ValidListener data.gateway.portalListener

theorem validated_of_validate
    (h : validate python staticIps body = .ok data) : ∃ networks, Validated body data networks := by
  obtain ⟨addressed, gateway, haddressed, hgateway, rfl⟩ := validate_eq_ok h
  obtain ⟨a, dns, routes, proxies, -, -, -, -, hproxies, hne, rfl⟩ :=
    validateAddressing_eq_ok haddressed
  have hlistener := (validateGateway_spec hgateway).listener
  unfold cidrs at hproxies
  split at hproxies
  · cases hproxies
  · rename_i networks hnetworks
    cases hproxies
    exact ⟨networks, ⟨a.net, rfl⟩, ⟨a.guest, rfl⟩, hnetworks, rfl, hne, hlistener⟩

theorem gatewayChecked_of_validate
    (h : validate python staticIps body = .ok data) : GatewayChecked python data.gateway := by
  obtain ⟨addressed, gateway, -, hgateway, rfl⟩ := validate_eq_ok h
  exact validateGateway_spec hgateway

theorem prefixlen_ne_zero
    (h : cidrNetworks values false = .ok networks) : ∀ net ∈ networks, net.prefixlen ≠ 0 := by
  unfold cidrNetworks at h
  split at h
  · cases h
  · split at h
    · cases h
    · rename_i hany
      cases h
      intro net hnet hzero
      apply hany
      rw [List.any_eq_true]
      exact ⟨net, hnet, by simp [hzero]⟩

theorem mapM_of_cidrNetworks {ipv4 : Bool}
    (h : cidrNetworks values ipv4 = .ok networks) :
    values.mapM (fun value => ipNetwork (pyStrip value)) = some networks := by
  unfold cidrNetworks at h
  split at h
  · cases h
  · rename_i hvalues
    split at h
    · cases h
    · cases h
      exact hvalues

theorem scope_eq_nil_iff_of_cidrNetworks {ipv4 : Bool}
    (h : cidrNetworks values ipv4 = .ok networks) :
    (∀ net ∈ networks, net.scope = []) ↔ ∀ value ∈ values, '%' ∉ value := by
  have hparsed := mapM_of_cidrNetworks h
  constructor
  · intro hplain value hvalue
    obtain ⟨net, hnet, hread⟩ := exists_of_mapM hparsed hvalue
    rw [← mem_pyStrip (c := '%') (by decide)]
    exact (scope_eq_nil_iff hread).mp (hplain net hnet)
  · intro hvalues net hnet
    obtain ⟨value, hvalue, hread⟩ := exists_of_mem_mapM hparsed hnet
    rw [scope_eq_nil_iff hread, mem_pyStrip (by decide)]
    exact hvalues value hvalue

end Validated

section Json

theorem wellFormedItems_map {f : α → Json} (h : ∀ x, (f x).WellFormed) (l : List α) :
    Json.WellFormedItems (l.map f) := by
  induction l with
  | nil => trivial
  | cons x rest ih => exact ⟨h x, ih⟩

theorem wellFormed_texts (values : List Text) : (texts values).WellFormed := by
  unfold texts
  rw [Json.WellFormed]
  exact wellFormedItems_map (fun value => by simp [Json.WellFormed]) values

theorem GuestLink.wellFormed_toJson (link : GuestLink) : link.toJson.WellFormed := by
  refine ⟨?_, by simp [Json.WellFormedMembers, Json.WellFormed]⟩
  simp only [List.map_cons, List.map_nil]
  decide

theorem Service.wellFormed_toJson (service : Service) : service.toJson.WellFormed := by
  refine ⟨?_, by simp [Json.WellFormedMembers, Json.WellFormed, wellFormed_texts]⟩
  simp only [List.map_cons, List.map_nil]
  decide

theorem Gateway.wellFormed_toJson (gateway : Gateway) : gateway.toJson.WellFormed := by
  refine ⟨?_, by simp [Json.WellFormedMembers, Json.WellFormed, wellFormed_texts,
    wellFormedItems_map GuestLink.wellFormed_toJson,
    wellFormedItems_map Service.wellFormed_toJson]⟩
  simp only [List.map_cons, List.map_nil]
  decide

theorem wellFormed_toJson (data : NetworkSettings) : data.toJson.WellFormed := by
  refine ⟨?_, by simp [Json.WellFormedMembers, Json.WellFormed, wellFormed_texts,
    data.gateway.wellFormed_toJson]⟩
  simp only [List.map_cons, List.map_nil]
  decide

end Json

structure ReadBack (body data : NetworkSettings) (vars : ShellVars) (trustDefault : Text)
    (guestDefault : Option Text) (fallback : List Prefix) : Prop where
  python : readNetwork (some (settingsConf data)) = .ok data.toJson
  shell : loadNetworkSettings vars trustDefault guestDefault (some (settingsConf data)) =
    some ⟨data.vpnSubnet, data.guestSubnet, data.gateway.portalListener⟩
  relay : ∃ networks, cidrNetworks body.proxyCidrs false = .ok networks ∧
    networkProxyTrust (.content (proxiesConf data)) fallback =
      (fromKeys networks).map IpNetwork.toPrefix

section Readers

variable {body data : NetworkSettings} {networks : List IpNetwork}

theorem netChar_of_listener {target : Text} (h : ValidListener target) :
    ∀ c ∈ target, netChar c = true := by
  rcases h with rfl | ⟨ip, n, -, -, -, rfl⟩
  · simp
  · intro c hc
    rw [List.mem_append, List.mem_cons] at hc
    rcases hc with hip | rfl | hport
    · rcases mem_dotted hip with hhex | rfl
      · simp [netChar, hhex]
      · decide
    · decide
    · simp [netChar, mem_decimal hport]

theorem Validated.netChar_subnets (h : Validated body data networks) :
    (∀ c ∈ data.vpnSubnet, netChar c = true) ∧ ∀ c ∈ data.guestSubnet, netChar c = true := by
  obtain ⟨net, hnet⟩ := h.vpnSubnet
  obtain ⟨guest, hguest⟩ := h.guestSubnet
  rw [hnet, hguest]
  exact ⟨fun c hc => netChar_of_mem_str rfl hc, fun c hc => netChar_of_mem_str rfl hc⟩

theorem Validated.netChar_proxies (h : Validated body data networks)
    (hplain : ∀ net ∈ networks, net.scope = []) :
    ∀ cidr ∈ data.proxyCidrs, ∀ c ∈ cidr, netChar c = true := by
  rw [h.proxyCidrs]
  intro cidr hcidr c hc
  obtain ⟨net, hnet, rfl⟩ := List.mem_map.mp (mem_fromKeys.mp hcidr)
  exact netChar_of_mem_str (hplain net hnet) hc

theorem equals_not_mem {text : Text} (h : ∀ c ∈ text, netChar c = true) : '=' ∉ text := by
  intro hmem
  exact absurd (h '=' hmem) (by decide)

theorem printable_of_netChar {text : Text} (h : ∀ c ∈ text, netChar c = true) :
    Json.Printable text := by
  intro c hc
  have hrange := netChar_range (h c hc)
  omega

theorem printable_lineOf {key : String} (hkey : Json.Printable key.toList)
    (hvalue : Json.Printable value) : Json.Printable (lineOf (key, value)) :=
  Json.printable_append hkey (Json.printable_cons (by decide) hvalue)

theorem Validated.printable_others (h : Validated body data networks) :
    ∀ field ∈ settingFields data, field.1 ≠ "PROXY_CIDRS" → Json.Printable (lineOf field) := by
  intro field hfield hkey
  simp only [settingFields, List.mem_cons, List.not_mem_nil, or_false] at hfield
  rcases hfield with rfl | rfl | rfl | rfl | rfl
  · exact printable_lineOf (Json.printable_of_all (by decide))
      (printable_of_netChar h.netChar_subnets.1)
  · exact printable_lineOf (Json.printable_of_all (by decide))
      (printable_of_netChar h.netChar_subnets.2)
  · exact absurd rfl hkey
  · exact printable_lineOf (Json.printable_of_all (by decide))
      (printable_of_netChar (netChar_of_listener h.listener))
  · exact printable_lineOf (Json.printable_of_all (by decide))
      (Json.printable_dumps _ (wellFormed_toJson data))

theorem lineBreak_of_netChar (h : netChar c = true) : lineBreak c = false := by
  have hrange := netChar_range h
  simp only [lineBreak, List.mem_cons, List.not_mem_nil, or_false, Bool.or_eq_false_iff,
    Bool.and_eq_false_iff, decide_eq_false_iff_not]
  omega

theorem netChar_of_mem_ipv6String {n : Nat} (h : c ∈ ipv6String n) :
    netChar c = true := by
  rcases mem_ipv6String h with hhex | rfl | rfl
  · simp [netChar, hhex]
  · decide
  · decide

theorem netChar_of_mem_decimal {n : Nat} (h : c ∈ decimal n) : netChar c = true := by
  simp [netChar, mem_decimal h]

theorem lineBreak_of_mem_str {net : IpNetwork} (hc : c ∈ net.str)
    (hbreak : lineBreak c = true) : c ∈ net.scope := by
  have hplain : netChar c ≠ true := by
    intro hnet
    rw [lineBreak_of_netChar hnet] at hbreak
    cases hbreak
  by_cases hscope : net.scope = []
  · exact absurd (netChar_of_mem_str hscope hc) hplain
  · cases net with
    | v4 net => exact absurd rfl hscope
    | v6 net scope =>
        change ¬scope = [] at hscope
        rw [IpNetwork.str, withScope, if_neg hscope, List.mem_append, List.mem_append,
          List.mem_cons, List.mem_cons] at hc
        rcases hc with (haddress | rfl | hscope) | rfl | hbits
        · exact absurd (netChar_of_mem_ipv6String haddress) hplain
        · exact absurd hbreak (by decide)
        · exact hscope
        · exact absurd hbreak (by decide)
        · exact absurd (netChar_of_mem_decimal hbits) hplain

theorem value_of_proxies {field : String × Text} (hfield : field ∈ settingFields data)
    (hkey : field.1 = "PROXY_CIDRS") : field.2 = joinWith ' ' data.proxyCidrs := by
  simp only [settingFields, List.mem_cons, List.not_mem_nil, or_false] at hfield
  rcases hfield with rfl | rfl | rfl | rfl | rfl <;> simp at hkey ⊢

theorem Validated.unbroken_fields (h : Validated body data networks)
    (hscopes : ∀ net ∈ networks, ∀ c ∈ net.scope, lineBreak c = false) :
    UnbrokenFields (settingFields data) := by
  intro field hfield
  have hproxies : ∀ c ∈ joinWith ' ' data.proxyCidrs, lineBreak c = false := by
    intro c hc
    rcases mem_joinWith hc with rfl | ⟨cidr, hcidr, hmem⟩
    · decide
    · rw [h.proxyCidrs] at hcidr
      obtain ⟨net, hnet, rfl⟩ := List.mem_map.mp (mem_fromKeys.mp hcidr)
      by_contra hbreak
      rw [Bool.not_eq_false] at hbreak
      rw [hscopes net hnet c (lineBreak_of_mem_str hmem hbreak)] at hbreak
      cases hbreak
  by_cases hkey : field.1 = "PROXY_CIDRS"
  · have hvalue := value_of_proxies hfield hkey
    have hname : Json.Printable "PROXY_CIDRS".toList := Json.printable_of_all (by decide)
    intro c hc
    rw [lineOf, List.mem_append, List.mem_cons, hkey, hvalue] at hc
    rcases hc with hc | rfl | hc
    · exact lineBreak_of_printable hname c hc
    · decide
    · exact hproxies c hc
  · exact lineBreak_of_printable (h.printable_others field hfield hkey)

theorem Validated.readNetwork_unbroken (h : Validated body data networks)
    (hscopes : ∀ net ∈ networks, ∀ c ∈ net.scope, lineBreak c = false) :
    readNetwork (some (settingsConf data)) = .ok data.toJson := by
  unfold readNetwork settingsConf
  simp only
  rw [splitlines_unbroken (h.unbroken_fields hscopes)]
  have hlength : "NETWORK_JSON=".length = "NETWORK_JSON".toList.length + 1 := by decide
  rw [find?_settings]
  simp only [hlength, drop_lineOf, Json.loads_dumps (wellFormed_toJson data)]

theorem Validated.readNetwork_settingsConf (h : Validated body data networks)
    (hplain : ∀ net ∈ networks, net.scope = []) :
    readNetwork (some (settingsConf data)) = .ok data.toJson :=
  h.readNetwork_unbroken fun net hnet c hc => by rw [hplain net hnet] at hc; cases hc

theorem Validated.shellLines_settingsConf (h : Validated body data networks)
    (hscopes : ∀ net ∈ networks, ∀ c ∈ net.scope, lineBreak c = false) :
    shellLines (settingsConf data) =
      [("TRUST_SUB", data.vpnSubnet), ("GUEST_SUB", data.guestSubnet),
        ("PROXY_CIDRS", withoutNul (joinWith ' ' data.proxyCidrs)),
        ("GUEST_PORTAL_TARGET", data.gateway.portalListener),
        ("NETWORK_JSON", data.toJson.dumps)].map lineOf := by
  have hothers := h.printable_others
  have hproxies : withoutNul (lineOf ("PROXY_CIDRS", joinWith ' ' data.proxyCidrs)) =
      lineOf ("PROXY_CIDRS", withoutNul (joinWith ' ' data.proxyCidrs)) := by
    have hname : withoutNul "PROXY_CIDRS".toList = "PROXY_CIDRS".toList := by decide
    unfold withoutNul at hname ⊢
    unfold lineOf
    rw [List.filter_append, hname, List.filter_cons_of_pos (by decide)]
  unfold settingsConf
  rw [shellLines_unbroken (h.unbroken_fields hscopes)]
  simp only [settingFields, List.forall_mem_cons, List.map_cons, List.map_nil] at hothers ⊢
  rw [withoutNul_of_printable (hothers.1 (by decide)),
    withoutNul_of_printable (hothers.2.1 (by decide)), hproxies,
    withoutNul_of_printable (hothers.2.2.2.1 (by decide)),
    withoutNul_of_printable (hothers.2.2.2.2.1 (by decide))]

theorem Validated.loadNetworkSettings_unbroken (h : Validated body data networks)
    (hscopes : ∀ net ∈ networks, ∀ c ∈ net.scope, lineBreak c = false) (vars : ShellVars)
    (trustDefault : Text) (guestDefault : Option Text) :
    loadNetworkSettings vars trustDefault guestDefault (some (settingsConf data)) =
      some ⟨data.vpnSubnet, data.guestSubnet, data.gateway.portalListener⟩ := by
  have hne : ∀ net : IpNetwork, net.str ≠ [] := by
    intro net
    cases net <;> simp [IpNetwork.str]
  have hvpn : data.vpnSubnet ≠ [] := by
    obtain ⟨net, hnet⟩ := h.vpnSubnet
    rw [hnet]
    exact hne _
  have hguest : data.guestSubnet ≠ [] := by
    obtain ⟨net, hnet⟩ := h.guestSubnet
    rw [hnet]
    exact hne _
  have hvars := foldl_assign_fields (equals_not_mem h.netChar_subnets.1)
    (equals_not_mem h.netChar_subnets.2) (equals_not_mem (netChar_of_listener h.listener))
    (withoutNul (joinWith ' ' data.proxyCidrs)) data.toJson.dumps vars
  unfold loadNetworkSettings
  simp only [Option.map_some, Option.getD_some, h.shellLines_settingsConf hscopes, hvars,
    if_neg hvpn, if_neg hguest, guestPortalValidate_of_valid h.listener, if_true]

theorem Validated.loadNetworkSettings_settingsConf (h : Validated body data networks)
    (hplain : ∀ net ∈ networks, net.scope = []) (vars : ShellVars) (trustDefault : Text)
    (guestDefault : Option Text) :
    loadNetworkSettings vars trustDefault guestDefault (some (settingsConf data)) =
      some ⟨data.vpnSubnet, data.guestSubnet, data.gateway.portalListener⟩ :=
  h.loadNetworkSettings_unbroken
    (fun net hnet c hc => by rw [hplain net hnet] at hc; cases hc) vars trustDefault guestDefault

theorem str_injective {net other : IpNetwork} (hnet : net.scope = []) (hother : other.scope = [])
    (h : net.str = other.str) : net = other := by
  have hread := parsePrefix_str hnet
  rw [h, parsePrefix_str hother, Option.some.injEq] at hread
  have haddr := congrArg Prefix.addr hread
  have hbits := congrArg Prefix.bits hread
  cases net with
  | v4 net =>
      cases other with
      | v4 other =>
          obtain ⟨address, prefixlen, _, _⟩ := net
          obtain ⟨address', prefixlen', _, _⟩ := other
          simp only [IpNetwork.toPrefix, Addr.v4.injEq] at haddr hbits
          subst haddr hbits
          rfl
      | v6 other scope => cases haddr
  | v6 net scope =>
      cases other with
      | v4 other => cases haddr
      | v6 other scope' =>
          change scope = [] at hnet
          change scope' = [] at hother
          obtain ⟨address, prefixlen, _, _⟩ := net
          obtain ⟨address', prefixlen', _, _⟩ := other
          simp only [IpNetwork.toPrefix, Addr.v6.injEq, and_true] at haddr hbits
          subst haddr hbits
          rw [hnet, hother]

theorem Validated.networkProxyTrust_proxiesConf (h : Validated body data networks)
    (hplain : ∀ net ∈ networks, net.scope = []) (fallback : List Prefix) :
    networkProxyTrust (.content (proxiesConf data)) fallback =
      (fromKeys networks).map IpNetwork.toPrefix := by
  have hstr : data.proxyCidrs = (fromKeys networks).map IpNetwork.str := by
    rw [h.proxyCidrs]
    exact fromKeys_map fun net hnet other hother =>
      str_injective (hplain net hnet) (hplain other hother)
  have hchars := h.netChar_proxies hplain
  have hfields : goFields (joinWith ' ' data.proxyCidrs) = data.proxyCidrs := by
    refine goFields_joinWith h.proxies_ne fun cidr hcidr => ⟨?_, hchars cidr hcidr⟩
    rw [hstr] at hcidr
    obtain ⟨net, -, rfl⟩ := List.mem_map.mp hcidr
    cases net <;> simp [IpNetwork.str]
  have hparse : data.proxyCidrs.mapM trustedPrefix =
      some ((fromKeys networks).map IpNetwork.toPrefix) := by
    rw [hstr, List.mapM_map]
    refine mapM_eq_some_map fun net hnet => ?_
    have hmem := mem_fromKeys.mp hnet
    exact trustedPrefix_str (hplain net hmem) (prefixlen_ne_zero h.parsed net hmem)
  have hnewline : '\n' ∉ joinWith ' ' data.proxyCidrs := by
    intro hmem
    rcases mem_joinWith hmem with hsep | ⟨cidr, hcidr, hc⟩
    · cases hsep
    · exact absurd (hchars cidr hcidr '\n' hc) (by decide)
  have htrusted : parseTrustedProxies (joinWith ' ' data.proxyCidrs) =
      some ((fromKeys networks).map IpNetwork.toPrefix) := by
    unfold parseTrustedProxies
    rw [hfields, hparse]
    cases hkeys : fromKeys networks with
    | nil =>
        rw [hkeys] at hstr
        exact absurd hstr h.proxies_ne
    | cons net rest => rfl
  have hcontent := networkProxyTrust_content hnewline [] fallback
  rw [htrusted, Option.getD_some] at hcontent
  exact hcontent

theorem Validated.networkProxyTrust_scoped (h : Validated body data networks)
    (hscoped : ∃ net ∈ networks, net.scope ≠ []) (fallback : List Prefix) :
    networkProxyTrust (.content (proxiesConf data)) fallback = [] := by
  have hpercent : ∃ cidr ∈ data.proxyCidrs, '%' ∈ cidr := by
    obtain ⟨net, hnet, hscope⟩ := hscoped
    obtain ⟨before, after, hstr, -⟩ := str_scoped hscope
    refine ⟨net.str, ?_, ?_⟩
    · rw [h.proxyCidrs]
      exact mem_fromKeys.mpr (List.mem_map_of_mem hnet)
    · rw [hstr]
      simp
  have hshape : ∀ cidr ∈ data.proxyCidrs, (∀ c ∈ cidr, netChar c = true) ∨
      ∃ before after, cidr = before ++ '%' :: after ∧ ∀ c ∈ before, netChar c = true := by
    rw [h.proxyCidrs]
    intro cidr hcidr
    obtain ⟨net, -, rfl⟩ := List.mem_map.mp (mem_fromKeys.mp hcidr)
    by_cases hscope : net.scope = []
    · exact .inl fun c hc => netChar_of_mem_str hscope hc
    · exact .inr (str_scoped hscope)
  obtain ⟨before, after, hjoin, hbefore⟩ := joinWith_scoped hshape hpercent
  -- the first line has the percent sign, and the scope up to a newline
  obtain ⟨start, rest, hafter, hstart⟩ : ∃ start rest, after ++ ['\n'] = start ++ '\n' :: rest ∧
      '\n' ∉ start := by
    have hmem : '\n' ∈ after ++ ['\n'] := List.mem_append_right _ List.mem_cons_self
    cases hcut : cutFirst '\n' (after ++ ['\n']) with
    | none => exact absurd hmem (not_mem_of_cutFirst hcut)
    | some parts =>
        obtain ⟨start, rest⟩ := parts
        exact ⟨start, rest, (cutFirst_eq_some hcut).2, (cutFirst_eq_some hcut).1⟩
  have hline : '\n' ∉ before ++ '%' :: start := by
    rw [List.mem_append, List.mem_cons, not_or, not_or]
    exact ⟨hbefore, by decide, hstart⟩
  have hcontent := networkProxyTrust_content hline rest fallback
  rw [parseTrustedProxies_percent (by simp), Option.getD_none] at hcontent
  have hfile : proxiesConf data =
      "PROXY_CIDRS".toList ++ '=' :: (before ++ '%' :: start) ++ '\n' :: rest := by
    unfold proxiesConf settingLine
    rw [hjoin]
    simp only [List.cons_append, List.append_assoc]
    rw [hafter]
  rw [hfile]
  exact hcontent

end Readers

theorem saved_settings_read_back_iff (python : Python) (staticIps : List Text)
    {body data : NetworkSettings} (h : validate python staticIps body = .ok data) (vars : ShellVars)
    (trustDefault : Text) (guestDefault : Option Text) (fallback : List Prefix) :
    ReadBack body data vars trustDefault guestDefault fallback ↔
      ∀ cidr ∈ body.proxyCidrs, '%' ∉ cidr := by
  obtain ⟨networks, hvalid⟩ := validated_of_validate h
  rw [← scope_eq_nil_iff_of_cidrNetworks hvalid.parsed]
  constructor
  · intro hread
    by_contra hscoped
    push Not at hscoped
    obtain ⟨parsed, hparsed, htrust⟩ := hread.relay
    rw [hvalid.parsed] at hparsed
    cases hparsed
    rw [hvalid.networkProxyTrust_scoped hscoped fallback, eq_comm, List.map_eq_nil_iff] at htrust
    obtain ⟨net, hnet, -⟩ := hscoped
    have hmem := mem_fromKeys.mpr hnet
    rw [htrust] at hmem
    cases hmem
  · intro hplain
    exact ⟨hvalid.readNetwork_settingsConf hplain,
      hvalid.loadNetworkSettings_settingsConf hplain vars trustDefault guestDefault,
      networks, hvalid.parsed, hvalid.networkProxyTrust_proxiesConf hplain fallback⟩

def asciiPython : Python where
  lower := List.map Char.toLower
  isDigit := Char.isDigit
  int := decimal?
  repr := fun text => '"' :: text ++ ['"']
  urlsplit := fun _ => none
  urlunsplit := fun scheme host path _ _ => scheme ++ "://".toList ++ host ++ path

def officeGateway : Gateway where
  domain := []
  openvpnHost := "vpn.example.org".toList
  openvpnBackend := []
  relayHost := []
  relayBackend := []
  relayPublicUrl := []
  portalListener := "192.0.2.10:9443".toList
  trustedCidrs := []
  guestLinks := []
  replaceServices := false
  services := []

def office (proxyCidrs : List Text) : NetworkSettings where
  vpnSubnet := "10.8.0.0/24".toList
  poolFirst := "10.8.0.2".toList
  poolLast := "10.8.0.100".toList
  guestSubnet := "10.8.0.128/25".toList
  dnsServers := ["10.8.0.1".toList]
  routes := []
  proxyCidrs := proxyCidrs
  gateway := officeGateway

theorem office_settings_read_back :
    validate asciiPython [] (office ["127.0.0.1/32".toList, "::1/128".toList]) =
        .ok (office ["127.0.0.1/32".toList, "::1/128".toList]) ∧
      ReadBack (office ["127.0.0.1/32".toList, "::1/128".toList])
        (office ["127.0.0.1/32".toList, "::1/128".toList]) ⟨[], [], []⟩ [] none [] := by
  have hvalid : validate asciiPython [] (office ["127.0.0.1/32".toList, "::1/128".toList]) =
      .ok (office ["127.0.0.1/32".toList, "::1/128".toList]) := by
    decide
  exact ⟨hvalid, (saved_settings_read_back_iff asciiPython [] hvalid ⟨[], [], []⟩ [] none []).mpr
    (by decide)⟩

-- The scope of a link-local proxy address may hold a newline, after which the
-- shell finds another guest subnet. The relay refuses the address.
def scopedProxy : Text := "fe80::1%\nGUEST_SUB=10.9.0.0/128".toList

theorem scoped_proxy_replaces_guest_subnet :
    validate asciiPython [] (office [scopedProxy]) = .ok (office [scopedProxy]) ∧
      loadNetworkSettings ⟨[], [], []⟩ [] none (some (settingsConf (office [scopedProxy]))) =
        some ⟨"10.8.0.0/24".toList, "10.9.0.0/128".toList, "192.0.2.10:9443".toList⟩ ∧
      networkProxyTrust (.content (proxiesConf (office [scopedProxy]))) [] = [] ∧
      ¬ ReadBack (office [scopedProxy]) (office [scopedProxy]) ⟨[], [], []⟩ [] none [] := by
  have hvalid : validate asciiPython [] (office [scopedProxy]) = .ok (office [scopedProxy]) := by
    decide +kernel
  have hshell : loadNetworkSettings ⟨[], [], []⟩ [] none
      (some (settingsConf (office [scopedProxy]))) =
        some ⟨"10.8.0.0/24".toList, "10.9.0.0/128".toList, "192.0.2.10:9443".toList⟩ := by
    decide +kernel
  have hrelay : networkProxyTrust (.content (proxiesConf (office [scopedProxy]))) [] = [] := by
    decide +kernel
  refine ⟨hvalid, hshell, hrelay, fun hread => ?_⟩
  have hsame := hread.shell
  rw [hshell] at hsame
  exact absurd hsame (by decide +kernel)

end OpenvpnServer.Network
