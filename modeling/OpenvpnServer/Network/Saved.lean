import OpenvpnServer.Lib.Table
import OpenvpnServer.Network.AddressPlan
import OpenvpnServer.Network.ServerConf.Lemmas
import OpenvpnServer.Network.Theorems

-- What a successful save leaves behind, in numbers: the networks, the pool, the
-- pushed servers and routes of the settings, and the two files that hold them.
namespace OpenvpnServer.Network

open OpenvpnServer.Lib OpenvpnServer.Lib.Ipaddress OpenvpnServer.Lib.Netip

section Addressed

def StaticFits (a : Addressing) (ip : Nat) : Prop :=
  inNetwork ip a.net ∧ ¬inNetwork ip a.guest ∧ ¬(a.first ≤ ip ∧ ip ≤ a.last) ∧
    ip ≠ firstAddress a.net ∧ ip ≠ firstAddress a.net + 1 ∧ ip ≠ broadcastAddress a.net

theorem checkStatic_iff (a : Addressing) (texts : List Text) :
    checkStatic a texts = .ok () ↔
      ∀ text ∈ texts, ∃ ip, parseIPv4 text = some ip ∧ StaticFits a ip.toNat := by
  induction texts with
  | nil => simp [checkStatic]
  | cons text rest ih =>
      unfold checkStatic
      cases hip : parseIPv4 text with
      | none => simp [hip]
      | some ip =>
          dsimp only
          by_cases hbad : ¬inNetwork ip.toNat a.net ∨ inNetwork ip.toNat a.guest ∨
              (a.first ≤ ip.toNat ∧ ip.toNat ≤ a.last) ∨
              ip.toNat ∈ [firstAddress a.net, firstAddress a.net + 1, broadcastAddress a.net]
          · rw [if_pos hbad]
            refine iff_of_false (by simp [refuse]) fun hall => ?_
            obtain ⟨other, hother, hfits⟩ := hall text List.mem_cons_self
            rw [hip, Option.some.injEq] at hother
            subst hother
            obtain ⟨hnet, hguest, hpool, hreserved⟩ := hfits
            simp [hnet, hguest, hpool, hreserved] at hbad
          · rw [if_neg hbad, ih]
            simp only [List.mem_cons, List.not_mem_nil, or_false, not_or, not_not] at hbad
            constructor
            · intro hrest other hother
              rcases List.mem_cons.mp hother with rfl | hmem
              · exact ⟨ip, hip, hbad.1, hbad.2.1, hbad.2.2.1, hbad.2.2.2⟩
              · exact hrest other hmem
            · exact fun hall other hother => hall other (List.mem_cons_of_mem _ hother)

structure Addressed (staticIps : List Text) (data : NetworkSettings) (a : Addressing)
    (dns : List (BitVec 32)) (routes : List (Network 32)) : Prop where
  fits : a.fits
  first_lt : a.first < 2 ^ 32
  last_lt : a.last < 2 ^ 32
  vpnSubnet : data.vpnSubnet = (IpNetwork.v4 a.net).str
  guestSubnet : data.guestSubnet = (IpNetwork.v4 a.guest).str
  poolFirst : data.poolFirst = dotted a.first
  poolLast : data.poolLast = dotted a.last
  statics : ∀ text ∈ staticIps, ∃ ip, parseIPv4 text = some ip ∧ StaticFits a ip.toNat
  dnsServers : data.dnsServers = dns.map fun ip => dotted ip.toNat
  pushed : data.routes = routes.map fun route => (IpNetwork.v4 route).str
  pushed_ne : ∀ route ∈ routes, route.prefixlen ≠ 0

theorem parseAddressing_spec {data : NetworkSettings} {a : Addressing}
    (h : parseAddressing data = some a) : a.fits ∧ a.first < 2 ^ 32 ∧ a.last < 2 ^ 32 := by
  unfold parseAddressing at h
  split at h
  · rename_i net guest first last hnet hguest hfirst hlast
    dsimp only at h
    split at h
    · rename_i hfits
      cases h
      exact ⟨hfits, first.isLt, last.isLt⟩
    · cases h
  · cases h

theorem fromKeys_injective_map {α β : Type*} [DecidableEq α] [DecidableEq β] {f : α → β}
    (hf : Function.Injective f) (l : List α) : fromKeys (l.map f) = (fromKeys l).map f :=
  fromKeys_map fun _ _ _ _ h => hf h

theorem dotted_injective : Function.Injective fun ip : BitVec 32 => dotted ip.toNat := by
  intro ip other h
  have hip := parseIPv4_dotted ip.isLt
  have hother := parseIPv4_dotted other.isLt
  rw [show dotted ip.toNat = dotted other.toNat from h, hother, Option.some.injEq,
    BitVec.ofNat_toNat, BitVec.ofNat_toNat, BitVec.setWidth_eq, BitVec.setWidth_eq] at hip
  exact hip.symm

theorem str_v4_injective :
    Function.Injective fun net : Network 32 => (IpNetwork.v4 net).str := by
  intro net other h
  have hnet := ipv4Network_str net
  rw [show (IpNetwork.v4 net).str = (IpNetwork.v4 other).str from h, ipv4Network_str,
    Option.some.injEq] at hnet
  exact hnet.symm

theorem exists_map_v4 {networks : List IpNetwork}
    (h : ∀ net ∈ networks, ¬(net.prefixlen = 0 ∨ net.is4 = false)) :
    ∃ nets : List (Network 32), networks = nets.map IpNetwork.v4 ∧
      ∀ net ∈ nets, net.prefixlen ≠ 0 := by
  induction networks with
  | nil => exact ⟨[], rfl, by simp⟩
  | cons net rest ih =>
      obtain ⟨nets, hnets, hne⟩ := ih fun other ho => h other (List.mem_cons_of_mem _ ho)
      have hgood := h net List.mem_cons_self
      rw [not_or] at hgood
      cases net with
      | v6 net scope => exact absurd rfl hgood.2
      | v4 net =>
          refine ⟨net :: nets, by rw [hnets, List.map_cons], fun other hother => ?_⟩
          rcases List.mem_cons.mp hother with rfl | hmem
          · exact hgood.1
          · exact hne other hmem

theorem cidrs_v4 {values texts : List Text} (h : cidrs values true = .ok texts) :
    ∃ routes : List (Network 32), texts = routes.map (fun net => (IpNetwork.v4 net).str) ∧
      ∀ route ∈ routes, route.prefixlen ≠ 0 := by
  unfold cidrs at h
  split at h
  · cases h
  · rename_i networks hnetworks
    cases h
    unfold cidrNetworks at hnetworks
    split at hnetworks
    · cases hnetworks
    · split at hnetworks
      · cases hnetworks
      · rename_i hany
        cases hnetworks
        obtain ⟨nets, hnets, hne⟩ : ∃ nets : List (Network 32), networks = nets.map IpNetwork.v4 ∧
            ∀ net ∈ nets, net.prefixlen ≠ 0 := by
          refine exists_map_v4 fun net hnet hbad => hany ?_
          exact List.any_eq_true.mpr ⟨net, hnet, by simpa using hbad⟩
        refine ⟨fromKeys nets, ?_, fun net hnet => hne net (mem_fromKeys.mp hnet)⟩
        rw [hnets, List.map_map]
        exact fromKeys_injective_map str_v4_injective nets

theorem addressed_of_validate {python : Python} {staticIps : List Text}
    {body data : NetworkSettings} (h : validate python staticIps body = .ok data) :
    ∃ a dns routes, Addressed staticIps data a dns routes := by
  obtain ⟨addressed, gateway, haddressed, -, rfl⟩ := validate_eq_ok h
  obtain ⟨a, dns, routes, proxies, hparse, hdns, hstatic, hroutes, -, -, rfl⟩ :=
    validateAddressing_eq_ok haddressed
  obtain ⟨hfits, hfirst, hlast⟩ := parseAddressing_spec hparse
  obtain ⟨nets, hnets, hne⟩ := cidrs_v4 hroutes
  obtain ⟨ips, -, hips⟩ := Option.map_eq_some_iff.mp hdns
  exact ⟨a, fromKeys ips, nets, hfits, hfirst, hlast, rfl, rfl, rfl, rfl,
    (checkStatic_iff a staticIps).mp hstatic,
    by rw [← hips]; exact fromKeys_injective_map dotted_injective ips, hnets, hne⟩

end Addressed

section Written

variable {staticIps : List Text} {data : NetworkSettings} {a : Addressing} {dns : List (BitVec 32)}
  {routes : List (Network 32)}

def addedLines (a : Addressing) (dns : List (BitVec 32)) (routes : List (Network 32)) :
    List Text :=
  serverLine a.net :: poolLine (dotted a.first) (dotted a.last) ::
    (dnsLines 0 (dns.map fun ip => dotted ip.toNat) ++ routes.map routeLine)

theorem Addressed.networkLines_eq (h : Addressed staticIps data a dns routes) :
    networkLines data = some (addedLines a dns routes) := by
  have hroutes : data.routes.mapM ipv4Network = some routes := by
    have hread : ∀ route ∈ routes,
        (ipv4Network ∘ fun route => (IpNetwork.v4 route).str) route = some (id route) :=
      fun route _ => ipv4Network_str route
    rw [h.pushed, List.mapM_map, mapM_eq_some_map hread, List.map_id]
  unfold networkLines
  rw [h.vpnSubnet, ipv4Network_str, hroutes, h.poolFirst, h.poolLast, h.dnsServers]
  rfl

theorem noControl_quote : NoControl ['"'] := noControl_of_all (by decide)

theorem noControl_decimal (n : Nat) : NoControl (decimal n) := by
  intro c hc
  have hrange := netChar_range (c := c) (by simp [netChar, mem_decimal hc])
  omega

theorem noControl_dnsLines (i : Nat) (dns : List (BitVec 32)) :
    ∀ line ∈ dnsLines i (dns.map fun ip => dotted ip.toNat), NoControl line := by
  induction dns generalizing i with
  | nil => simp [dnsLines]
  | cons ip rest ih =>
      intro line hline
      rw [List.map_cons, dnsLines, List.mem_cons, List.mem_cons] at hline
      rcases hline with rfl | rfl | hline
      · exact ((((noControl_of_all (by decide)).append (noControl_decimal i)).append
          (noControl_of_all (by decide))).append (noControl_dotted _)).append noControl_quote
      · exact ((noControl_of_all (by decide)).append (noControl_dotted _)).append noControl_quote
      · exact ih (i + 1) line hline

theorem noControl_routeLine (route : Network 32) : NoControl (routeLine route) :=
  (((noControl_of_all (by decide)).append (noControl_dotted _)).append
    (noControl_blank.append (noControl_dotted _))).append
      noControl_quote

theorem noControl_addedLines (a : Addressing) (dns : List (BitVec 32))
    (routes : List (Network 32)) : ∀ line ∈ addedLines a dns routes, NoControl line := by
  intro line hline
  simp only [addedLines, List.mem_cons, List.mem_append, List.mem_map] at hline
  rcases hline with rfl | rfl | hline | ⟨route, -, rfl⟩
  · exact noControl_serverLine a.net
  · exact noControl_poolLine a.first a.last
  · exact noControl_dnsLines 0 dns line hline
  · exact noControl_routeLine route

theorem cr_not_mem_kept {conf : Text} {kept : List Text}
    (h : keptLines (pyLines (universalNewlines conf)) = some kept) : ∀ line ∈ kept, '\r' ∉ line := by
  intro line hline hmem
  exact absurd (lineBreak_of_mem_pyLines (keptLines_spec h line hline).1 '\r' hmem) (by decide)

theorem validate_of_saveSettings {host : Host} {body : NetworkSettings} {s next : AddressState}
    (h : saveSettings host body s = .ok next) :
    ∃ data, validate host.python ((Network.staticIps s.staticclients).map Prod.snd) body =
        .ok data ∧ writeSettings data s = .ok next := by
  unfold saveSettings validateSettings at h
  obtain ⟨data, hdata, hwrite⟩ := exists_of_bind h
  refine ⟨data, ?_, hwrite⟩
  split at hdata
  · cases hdata
  · rename_i hresult
    cases hdata
    exact hresult

theorem Addressed.writeSettings_spec (h : Addressed staticIps data a dns routes)
    {s next : AddressState} (hwrite : writeSettings data s = .ok next) :
    ∃ kept, keptLines (pyLines (universalNewlines s.serverConf)) = some kept ∧
      next = { s with
        serverConf := unlines (kept ++ addedLines a dns routes)
        settings := some (settingsConf data) } := by
  unfold writeSettings serverConfLines at hwrite
  rw [h.networkLines_eq] at hwrite
  cases hkept : keptLines (pyLines (universalNewlines s.serverConf)) with
  | none =>
      rw [hkept] at hwrite
      cases hwrite
  | some kept =>
      refine ⟨kept, rfl, ?_⟩
      rw [hkept] at hwrite
      dsimp only at hwrite
      cases htext : serverConfText (joinWith '\n' (kept ++ addedLines a dns routes) ++ ['\n']) with
      | error message =>
          rw [htext] at hwrite
          cases hwrite
      | ok conf =>
          rw [htext] at hwrite
          cases hwrite
          have hne : kept ++ addedLines a dns routes ≠ [] := by simp [addedLines]
          rw [serverConfText_unlines hne _ htext]
          intro line hline
          rcases List.mem_append.mp hline with hline | hline
          · exact cr_not_mem_kept hkept line hline
          · exact (noControl_addedLines a dns routes line hline).not_mem (by decide)

theorem vpnSubnet_saved (wide : Char → Bool) (h : Addressed staticIps data a dns routes)
    {conf : Text} (hagree : optionsAgree conf) {kept : List Text}
    (hkept : keptLines (pyLines (universalNewlines conf)) = some kept) :
    vpnSubnet wide (unlines (kept ++ addedLines a dns routes)) = some ⟨a.net, a.first, a.last⟩ := by
  refine vpnSubnet_written wide hagree hkept a.net h.first_lt h.last_lt fun line hline => ?_
  refine (noControl_addedLines a dns routes line ?_).not_mem (by decide)
  exact List.mem_cons_of_mem _ (List.mem_cons_of_mem _ hline)

end Written

end OpenvpnServer.Network
