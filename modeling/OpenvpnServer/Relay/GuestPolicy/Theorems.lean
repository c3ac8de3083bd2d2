import OpenvpnServer.Network.AddressPlan.Theorems
import OpenvpnServer.Relay.GuestPolicy.Lemmas

namespace OpenvpnServer.Relay

open OpenvpnServer.Lib OpenvpnServer.Lib.Ipaddress OpenvpnServer.Lib.Netip OpenvpnServer.Network

variable {host : Text} {c : Char} {answer : PolicyAnswer}

section Hostnames

def hostChar (c : Char) : Bool := c.isLower || c.isDigit || c = '-' || c = '.'

theorem hostChar_of_mem (h : isHostname host = true) (hc : c ∈ host) :
    hostChar c = true := by
  rw [← joinWith_splitOn '.' host] at hc
  rcases mem_joinWith hc with rfl | ⟨label, hlabel, hmem⟩
  · decide
  · simp only [isHostname, Bool.and_eq_true, List.all_eq_true] at h
    have hchars := h.2 label hlabel
    simp only [isLabel, Bool.and_eq_true, List.all_eq_true] at hchars
    rw [hostChar, hchars.1.1.2 c hmem, Bool.true_or]

theorem hostname_ne_nil (h : isHostname host = true) : host ≠ [] := by
  rintro rfl
  exact absurd h (by decide)

theorem getLast?_hostname (h : isHostname host = true) : host.getLast? ≠ some '.' := by
  intro hlast
  obtain ⟨start, rfl⟩ := List.getLast?_eq_some_iff.mp hlast
  simp only [isHostname, Bool.and_eq_true, List.all_eq_true] at h
  have hempty : ([] : Text) ∈ (start ++ ['.']).splitOn '.' := by
    rw [List.splitOn_eq_splitOnP, List.splitOnP_append_cons _ _ (by simp)]
    simp
  exact absurd (h.2 [] hempty) (by decide)

variable {unicodeLower : Char → Char} (hlower : ∀ c, hostChar c = true → unicodeLower c = c)

include hlower

theorem normalHost_of_hostname (h : isHostname host = true) :
    normalHost unicodeLower host = host := by
  have hsame : ∀ c ∈ host, unicodeLower c = id c := fun c hc => hlower c (hostChar_of_mem h hc)
  rw [normalHost, if_neg (getLast?_hostname h), List.map_congr_left hsame, List.map_id]

theorem portalHosts_of_hostnames {hosts : List Text} (h : ∀ host ∈ hosts, isHostname host = true) :
    portalHosts unicodeLower hosts = some hosts := by
  induction hosts with
  | nil => rfl
  | cons host rest ih =>
      have hhost := h host List.mem_cons_self
      have hplain : ¬(host = [] ∨ host.any (· ∈ hostForbidden) = true) := by
        rw [not_or, List.any_eq_true]
        refine ⟨hostname_ne_nil hhost, ?_⟩
        rintro ⟨c, hc, hforbidden⟩
        have hnone : (hostForbidden.all fun c => !hostChar c) = true := by decide
        have hbad := List.all_eq_true.mp hnone c (of_decide_eq_true hforbidden)
        rw [hostChar_of_mem hhost hc] at hbad
        cases hbad
      rw [portalHosts, normalHost_of_hostname hlower hhost, if_neg hplain,
        ih fun other ho => h other (List.mem_cons_of_mem _ ho)]
      rfl

end Hostnames

section Compile

theorem parseAddrPort_dotted (ip : BitVec 32) {port : Nat} (hport : port ≤ 65535) :
    parseAddrPort (dotted ip.toNat ++ ':' :: decimal port) = some ⟨.v4 ip, port⟩ := by
  have hcut := cutLast_append_cons (dotted ip.toNat)
    (not_mem_decimal (c := ':') (by decide) port)
  have haddr : parseAddr (dotted ip.toNat) = some (.v4 ip) := by
    rw [parseAddr_dotted ip.isLt, BitVec.ofNat_toNat, BitVec.setWidth_eq]
  have hparsed : parsePort (decimal port) = some port := by
    rw [parsePort, decimal?_decimal]
    exact if_pos hport
  unfold parseAddrPort
  rw [hcut]
  split
  · rename_i hnone
    cases hnone
  · rename_i hempty
    simp only [Option.some.injEq, Prod.mk.injEq] at hempty
    rw [hempty.1] at haddr
    cases haddr
  · rename_i rest portText hbracket
    simp only [Option.some.injEq, Prod.mk.injEq] at hbracket
    have hmem : '[' ∈ dotted ip.toNat := by rw [hbracket.1]; exact List.mem_cons_self
    rcases mem_dotted hmem with hhex | hdot
    · exact absurd hhex (by decide)
    · exact absurd hdot (by decide)
  · rename_i htext
    simp only [Option.some.injEq, Prod.mk.injEq] at htext
    rw [← htext.1, ← htext.2, haddr, hparsed]
    rfl

theorem isGlobalUnicast_of_isUnicast {ip : BitVec 32} (h : isUnicast ip = true) :
    (Addr.v4 ip).isGlobalUnicast = true := by
  obtain ⟨hloopback, -, hmulticast, hlinkLocal, -⟩ := classes_v4 ip
  have hlt := ip.isLt
  have hfirst : octet ip 0 = ip.toNat / 2 ^ 24 % 256 := rfl
  have hsecond : octet ip 1 = ip.toNat / 2 ^ 16 % 256 := rfl
  simp only [isUnicast, hfirst, hsecond, Bool.and_eq_true, decide_eq_true_eq, ne_eq, Bool.not_eq_true',
    Bool.and_eq_false_iff, decide_eq_false_iff_not] at h
  have hzero : ip ≠ 0 := by
    rintro rfl
    simp at h
  have hones : ip ≠ 0xffffffff := by
    rintro rfl
    simp at h
  have hnot : ∀ b : Bool, (b = true → False) → (!b) = true := by decide
  simp only [Addr.isGlobalUnicast, Addr.unmap, decide_eq_true_eq, ne_eq, Addr.v4.injEq, hzero,
    hones, not_false_eq_true, reduceCtorEq, true_and]
  refine ⟨hnot _ fun hl => ?_, hnot _ fun hm => ?_, hnot _ fun hll => ?_⟩
  · have hl := hloopback.mp hl
    omega
  · have hm := hmulticast.mp hm
    omega
  · have hll := hlinkLocal.mp hll
    omega

theorem parsePrefixes_routes (routes : List (Network 32)) :
    parsePrefixes (routes.map fun route => (IpNetwork.v4 route).str) =
      some (routes.map fun route => (IpNetwork.v4 route).toPrefix) := by
  unfold parsePrefixes
  induction routes with
  | nil => rfl
  | cons route rest ih =>
      have hparse : parsePrefix (IpNetwork.v4 route).str = some (IpNetwork.v4 route).toPrefix :=
        parsePrefix_str rfl
      rw [List.map_cons, List.mapM_cons, hparse, Option.map_some, masked_toPrefix, ih]
      rfl

end Compile

section Length

theorem length_decimal_le {n k : Nat} (hk : 0 < k) (h : n < 10 ^ k) : (decimal n).length ≤ k :=
  (Nat.length_toDigits_le_iff (by decide) hk).mpr h

theorem length_dotted_le (n : Nat) : (dotted n).length ≤ 15 := by
  have hoctet : ∀ m, (decimal (m % 256)).length ≤ 3 := fun m =>
    length_decimal_le (by decide) (lt_trans (Nat.mod_lt m (by decide)) (by decide))
  have h0 := hoctet (n / 2 ^ 24)
  have h1 := hoctet (n / 2 ^ 16)
  have h2 := hoctet (n / 2 ^ 8)
  have h3 := hoctet n
  simp only [dotted, joinWith, List.length_append, List.length_cons]
  omega

theorem plainChar_iff :
    Json.plainChar c = true ↔ 32 ≤ c.toNat ∧ c.toNat ≤ 126 ∧ c ≠ '"' ∧ c ≠ '\\' := by
  simp only [Json.plainChar, Bool.and_eq_true, decide_eq_true_eq, and_assoc]

theorem plainChar_of_netChar (h : netChar c = true) : Json.plainChar c = true := by
  have hrange := netChar_range h
  refine plainChar_iff.mpr ⟨by omega, by omega, ?_, ?_⟩
  · rintro rfl
    exact absurd h (by decide)
  · rintro rfl
    exact absurd h (by decide)

theorem plainChar_of_hostChar (h : hostChar c = true) : Json.plainChar c = true := by
  have hrange : 32 ≤ c.toNat ∧ c.toNat ≤ 126 := by
    simp only [hostChar, Bool.or_eq_true, decide_eq_true_eq] at h
    rcases h with ((hlower | hdigit) | rfl) | rfl
    · have hcode := isLower_iff.mp hlower
      omega
    · have hcode := isDigit_iff.mp hdigit
      omega
    · decide
    · decide
  refine plainChar_iff.mpr ⟨hrange.1, hrange.2, ?_, ?_⟩
  · rintro rfl
    exact absurd h (by decide)
  · rintro rfl
    exact absurd h (by decide)

theorem length_quote_route (route : Network 32) :
    (Json.quote (IpNetwork.v4 route).str).length ≤ 20 := by
  have hbits : (decimal route.prefixlen).length ≤ 2 :=
    length_decimal_le (by decide) (lt_of_le_of_lt route.prefixlen_le (by decide))
  have hdotted := length_dotted_le route.address.toNat
  rw [Json.length_quote_plain fun c hc => plainChar_of_netChar (netChar_of_mem_str rfl hc)]
  simp only [IpNetwork.str, List.length_append, List.length_cons]
  omega

theorem length_quote_host (h : ValidHost host) :
    (Json.quote host).length ≤ 255 := by
  have hlength := h.2
  rw [Json.length_quote_plain fun c hc => plainChar_of_hostChar (hostChar_of_mem h.1 hc)]
  omega

theorem length_quote_listener {target : Text} (h : ValidListener target) :
    (Json.quote target).length ≤ 23 := by
  rw [Json.length_quote_plain fun c hc => plainChar_of_netChar (netChar_of_listener h c hc)]
  rcases h with rfl | ⟨ip, port, -, -, hport, rfl⟩
  · decide
  · have hdotted := length_dotted_le ip.toNat
    have hdecimal : (decimal port).length ≤ 5 := length_decimal_le (by decide) (by omega)
    rw [List.length_append, List.length_cons]
    omega

theorem toNat_of_isAlphanum (h : c.isAlphanum = true) : c.toNat < 128 := by
  have hcode := isAlphanum_iff.mp h
  omega

theorem ascii_of_validName {name : Text} (h : Access.validName name = true) :
    name.length ≤ 64 ∧ ∀ c ∈ name, c.toNat < 128 := by
  cases name with
  | nil => cases h
  | cons first rest =>
      simp only [Access.validName, Bool.and_eq_true, List.all_eq_true, decide_eq_true_eq] at h
      refine ⟨by rw [List.length_cons]; omega, fun c hc => ?_⟩
      rcases List.mem_cons.mp hc with rfl | hrest
      · exact toNat_of_isAlphanum h.1.1
      · have hname := h.1.2 c hrest
        rw [Access.nameChar, Bool.or_eq_true, decide_eq_true_eq] at hname
        rcases hname with halnum | hother
        · exact toNat_of_isAlphanum halnum
        · simp only [List.mem_cons, List.not_mem_nil, or_false] at hother
          rcases hother with rfl | rfl | rfl | rfl <;> decide

theorem toNat_of_mem_hexdigest {digest : BitVec 256} (h : c ∈ hexdigest digest) :
    c.toNat < 128 := by
  have hdigit : ∀ d < 16, (Nat.digitChar d).toNat < 128 := by decide
  obtain ⟨i, -, rfl⟩ := List.mem_map.mp h
  exact hdigit _ (Nat.mod_lt _ (by decide))

theorem length_portal_le {python : Python} {data : NetworkSettings} {portal : Option PortalAnswer}
    (hlistener : ValidListener data.gateway.portalListener)
    (hlimits : data.gateway.guestLinks.length ≤ 50) (h : PortalFor python data portal) :
    (Json.dumpsWith [' '] ((portal.map PortalAnswer.toJson).getD .null)).length ≤ 13200 := by
  cases h with
  | absent h =>
      rw [Option.map_none, Option.getD_none, Json.dumpsWith]
      decide
  | present hosts hhost hne hhosts =>
      have hmap : (hosts.map some).map hostJson = hosts.map Json.str := by
        rw [List.map_map]
        rfl
      have hlist := Json.length_dumps_strs [' ']
        fun host hmem => length_quote_host (hhosts.valid host hmem)
      have hcount := hhosts.length
      have hhost := length_quote_host hhost
      have htarget := length_quote_listener hlistener
      have hkeys : (Json.quote "host".toList).length = 6 ∧ (Json.quote "target".toList).length = 8 ∧
          (Json.quote "hosts".toList).length = 7 := by decide
      have hitems : hosts.length * (255 + [' '].length + 1) ≤ 50 * 257 :=
        Nat.mul_le_mul (by omega) (by decide)
      simp only [Option.map_some, Option.getD_some, PortalAnswer.toJson, Json.dumpsWith,
        Json.dumpsMembersWith, hmap, List.length_append, List.length_cons, List.length_nil,
        hkeys.1, hkeys.2.1, hkeys.2.2] at hlist ⊢
      omega

theorem length_reply_le {python : Python} {laxBool : Json → Option Bool}
    {sha256 : Text → BitVec 256} {s : PolicyState} {data : NetworkSettings}
    {routes : List (Network 32)} (h : Answered python laxBool sha256 s answer)
    (hascii : ∀ c ∈ answer.url, c.toNat < 128)
    (hlistener : ValidListener data.gateway.portalListener) (hlimits : data.WithinLimits)
    (hportal : PortalFor python data answer.portal)
    (hroutes : data.routes = routes.map fun route => (IpNetwork.v4 route).str)
    (hblocked : answer.blockedCidrs = texts data.routes) : (reply answer).length ≤ decodeLimit := by
  have hformed : answer.toJson.WellFormed :=
    PolicyAnswer.wellFormed_toJson (hblocked ▸ wellFormed_texts data.routes)
  have hbytes : (reply answer).length = answer.toJson.dumpsSpaced.length := by
    have hsame : octets answer.toJson.dumpsSpaced = answer.toJson.dumpsSpaced := by
      refine octets_ascii fun c hc => ?_
      have hrange := Json.printable_dumpsSpaced answer.toJson hformed c hc
      omega
    have hlength := congrArg List.length hsame
    rwa [octets, latin1, List.length_map] at hlength
  obtain ⟨hname, hchars⟩ := ascii_of_validName h.client
  have hclient := Json.length_quote_ascii hchars
  have hurl := Json.length_quote_ascii hascii
  have hurlLength := h.url
  have hcredential : (Json.quote answer.credentialId).length ≤ 6 * 64 + 2 := by
    obtain ⟨secret, hsecret⟩ := h.credentialId
    have hchars : ∀ c ∈ hexdigest (sha256 secret), c.toNat < 128 :=
      fun c hc => toNat_of_mem_hexdigest hc
    have hquote := Json.length_quote_ascii hchars
    rw [hsecret]
    simpa [hexdigest] using hquote
  have hallowed : (Json.dumpsWith [' '] (texts ["0.0.0.0/0".toList, "::/0".toList])).length = 21 := by
    decide
  have hlist : (Json.dumpsWith [' '] (texts data.routes)).length ≤ 2202 := by
    have hquote : ∀ text ∈ data.routes, (Json.quote text).length ≤ 20 := by
      intro text htext
      rw [hroutes] at htext
      obtain ⟨route, -, rfl⟩ := List.mem_map.mp htext
      exact length_quote_route route
    have hbound := Json.length_dumps_strs [' '] hquote
    have hitems : data.routes.length * (20 + [' '].length + 1) ≤ 100 * 22 :=
      Nat.mul_le_mul hlimits.routes (by decide)
    exact hbound.trans (by omega)
  have hlast := length_portal_le hlistener hlimits.gateway.guestLinks hportal
  have hkeys : (Json.quote "client".toList).length = 8 ∧
      (Json.quote "credential_id".toList).length = 15 ∧ (Json.quote "guest".toList).length = 7 ∧
      (Json.quote "url".toList).length = 5 ∧ (Json.quote "allowed_cidrs".toList).length = 15 ∧
      (Json.quote "blocked_cidrs".toList).length = 15 ∧
      (Json.quote "portal".toList).length = 8 := by decide
  have hflag : (Json.dumpsWith [' '] (.bool answer.guest)).length ≤ 5 := by
    cases answer.guest <;> simp [Json.dumpsWith]
  rw [hbytes, decodeLimit]
  simp only [Json.dumpsSpaced, PolicyAnswer.toJson, hblocked]
  generalize hguest : Json.bool answer.guest = guest at hflag ⊢
  generalize hrest : (answer.portal.map PortalAnswer.toJson).getD .null = portal at hlast ⊢
  generalize texts data.routes = blocked at hlist ⊢
  generalize texts _ = allowed at hallowed ⊢
  obtain ⟨h1, h2, h3, h4, h5, h6, h7⟩ := hkeys
  simp only [Json.dumpsWith, Json.dumpsMembersWith, List.length_append, List.length_cons,
    List.length_nil, h1, h2, h3, h4, h5, h6, h7, hallowed]
  omega

end Length

section Meaning

variable {python : Python} {laxBool : Json → Option Bool} {sha256 : Text → BitVec 256}
  {unicodeLower : Char → Char} {data : NetworkSettings}

-- PORTAL_IP and PORTAL_PORT of `guest_portal_validate`
def portalAddress (target : Text) : Text × Text := (cutLast ':' target).getD (target, target)

def SameListener (listener : Text) (portal : Option GuestPortal) : Prop :=
  ∃ (ip : BitVec 32) (port : Nat), portalAddress listener = (dotted ip.toNat, decimal port) ∧
    ∀ compiled ∈ portal, compiled.target = ⟨.v4 ip, port⟩

structure CompiledFor (python : Python) (data : NetworkSettings) (c : CompiledPolicy) : Prop where
  guest : c.policy.guest = true
  absent : c.guestPortal = none ↔
    data.gateway.openvpnHost = [] ∨ data.gateway.portalListener = []
  hosts : ∀ portal ∈ c.guestPortal, ∀ host, host ∈ portal.hosts ↔
    host = data.gateway.openvpnHost ∨
      ∃ link ∈ data.gateway.guestLinks, linkHost python link = .ok (some host)
  listener : data.gateway.portalListener = [] ∨
    SameListener data.gateway.portalListener c.guestPortal
  allowed : c.allowedPrefixes = [net4 0 0 (by decide), net6 0 0 (by decide)]
  blocked : ∃ routes : List (Network 32),
    data.routes = routes.map (fun route => (IpNetwork.v4 route).str) ∧
      c.blockedPrefixes = routes.map fun route => (IpNetwork.v4 route).toPrefix

theorem portalAddress_listener (ip : BitVec 32) (port : Nat) :
    portalAddress (dotted ip.toNat ++ ':' :: decimal port) = (dotted ip.toNat, decimal port) := by
  rw [portalAddress, cutLast_append_cons _ (not_mem_decimal (by decide) port)]
  rfl

theorem compilePortal_for (hlower : ∀ c, hostChar c = true → unicodeLower c = c)
    (hlistener : ValidListener data.gateway.portalListener)
    (hguest : answer.guest = true) (routes : List Text)
    (hportal : PortalFor python data answer.portal) :
    ∃ portal, compilePortal unicodeLower (answer.policy routes) = some portal ∧
      (portal = none ↔ data.gateway.openvpnHost = [] ∨ data.gateway.portalListener = []) ∧
      (∀ compiled ∈ portal, ∀ host, host ∈ compiled.hosts ↔ host = data.gateway.openvpnHost ∨
        ∃ link ∈ data.gateway.guestLinks, linkHost python link = .ok (some host)) ∧
      (data.gateway.portalListener = [] ∨
        SameListener data.gateway.portalListener portal) := by
  unfold compilePortal PolicyAnswer.policy
  dsimp only
  rw [hguest]
  generalize answer.portal = given at hportal
  cases hportal with
  | absent hempty =>
      refine ⟨none, rfl, by simp [hempty], by simp, ?_⟩
      rcases hlistener with hnone | ⟨ip, port, -, -, -, htarget⟩
      · exact .inl hnone
      · exact .inr ⟨ip, port, by rw [htarget, portalAddress_listener], by simp⟩
  | present hosts hhost hne hhosts =>
      obtain ⟨ip, port, hunicast, hlow, hhigh, htarget⟩ := hlistener.resolve_left hne
      have hnames : portalHosts unicodeLower (data.gateway.openvpnHost :: hosts) =
          some (data.gateway.openvpnHost :: hosts) := by
        refine portalHosts_of_hostnames hlower ?_
        rw [List.forall_mem_cons]
        exact ⟨hhost.1, fun host hmem => (hhosts.valid host hmem).1⟩
      have hconfig : PortalAnswer.config ⟨data.gateway.openvpnHost, data.gateway.portalListener,
          hosts.map some⟩ = ⟨data.gateway.openvpnHost, data.gateway.portalListener, hosts⟩ := by
        unfold PortalAnswer.config
        rw [List.map_map]
        simp
      have hparse : parseGuestPortal unicodeLower
          ⟨data.gateway.openvpnHost, data.gateway.portalListener, hosts⟩ =
          some ⟨data.gateway.openvpnHost :: hosts, ⟨.v4 ip, port⟩⟩ := by
        have hglobal := isGlobalUnicast_of_isUnicast hunicast
        have hport : ¬port < 1024 := by omega
        unfold parseGuestPortal
        rw [htarget, parseAddrPort_dotted ip hhigh]
        simp [Addr.is4, hglobal, hport, hnames]
      refine ⟨some ⟨data.gateway.openvpnHost :: hosts, ⟨.v4 ip, port⟩⟩, ?_, ?_, ?_, .inr ?_⟩
      · rw [Option.map_some, hconfig]
        dsimp only
        rw [hparse]
        rfl
      · simp [hne, hostname_ne_nil hhost.1]
      · rintro compiled ⟨rfl⟩ host
        rw [List.mem_cons, hhosts.mem_iff]
      · refine ⟨ip, port, by rw [htarget, portalAddress_listener], ?_⟩
        rintro compiled ⟨rfl⟩
        rfl

-- The answer to a guest means the same to the relay and to the firewall as the
-- saved settings do.
structure GuestPolicyAgrees (python : Python) (unicodeLower : Char → Char) (data : NetworkSettings)
    (settings : Text) (answer : PolicyAnswer) (vars : ShellVars) : Prop where
  length : (reply answer).length ≤ 32768
  compiled : ∃ policy c, decodePolicy (reply answer) = some policy ∧
    policy.compile unicodeLower = some c ∧ CompiledFor python data c
  target : ((shellLines settings).foldl ShellVars.assign vars).guestPortalTarget =
    data.gateway.portalListener
  accepted : guestPortalValidate
    ((shellLines settings).foldl ShellVars.assign vars).guestPortalTarget = true

theorem compile_for (hlower : ∀ c, hostChar c = true → unicodeLower c = c)
    (hlistener : ValidListener data.gateway.portalListener)
    (hguest : answer.guest = true) (hportal : PortalFor python data answer.portal)
    {routes : List (Network 32)}
    (hroutes : data.routes = routes.map fun route => (IpNetwork.v4 route).str) :
    ∃ c, (answer.policy data.routes).compile unicodeLower = some c ∧ CompiledFor python data c := by
  obtain ⟨portal, hcompiled, habsent, hhosts, hsame⟩ :=
    compilePortal_for hlower hlistener hguest data.routes hportal
  have hallowed : parsePrefixes (answer.policy data.routes).cidrs =
      some [net4 0 0 (by decide), net6 0 0 (by decide)] := by
    change parsePrefixes ["0.0.0.0/0".toList, "::/0".toList] = _
    decide
  have hblocked : parsePrefixes (answer.policy data.routes).blockedCIDRs =
      some (routes.map fun route => (IpNetwork.v4 route).toPrefix) := by
    change parsePrefixes data.routes = _
    rw [hroutes, parsePrefixes_routes]
  unfold Policy.compile
  rw [hcompiled, hallowed, hblocked]
  exact ⟨_, rfl, hguest, habsent, hhosts, hsame, rfl, routes, hroutes, rfl⟩

structure GuestAnswer (python : Python) (data : NetworkSettings) (answer : PolicyAnswer) : Prop where
  limits : data.WithinLimits
  portal : PortalFor python data answer.portal
  blocked : answer.blockedCidrs = texts data.routes

theorem guestAnswer_of_saved (hsplit : SplitsHost python) {statics : List Text}
    {body : NetworkSettings} (hvalidate : validate python statics body = .ok data)
    (hkeeps : keepsJson body) {s : PolicyState} (hfile : s.networkFile = some (settingsConf data))
    (hanswered : Answered python laxBool sha256 s answer)
    (hguest : answer.guest = true) : GuestAnswer python data answer := by
  obtain ⟨networks, hvalid⟩ := validated_of_validate hvalidate
  have hread := hvalid.readNetwork_of_keepsJson hkeeps
  have hfields := hanswered.fields
  rw [hguest, guestFields, if_pos rfl, hfile] at hfields
  obtain ⟨portal, hportal, hrest⟩ := exists_of_bind hfields
  rw [savedRoutes_spec hread] at hrest
  have hpair : (portal, texts data.routes) = (answer.portal, answer.blockedCidrs) :=
    Except.ok.inj hrest
  rw [Prod.mk.injEq] at hpair
  rw [hpair.1] at hportal
  obtain ⟨hlimits, hfor⟩ :=
    guestPortal_spec hsplit (gatewayChecked_of_validate hvalidate) hread hportal
  exact ⟨hlimits, hfor, hpair.2.symm⟩

theorem guest_policy_agrees {host : Host} (hsplit : SplitsHost host.python)
    (hlower : ∀ c, hostChar c = true → unicodeLower c = c) {body : NetworkSettings}
    {before after : AddressState} (hsaved : saveSettings host body before = .ok after)
    (hkeeps : keepsJson body) {s : PolicyState} (hfile : s.networkFile = after.settings)
    {authorization : Text} {strictState : Bool} {answer : PolicyAnswer}
    (hanswer : authorize host.python laxBool sha256 s authorization strictState =
      .ok (some answer))
    (hguest : answer.guest = true) (hascii : ∀ c ∈ answer.url, c.toNat < 128) (vars : ShellVars) :
    ∃ data settings,
      validate host.python ((staticIps before.staticclients).map Prod.snd) body = .ok data ∧
      after.settings = some settings ∧
      GuestPolicyAgrees host.python unicodeLower data settings answer vars := by
  obtain ⟨data, hvalidate, hwrite⟩ := validate_of_saveSettings hsaved
  obtain ⟨networks, hvalid⟩ := validated_of_validate hvalidate
  obtain ⟨a, dns, routes, haddressed⟩ := addressed_of_validate hvalidate
  obtain ⟨kept, -, rfl⟩ := haddressed.writeSettings_spec hwrite
  have hgateway := gatewayChecked_of_validate hvalidate
  have hanswered := answered_of_authorize hanswer
  have hfields := guestAnswer_of_saved hsplit hvalidate hkeeps hfile hanswered hguest
  have hlength := length_reply_le hanswered hascii hgateway.listener hfields.limits hfields.portal
    haddressed.pushed hfields.blocked
  obtain ⟨c, hcompile, hmeans⟩ :=
    compile_for hlower hgateway.listener hguest hfields.portal haddressed.pushed
  have htarget := hvalid.guestPortalTarget_settingsConf vars
  refine ⟨data, settingsConf data, hvalidate, rfl, hlength,
    ⟨_, c, decodePolicy_reply hfields.blocked hlength, hcompile, hmeans⟩, htarget, ?_⟩
  rw [htarget]
  exact guestPortalValidate_of_valid hgateway.listener

end Meaning

section Samples

def urlPython : Python :=
  { asciiPython with
    urlsplit := fun url =>
      if "https://".toList.isPrefixOf url then
        some
          { scheme := "https".toList
            hostname := some ((url.drop 8).takeWhile (· ≠ '/'))
            username := none
            password := none
            port := some none
            path := (url.drop 8).dropWhile (· ≠ '/')
            query := []
            fragment := [] }
      else none
    urlunsplit := fun scheme host path _ _ =>
      scheme ++ "://".toList ++ host ++ '/' :: path.dropWhile (· = '/') }

theorem splitsHost_urlPython : SplitsHost urlPython := by
  intro host path query fragment h
  have hurl : urlPython.urlunsplit "https".toList host path query fragment =
      "https://".toList ++ (host ++ '/' :: path.dropWhile (· = '/')) := by
    change "https".toList ++ "://".toList ++ host ++ _ = _
    rw [List.append_assoc]
    rfl
  have hprefix : "https://".toList.isPrefixOf
      ("https://".toList ++ (host ++ '/' :: path.dropWhile (· = '/'))) = true :=
    List.isPrefixOf_iff_prefix.mpr (List.prefix_append _ _)
  have hslash : ∀ c ∈ host, decide (c ≠ '/') = true := by
    intro c hc
    rw [decide_eq_true_eq]
    rintro rfl
    exact absurd (hostChar_of_mem h hc) (by decide)
  rw [hurl]
  simp only [urlPython, if_pos hprefix, Option.map_some, Option.some.injEq]
  rw [List.drop_left' (by decide), List.takeWhile_append_of_pos hslash,
    List.takeWhile_cons_of_neg (by simp), List.append_nil]

def wikiHost : Host := { plainHost with python := urlPython }

def wikiLink : GuestLink := ⟨"https://wiki.example.org/start".toList, false⟩

def wikiSettings (proxyCidrs : List Text) : NetworkSettings :=
  { office proxyCidrs with
    routes := ["192.0.2.0/24".toList]
    gateway := { officeGateway with domain := "example.org".toList, guestLinks := [wikiLink] } }

def relayRows (key : Text) : Option Text :=
  if key = "apple_relay".toList then
    some (Json.dumps (.obj [("enabled".toList, .bool true),
      ("url".toList, .str "https://relay.example.org".toList)]))
  else if key = "relay_client:bob".toList then
    some (Json.dumps (.obj [("serial".toList, .str ['1']), ("secret".toList, .str "s".toList)]))
  else none

def bobState (networkFile : Option Text) : PolicyState where
  now := 1
  networkFile := networkFile
  rows := relayRows
  certificates := fun name => if name = "bob".toList then some ⟨name, ['1'], none, some 2⟩ else none
  index := some fun serial => if serial = ['1'] then some ['V'] else none
  guests := ["bob".toList]

def bobToken : Text := "Bearer bob:s".toList

def answerFacts (result : Except StateError (Option PolicyAnswer)) :
    Option (Bool × Option PortalAnswer × Text) :=
  match result with
  | .ok (some answer) => some (answer.guest, answer.portal, answer.url)
  | _ => none

theorem toLower_of_hostChar (h : hostChar c = true) : c.toLower = c := by
  have hupper : ¬(c.val ≥ 'A'.val ∧ c.val ≤ 'Z'.val) := by
    rintro ⟨hlow, hhigh⟩
    have hlow : 65 ≤ c.toNat := hlow
    have hhigh : c.toNat ≤ 90 := hhigh
    simp only [hostChar, Bool.or_eq_true, decide_eq_true_eq] at h
    rcases h with ((hlower | hdigit) | rfl) | rfl
    · have hcode := isLower_iff.mp hlower
      omega
    · have hcode := isDigit_iff.mp hdigit
      omega
    · exact absurd hlow (by decide)
    · exact absurd hlow (by decide)
  unfold Char.toLower
  rw [dif_neg hupper]

theorem ok_of_toOption {ε α : Type} {result : Except ε α} {value : α}
    (h : result.toOption = some value) : result = .ok value := by
  cases result with
  | error failure => cases h
  | ok other => exact congrArg _ (Option.some.inj h)

theorem exists_of_answerFacts {result : Except StateError (Option PolicyAnswer)}
    {facts : Bool × Option PortalAnswer × Text} (h : answerFacts result = some facts) :
    ∃ answer, result = .ok (some answer) ∧ (answer.guest, answer.portal, answer.url) = facts := by
  unfold answerFacts at h
  split at h
  · exact ⟨_, rfl, Option.some.inj h⟩
  · cases h

def savedAnswer (after : AddressState) :
    Option (Bool × Option PortalAnswer × Text) :=
  answerFacts (authorize urlPython (fun _ => none) (fun _ => 0) (bobState after.settings) bobToken
    true)

theorem wiki_guest_policy_agrees :
    ∃ after answer data settings,
      saveSettings wikiHost (wikiSettings [loopback]) officeState = .ok after ∧
      authorize urlPython (fun _ => none) (fun _ => 0) (bobState after.settings) bobToken true =
        .ok (some answer) ∧
      answer.portal = some ⟨"vpn.example.org".toList, "192.0.2.10:9443".toList,
        [some "wiki.example.org".toList]⟩ ∧
      GuestPolicyAgrees urlPython Char.toLower data settings answer ⟨[], [], []⟩ := by
  have hread : (saveSettings wikiHost (wikiSettings [loopback]) officeState).toOption.map
      savedAnswer = some (some (true, some ⟨"vpn.example.org".toList, "192.0.2.10:9443".toList,
        [some "wiki.example.org".toList]⟩, "https://relay.example.org".toList)) := by
    decide +kernel
  have hkeeps : keepsJson (wikiSettings [loopback]) := by decide +kernel
  obtain ⟨after, hafter, hfacts⟩ := Option.map_eq_some_iff.mp hread
  have hsaved := ok_of_toOption hafter
  obtain ⟨answer, hanswer, hanswerFacts⟩ := exists_of_answerFacts hfacts
  simp only [Prod.mk.injEq] at hanswerFacts
  obtain ⟨hguest, hportal, hurl⟩ := hanswerFacts
  have hascii : ∀ c ∈ answer.url, c.toNat < 128 := by
    rw [hurl]
    exact List.all_iff_forall_prop.mp (by decide +kernel)
  obtain ⟨data, settings, -, -, hagrees⟩ := guest_policy_agrees splitsHost_urlPython
    (fun _ => toLower_of_hostChar) hsaved hkeeps rfl hanswer hguest hascii ⟨[], [], []⟩
  exact ⟨after, answer, data, settings, hsaved, hanswer, hportal, hagrees⟩

-- Python takes the second line of the scope for the saved settings.
def emptyingProxy : Text := "fe80::%\nNETWORK_JSON=\x7b\x7d\nx".toList

def readsEmpty : Except ReadFailure Json → Bool
  | .ok (.obj []) => true
  | _ => false

theorem savedRoutes_empty {file : Option Text} (h : readsEmpty (readNetwork file) = true) :
    savedRoutes file = .ok (texts []) := by
  unfold savedRoutes loadNetwork
  unfold readsEmpty at h
  split at h
  · rename_i hread
    rw [hread]
    rfl
  · cases h

theorem emptying_proxy_hides_portal :
    ∃ after answer,
      saveSettings wikiHost (wikiSettings [emptyingProxy]) officeState = .ok after ∧
      authorize urlPython (fun _ => none) (fun _ => 0) (bobState after.settings) bobToken true =
        .ok (some answer) ∧
      answer.guest = true ∧ answer.url = "https://relay.example.org".toList ∧
      answer.portal = none ∧
      ∀ data settings, validate urlPython [] (wikiSettings [emptyingProxy]) = .ok data →
        after.settings = some settings →
        ¬GuestPolicyAgrees urlPython Char.toLower data settings answer ⟨[], [], []⟩ := by
  have hread : (saveSettings wikiHost (wikiSettings [emptyingProxy]) officeState).toOption.map
      (fun after => (savedAnswer after, readsEmpty (readNetwork after.settings))) =
      some (some (true, none, "https://relay.example.org".toList), true) := by
    decide +kernel
  have hvalid : (validate urlPython [] (wikiSettings [emptyingProxy])).toOption.map
      (fun data => (data.gateway.openvpnHost, data.gateway.portalListener)) =
      some ("vpn.example.org".toList, "192.0.2.10:9443".toList) := by
    decide +kernel
  obtain ⟨after, hafter, hfacts⟩ := Option.map_eq_some_iff.mp hread
  rw [Prod.mk.injEq] at hfacts
  obtain ⟨answer, hanswer, hanswerFacts⟩ := exists_of_answerFacts hfacts.1
  simp only [Prod.mk.injEq] at hanswerFacts
  obtain ⟨hguest, hportal, hurl⟩ := hanswerFacts
  refine ⟨after, answer, ok_of_toOption hafter, hanswer, hguest, hurl, hportal, ?_⟩
  intro data settings hdata _ hagrees
  have hblocked : answer.blockedCidrs = texts [] := by
    have hfields := (answered_of_authorize hanswer).fields
    rw [hguest, guestFields, if_pos rfl] at hfields
    obtain ⟨portal, -, hrest⟩ := exists_of_bind hfields
    change (savedRoutes after.settings >>= _) = _ at hrest
    rw [savedRoutes_empty hfacts.2] at hrest
    exact (Prod.mk.inj (Except.ok.inj hrest)).2.symm
  obtain ⟨policy, c, hdecode, hcompile, hfor⟩ := hagrees.compiled
  rw [decodePolicy_reply hblocked hagrees.length, Option.some.injEq] at hdecode
  subst hdecode
  have hcompiled := (compile_spec _ _ _ hcompile).2.1
  have hnone : compilePortal Char.toLower (answer.policy []) = some none := by
    unfold compilePortal PolicyAnswer.policy
    rw [hguest, hportal]
    rfl
  rw [hnone, Option.some.injEq] at hcompiled
  rw [hdata] at hvalid
  simp only [Except.toOption, Option.map_some, Option.some.injEq, Prod.mk.injEq] at hvalid
  rcases hfor.absent.mp hcompiled.symm with hhost | hlistener
  · exact absurd (hvalid.1.symm.trans hhost) (by decide)
  · exact absurd (hvalid.2.symm.trans hlistener) (by decide)

end Samples

end OpenvpnServer.Relay
