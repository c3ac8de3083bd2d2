import OpenvpnServer.Firewall.GuestRules.Lemmas
import OpenvpnServer.Relay.GuestPolicy.Theorems

namespace OpenvpnServer.Firewall

open OpenvpnServer.Lib OpenvpnServer.Lib.Ipaddress OpenvpnServer.Lib.Netip OpenvpnServer.Network

variable {ip : BitVec 32} {routes : List (Network 32)}
open OpenvpnServer.Relay

section Chain

variable {packet : Packet}

theorem firstMatch_append {first : List Rule} (rest : List Rule)
    (h : ∀ rule ∈ first, rule.matches packet = false) :
    firstMatch (first ++ rest) packet = firstMatch rest packet := by
  have hnone : first.find? (·.matches packet) = none := by
    simpa [List.find?_eq_none] using h
  rw [firstMatch, List.find?_append, hnone, Option.none_or, firstMatch]

theorem matches_dropTo (dst : Destination) : (dropTo dst).matches packet = dst.matches packet.dst := by
  simp [dropTo, Rule.matches]

theorem firstMatch_drops (nets : List Destination) :
    firstMatch (nets.map dropTo) packet = some .drop ↔
      ∃ net ∈ nets, net.matches packet.dst = true := by
  induction nets with
  | nil => simp [firstMatch]
  | cons net rest ih =>
      by_cases hnet : net.matches packet.dst = true
      · have hrule : (dropTo net).matches packet = true := by rw [matches_dropTo, hnet]
        have hfirst : firstMatch ((net :: rest).map dropTo) packet = some .drop := by
          rw [List.map_cons, firstMatch, List.find?_cons, hrule]
          rfl
        rw [hfirst]
        exact ⟨fun _ => ⟨net, List.mem_cons_self, hnet⟩, fun _ => rfl⟩
      · rw [Bool.not_eq_true] at hnet
        have hfirst : ∀ rule ∈ [dropTo net], rule.matches packet = false := by
          simp [matches_dropTo, hnet]
        rw [List.map_cons, ← List.singleton_append, firstMatch_append _ hfirst, ih]
        simp [hnet]

theorem not_matches_dnsRules (h : ¬(packet.port = 53 ∧ packet.dst = ip)) :
    ∀ rule ∈ dnsRules ⟨ip, prefixMask 32⟩, rule.matches packet = false := by
  intro rule hrule
  rw [Bool.eq_false_iff]
  intro hmatches
  have hboth : rule.dst = some ⟨ip, prefixMask 32⟩ ∧ rule.port = some 53 := by
    simp only [dnsRules, List.mem_cons, List.not_mem_nil, or_false] at hrule
    rcases hrule with rfl | rfl <;> exact ⟨rfl, rfl⟩
  simp only [Rule.matches, hboth.1, hboth.2, Option.all_some, Bool.and_eq_true,
    decide_eq_true_eq] at hmatches
  have hsame := (matches_prefixMask (le_refl 32)).mp hmatches.1.1
  rw [Nat.sub_self, pow_zero, Nat.div_one, Nat.div_one] at hsame
  exact h ⟨hmatches.2.symm, BitVec.eq_of_toNat_eq hsame⟩

theorem not_matches_pingRule (h : packet.protocol ≠ .icmp) : pingRule.matches packet = false := by
  simp [pingRule, Rule.matches, Ne.symm h]

end Chain

section Blocked

def blockDestinations : List Destination :=
  [⟨0x0a000000, prefixMask 8⟩, ⟨0xac100000, prefixMask 12⟩, ⟨0xc0a80000, prefixMask 16⟩,
    ⟨0x64400000, prefixMask 10⟩, ⟨0xa9fe0000, prefixMask 16⟩]

theorem mapM_guestBlock : guestBlock.mapM parseDestination = some blockDestinations := by
  decide

theorem matches_blockDestinations (ip : BitVec 32) :
    (∃ net ∈ blockDestinations, net.matches ip = true) ↔
      (Addr.v4 ip).isPrivate = true ∨ (Addr.v4 ip).isLinkLocalUnicast = true ∨
        sharedSpace.contains (.v4 ip) = true := by
  obtain ⟨-, -, -, hlinkLocal, hprivate⟩ := classes_v4 ip
  have hshared : sharedSpace.contains (.v4 ip) = true ↔ 0x64400000 / 2 ^ 22 = ip.toNat / 2 ^ 22 := by
    rw [contains_iff]
    simp [sharedSpace, Addr.zone, Addr.bitLen, Addr.toNat]
  have hten := @matches_prefixMask 0x0a000000 ip 8 (by decide)
  have htwelve := @matches_prefixMask 0xac100000 ip 12 (by decide)
  have hsixteen := @matches_prefixMask 0xc0a80000 ip 16 (by decide)
  have hcarrier := @matches_prefixMask 0x64400000 ip 10 (by decide)
  have hlocal := @matches_prefixMask 0xa9fe0000 ip 16 (by decide)
  simp only [blockDestinations, List.mem_cons, List.not_mem_nil, or_false, exists_eq_or_imp,
    exists_eq_left, hten, htwelve, hsixteen, hcarrier, hlocal, hlinkLocal, hprivate, hshared]
  simp only [BitVec.reduceToNat, Nat.reduceSub]
  omega

theorem allows_guest_iff {c : CompiledPolicy}
    (hguest : c.policy.guest = true)
    (hallowed : c.allowedPrefixes = [net4 0 0 (by decide), net6 0 0 (by decide)])
    (hblocked : c.blockedPrefixes = routes.map fun route => (IpNetwork.v4 route).toPrefix)
    (interfaceAddrs : List Text) (hloopback : ip.toNat / 2 ^ 24 ≠ 127)
    (hunspecified : ip.toNat ≠ 0) (hmulticast : ip.toNat / 2 ^ 28 ≠ 14) :
    c.allows interfaceAddrs (.v4 ip) = false ↔
      (∃ net ∈ blockDestinations, net.matches ip = true) ∨
        (hostNetworks interfaceAddrs).any (·.contains (.v4 ip)) = true ∨
        ∃ route ∈ routes, (IpNetwork.v4 route).toPrefix.contains (.v4 ip) = true := by
  obtain ⟨hl, hu, hm, -, -⟩ := classes_v4 ip
  have hl : (Addr.v4 ip).isLoopback = false := by rw [Bool.eq_false_iff, ne_eq, hl]; exact hloopback
  have hu : (Addr.v4 ip).isUnspecified = false := by
    rw [Bool.eq_false_iff, ne_eq, hu]
    exact hunspecified
  have hm : (Addr.v4 ip).isMulticast = false := by
    rw [Bool.eq_false_iff, ne_eq, hm]
    exact hmulticast
  have hlm : (Addr.v4 ip).isLinkLocalMulticast = false := by
    rw [Bool.eq_false_iff]
    intro hbytes
    have hfirst := (of_decide_eq_true hbytes).1
    simp only [Addr.byte, Addr.toNat, Addr.bitLen] at hfirst
    omega
  have hany : c.allowedPrefixes.any (·.contains (.v4 ip)) = true := by
    have hwhole := (contains_net4 0 0 (by decide) (by decide) (.v4 ip)).mpr ⟨ip, rfl, by omega⟩
    rw [hallowed, List.any_cons, hwhole, Bool.true_or]
  have hlocal : localForGuests interfaceAddrs (.v4 ip) c.blockedPrefixes = true ↔
      (Addr.v4 ip).isPrivate = true ∨ sharedSpace.contains (.v4 ip) = true ∨
        (hostNetworks interfaceAddrs).any (·.contains (.v4 ip)) = true ∨
        ∃ route ∈ routes, (IpNetwork.v4 route).toPrefix.contains (.v4 ip) = true := by
    simp only [localForGuests, guestBlocked, hblocked, List.any_cons, Bool.or_eq_true, or_assoc,
      List.any_map, List.any_eq_true, Function.comp_apply]
  have hrefused : c.allows interfaceAddrs (.v4 ip) = false ↔
      (Addr.v4 ip).isLinkLocalUnicast = true ∨
        localForGuests interfaceAddrs (.v4 ip) c.blockedPrefixes = true := by
    unfold CompiledPolicy.allows
    simp only [Addr.unmap, hl, hu, hm, hlm, hguest, hany, Bool.false_or, Bool.or_false,
      Bool.true_and]
    generalize (Addr.v4 ip).isLinkLocalUnicast = linkLocal
    generalize localForGuests interfaceAddrs (.v4 ip) c.blockedPrefixes = blocked
    cases linkLocal <;> simp
  rw [hrefused, hlocal, matches_blockDestinations, or_assoc, or_assoc, or_left_comm]

end Blocked

section Agreement

-- The routes of scope link and the interface addresses are those of the same networks.
structure Connected (linkRoutes interfaceAddrs : List Text) : Prop where
  parses : ∀ field ∈ linkRoutes, isLinkNet field = true →
    ∃ net, parseDestination field = some net
  same : ∀ ip : BitVec 32, ip.toNat / 2 ^ 24 ≠ 127 →
    ((∃ field ∈ linkRoutes, isLinkNet field = true ∧
        ∃ net, parseDestination field = some net ∧ net.matches ip = true) ↔
      (hostNetworks interfaceAddrs).any (·.contains (.v4 ip)) = true)

structure Compared (data : NetworkSettings) (packet : Packet) : Prop where
  protocol : packet.protocol ≠ .icmp
  loopback : packet.dst.toNat / 2 ^ 24 ≠ 127
  unspecified : packet.dst.toNat ≠ 0
  multicast : packet.dst.toNat / 2 ^ 28 ≠ 14
  broadcast : packet.dst.toNat ≠ 2 ^ 32 - 1
  portal : dotted packet.dst.toNat ≠ (portalAddress data.gateway.portalListener).1
  dns : ¬(packet.port = 53 ∧ dotted packet.dst.toNat ∈ data.dnsServers)

-- A destination in a pushed half of the address space is in another blocked
-- network too.
def HalvesCovered (interfaceAddrs : List Text) (routes : List (Network 32)) (ip : BitVec 32) :
    Prop :=
  ∀ half ∈ routes, half.prefixlen = 1 →
    (IpNetwork.v4 half).toPrefix.contains (.v4 ip) = true →
      (∃ net ∈ blockDestinations, net.matches ip = true) ∨
        (hostNetworks interfaceAddrs).any (·.contains (.v4 ip)) = true ∨
        ∃ other ∈ routes, other.prefixlen ≠ 1 ∧
          (IpNetwork.v4 other).toPrefix.contains (.v4 ip) = true

variable {linkRoutes interfaceAddrs : List Text}

theorem contains_toPrefix (route : Network 32) (ip : BitVec 32) :
    (IpNetwork.v4 route).toPrefix.contains (.v4 ip) = true ↔
      (routeDestination route).matches ip = true := by
  rw [matches_route, contains_iff]
  simp [IpNetwork.toPrefix, Addr.zone, Addr.bitLen, Addr.toNat, eq_comm]

-- The relay blocks every route, the firewall those that are no half of the address space.
theorem halvesCovered_iff
    (hne : ∀ route ∈ routes, route.prefixlen ≠ 0) :
    (((∃ net ∈ blockDestinations, net.matches ip = true) ∨
          (hostNetworks interfaceAddrs).any (·.contains (.v4 ip)) = true ∨
          ∃ route ∈ routes, 1 < route.prefixlen ∧ (routeDestination route).matches ip = true) ↔
        ((∃ net ∈ blockDestinations, net.matches ip = true) ∨
          (hostNetworks interfaceAddrs).any (·.contains (.v4 ip)) = true ∨
          ∃ route ∈ routes, (IpNetwork.v4 route).toPrefix.contains (.v4 ip) = true)) ↔
      HalvesCovered interfaceAddrs routes ip := by
  constructor
  · intro hiff half hhalf _ hcontains
    rcases hiff.mpr (.inr (.inr ⟨half, hhalf, hcontains⟩)) with hfixed | hhost | ⟨other, ho⟩
    · exact .inl hfixed
    · exact .inr (.inl hhost)
    · refine .inr (.inr ⟨other, ho.1, ?_, (contains_toPrefix other ip).mpr ho.2.2⟩)
      have hlong := ho.2.1
      omega
  · intro hcovered
    constructor
    · rintro (hfixed | hhost | ⟨route, hroute, -, hmatches⟩)
      · exact .inl hfixed
      · exact .inr (.inl hhost)
      · exact .inr (.inr ⟨route, hroute, (contains_toPrefix route ip).mpr hmatches⟩)
    · rintro (hfixed | hhost | ⟨route, hroute, hcontains⟩)
      · exact .inl hfixed
      · exact .inr (.inl hhost)
      · have hzero := hne route hroute
        by_cases hhalf : route.prefixlen = 1
        · rcases hcovered route hroute hhalf hcontains with hfixed | hhost | ⟨other, ho⟩
          · exact .inl hfixed
          · exact .inr (.inl hhost)
          · have hpositive := hne other ho.1
            have hother := ho.2.1
            exact .inr (.inr ⟨other, ho.1, by omega, (contains_toPrefix other ip).mp ho.2.2⟩)
        · exact .inr (.inr ⟨route, hroute, by omega, (contains_toPrefix route ip).mp hcontains⟩)

theorem guestRules_spec (hconnected : Connected linkRoutes interfaceAddrs) {conf : Text}
    {dns : List (BitVec 32)}
    (hdns : ∀ text, text ∈ pushedDns conf ↔ ∃ ip ∈ dns, text = dotted ip.toNat)
    (hroutes : pushedRoutes conf =
      (routes.filter fun route => 1 < route.prefixlen).map routeText) :
    ∃ chain, guestRules linkRoutes conf = some chain ∧
      ∀ packet : Packet, packet.protocol ≠ .icmp → packet.dst.toNat / 2 ^ 24 ≠ 127 →
        ¬(packet.port = 53 ∧ packet.dst ∈ dns) →
        (firstMatch chain packet = some .drop ↔
          (∃ net ∈ blockDestinations, net.matches packet.dst = true) ∨
            (hostNetworks interfaceAddrs).any (·.contains (.v4 packet.dst)) = true ∨
            ∃ route ∈ routes, 1 < route.prefixlen ∧
              (routeDestination route).matches packet.dst = true) := by
  have hservers : ∀ text ∈ pushedDns conf, ∃ net, parseDestination text = some net := by
    intro text htext
    obtain ⟨ip, -, rfl⟩ := (hdns text).mp htext
    exact ⟨_, parseDestination_dotted ip⟩
  obtain ⟨servers, hmapServers⟩ := exists_mapM hservers
  have hlinks : ∀ field ∈ sortUnique (linkRoutes.filter isLinkNet),
      ∃ net, parseDestination field = some net := by
    intro field hfield
    rw [mem_sortUnique, List.mem_filter] at hfield
    exact hconnected.parses field hfield.1 hfield.2
  obtain ⟨links, hmapLinks⟩ := exists_mapM hlinks
  have hnets : (guestBlock ++ sortUnique (linkRoutes.filter isLinkNet)).mapM parseDestination =
      some (blockDestinations ++ links) := by
    rw [List.mapM_append, mapM_guestBlock, hmapLinks]
    rfl
  have hparsed : (pushedRoutes conf).filterMap parseDestination =
      (routes.filter fun route => 1 < route.prefixlen).map routeDestination := by
    rw [hroutes, List.filterMap_map, ← List.filterMap_eq_map]
    exact List.filterMap_congr fun route _ => parseDestination_route route
  refine ⟨servers.flatMap dnsRules ++ pingRule :: ((blockDestinations ++ links).map dropTo ++
    ((routes.filter fun route => 1 < route.prefixlen).map routeDestination).map dropTo), ?_, ?_⟩
  · unfold guestRules
    rw [hmapServers, hnets, hparsed]
    rfl
  · intro packet hprotocol hloopback hport
    have haccept : ∀ rule ∈ servers.flatMap dnsRules ++ [pingRule],
        rule.matches packet = false := by
      intro rule hrule
      rcases List.mem_append.mp hrule with hrule | hrule
      · obtain ⟨server, hserver, hrule⟩ := List.mem_flatMap.mp hrule
        obtain ⟨text, htext, hparse⟩ := exists_of_mem_mapM hmapServers hserver
        obtain ⟨ip, hip, rfl⟩ := (hdns text).mp htext
        rw [parseDestination_dotted, Option.some.injEq] at hparse
        subst hparse
        refine not_matches_dnsRules (fun hsame => hport ⟨hsame.1, ?_⟩) rule hrule
        rw [hsame.2]
        exact hip
      · rw [List.mem_singleton.mp hrule]
        exact not_matches_pingRule hprotocol
    rw [← List.singleton_append, ← List.append_assoc, firstMatch_append _ haccept,
      ← List.map_append, firstMatch_drops, ← hconnected.same packet.dst hloopback]
    simp only [List.mem_append, List.mem_map, List.mem_filter, mem_mapM_iff hmapLinks,
      mem_sortUnique, decide_eq_true_eq, or_and_right, exists_or, or_assoc]
    refine or_congr_right (or_congr ?_ ?_)
    · constructor
      · rintro ⟨net, ⟨field, ⟨hfield, hlink⟩, hparse⟩, hnet⟩
        exact ⟨field, hfield, hlink, net, hparse, hnet⟩
      · rintro ⟨field, hfield, hlink, net, hparse, hnet⟩
        exact ⟨net, ⟨field, ⟨hfield, hlink⟩, hparse⟩, hnet⟩
    · constructor
      · rintro ⟨net, ⟨route, ⟨hroute, hlong⟩, rfl⟩, hnet⟩
        exact ⟨route, hroute, hlong, hnet⟩
      · rintro ⟨route, hroute, hlong, hnet⟩
        exact ⟨_, ⟨route, ⟨hroute, hlong⟩, rfl⟩, hnet⟩

variable {laxBool : Json → Option Bool} {sha256 : Text → BitVec 256} {unicodeLower : Char → Char}

theorem guest_rules_agree_with_relay {host : Host} (hsplit : SplitsHost host.python)
    (hlower : ∀ c, hostChar c = true → unicodeLower c = c)
    (hconnected : Connected linkRoutes interfaceAddrs) {body : NetworkSettings}
    {before after : AddressState} (hsaved : saveSettings host body before = .ok after)
    (hkeeps : keepsJson body) {s : PolicyState} (hfile : s.networkFile = after.settings)
    {authorization : Text} {strictState : Bool} {answer : PolicyAnswer}
    (hanswer : authorize host.python laxBool sha256 s authorization strictState =
      .ok (some answer))
    (hguest : answer.guest = true) :
    ∃ data routes chain c,
      validate host.python ((staticIps before.staticclients).map Prod.snd) body = .ok data ∧
      data.routes = routes.map (fun route => (IpNetwork.v4 route).str) ∧
      guestRules linkRoutes after.serverConf = some chain ∧
      (Policy.ofJson answer.toJson).bind (Policy.compile unicodeLower) = some c ∧
      ∀ packet, Compared data packet →
        ((firstMatch chain packet = some .drop ↔
            c.allows interfaceAddrs (.v4 packet.dst) = false) ↔
          HalvesCovered interfaceAddrs routes packet.dst) := by
  obtain ⟨data, hvalidate, hwrite⟩ := validate_of_saveSettings hsaved
  obtain ⟨a, dns, routes, haddressed⟩ := addressed_of_validate hvalidate
  obtain ⟨kept, hkept, rfl⟩ := haddressed.writeSettings_spec hwrite
  have hfields :=
    guestAnswer_of_saved hsplit hvalidate hkeeps hfile (answered_of_authorize hanswer) hguest
  obtain ⟨c, hcompile, hmeans⟩ := compile_for hlower
    (gatewayChecked_of_validate hvalidate).listener hguest hfields.portal haddressed.pushed
  obtain ⟨chain, hchain, hdrops⟩ :=
    guestRules_spec hconnected (fun _ => mem_pushedDns hkept) (pushedRoutes_saved hkept)
  refine ⟨data, routes, chain, c, hvalidate, haddressed.pushed, hchain, ?_, ?_⟩
  · rw [Policy.ofJson_toJson hfields.blocked, Option.bind_some, hcompile]
  · intro packet hcompared
    have hdns : ¬(packet.port = 53 ∧ packet.dst ∈ dns) := by
      rintro ⟨hport, hmem⟩
      refine hcompared.dns ⟨hport, ?_⟩
      rw [haddressed.dnsServers]
      exact List.mem_map_of_mem hmem
    have hblocked : c.blockedPrefixes = routes.map fun route => (IpNetwork.v4 route).toPrefix := by
      obtain ⟨same, hsame, hprefixes⟩ := hmeans.blocked
      rw [haddressed.pushed] at hsame
      rw [hprefixes, str_v4_injective.list_map hsame]
    have hallows := allows_guest_iff hmeans.guest hmeans.allowed hblocked interfaceAddrs
      hcompared.loopback hcompared.unspecified hcompared.multicast
    rw [hdrops packet hcompared.protocol hcompared.loopback hdns, hallows]
    exact halvesCovered_iff haddressed.pushed_ne

end Agreement

section Samples

def sampleLinks : List Text := ["default".toList, "198.51.100.0/24".toList]

def sampleAddrs : List Text := ["127.0.0.1/8".toList, "198.51.100.2/24".toList]

theorem connected_sample : Connected sampleLinks sampleAddrs := by
  have hlinks : sampleLinks.filter isLinkNet = ["198.51.100.0/24".toList] := by decide
  have hparse : parseDestination "198.51.100.0/24".toList = some ⟨0xc6336400, prefixMask 24⟩ := by
    decide
  have hhosts : hostNetworks sampleAddrs =
      [net4 0x7f000000 8 (by decide), net4 0xc6336400 24 (by decide)] := by decide
  have hmem : ∀ field, field ∈ sampleLinks ∧ isLinkNet field = true ↔
      field = "198.51.100.0/24".toList := by
    intro field
    rw [← List.mem_filter, hlinks, List.mem_singleton]
  refine ⟨fun field hfield hlink => ?_, fun ip hloopback => ?_⟩
  · rw [(hmem field).mp ⟨hfield, hlink⟩]
    exact ⟨_, hparse⟩
  · have hmatches := @matches_prefixMask 0xc6336400 ip 24 (by decide)
    have hlo := contains_net4 0x7f000000 8 (by decide) (by decide) (.v4 ip)
    have hnet := contains_net4 0xc6336400 24 (by decide) (by decide) (.v4 ip)
    simp only [Addr.v4.injEq, exists_eq_left'] at hlo hnet
    simp only [← and_assoc, hmem, exists_eq_left, hparse, Option.some.injEq, exists_eq_left', hhosts,
      List.any_cons, List.any_nil, Bool.or_false, Bool.or_eq_true, hlo, hnet, hmatches]
    simp only [BitVec.reduceToNat]
    omega

def bobAnswer (after : AddressState) : Except StateError (Option PolicyAnswer) :=
  authorize urlPython (fun _ => none) (fun _ => 0) (bobState after.settings) bobToken true

def answerAllows (result : Except StateError (Option PolicyAnswer)) (ip : BitVec 32) :
    Option (Bool × Bool) :=
  match result with
  | .ok (some answer) =>
      ((Policy.ofJson answer.toJson).bind (Policy.compile Char.toLower)).map fun c =>
        (answer.guest, c.allows sampleAddrs (.v4 ip))
  | _ => none

theorem exists_of_answerAllows {result : Except StateError (Option PolicyAnswer)}
    {facts : Bool × Bool} (h : answerAllows result ip = some facts) :
    ∃ answer c, result = .ok (some answer) ∧ answer.guest = facts.1 ∧
      (Policy.ofJson answer.toJson).bind (Policy.compile Char.toLower) = some c ∧
      c.allows sampleAddrs (.v4 ip) = facts.2 := by
  unfold answerAllows at h
  split at h
  · obtain ⟨c, hc, rfl⟩ := Option.map_eq_some_iff.mp h
    exact ⟨_, c, rfl, rfl, hc, rfl⟩
  · cases h

def routedSettings (route : Text) : NetworkSettings :=
  { wikiSettings [loopback] with routes := [route] }

def samplePacket : Packet := ⟨0xcb007109, .tcp, 443⟩

theorem compared_sample {data : NetworkSettings}
    (h : (data.dnsServers, data.gateway.portalListener) =
      (["10.8.0.1".toList], "192.0.2.10:9443".toList)) : Compared data samplePacket := by
  rw [Prod.mk.injEq] at h
  refine ⟨by decide, by decide, by decide, by decide, by decide, ?_, ?_⟩
  · rw [h.2]
    decide
  · rw [h.1]
    decide

def routedFacts (route : Text) : Option (Option (Bool × Bool) × Option (Option Target)) :=
  (saveSettings wikiHost (routedSettings route) officeState).toOption.map fun after =>
    (answerAllows (bobAnswer after) samplePacket.dst,
      (guestRules sampleLinks after.serverConf).map (firstMatch · samplePacket))

theorem sample_guest_rules_agree :
    ∃ after answer data chain c,
      saveSettings wikiHost (routedSettings "203.0.113.0/24".toList) officeState = .ok after ∧
      bobAnswer after = .ok (some answer) ∧
      validate urlPython [] (routedSettings "203.0.113.0/24".toList) = .ok data ∧
      Compared data samplePacket ∧ guestRules sampleLinks after.serverConf = some chain ∧
      (Policy.ofJson answer.toJson).bind (Policy.compile Char.toLower) = some c ∧
      (firstMatch chain samplePacket = some .drop ↔
        c.allows sampleAddrs (.v4 samplePacket.dst) = false) := by
  have hread : routedFacts "203.0.113.0/24".toList =
      some (some (true, false), some (some .drop)) := by decide +kernel
  have hvalid : ((validate urlPython [] (routedSettings "203.0.113.0/24".toList)).toOption.map
      fun data => (data.dnsServers, data.gateway.portalListener, data.routes)) =
      some (["10.8.0.1".toList], "192.0.2.10:9443".toList, ["203.0.113.0/24".toList]) := by
    decide +kernel
  have hkeeps : keepsJson (routedSettings "203.0.113.0/24".toList) := by decide +kernel
  obtain ⟨after, hafter, hfacts⟩ := Option.map_eq_some_iff.mp hread
  have hsaved := ok_of_toOption hafter
  rw [Prod.mk.injEq] at hfacts
  obtain ⟨answer, -, hanswer, hguest, -, -⟩ := exists_of_answerAllows hfacts.1
  obtain ⟨data, routes, chain, c, hdata, hroutes, hchain, hcompile, hagree⟩ :=
    guest_rules_agree_with_relay splitsHost_urlPython (fun _ => toLower_of_hostChar)
      connected_sample hsaved hkeeps rfl hanswer hguest
  have hdata : validate urlPython [] (routedSettings "203.0.113.0/24".toList) = .ok data := hdata
  rw [hdata] at hvalid
  simp only [Except.toOption, Option.map_some, Option.some.injEq, Prod.mk.injEq] at hvalid
  have hcompared : Compared data samplePacket :=
    compared_sample (by rw [hvalid.1, hvalid.2.1])
  have hcovered : HalvesCovered sampleAddrs routes samplePacket.dst := by
    intro half hhalf hone _
    rw [hvalid.2.2] at hroutes
    have hstr : (IpNetwork.v4 half).str = "203.0.113.0/24".toList :=
      List.mem_singleton.mp (hroutes ▸ List.mem_map_of_mem hhalf)
    rw [IpNetwork.str, hone] at hstr
    have hlast := congrArg List.getLast? hstr
    rw [List.getLast?_append_of_ne_nil _ (by simp)] at hlast
    exact absurd hlast (by decide)
  exact ⟨after, answer, data, chain, c, hsaved, hanswer, hdata, hcompared, hchain, hcompile,
    (hagree samplePacket hcompared).mpr hcovered⟩

theorem half_route_blocked_by_relay_only :
    ∃ after answer data chain c,
      saveSettings wikiHost (routedSettings "128.0.0.0/1".toList) officeState = .ok after ∧
      bobAnswer after = .ok (some answer) ∧ answer.guest = true ∧
      validate urlPython [] (routedSettings "128.0.0.0/1".toList) = .ok data ∧
      Compared data samplePacket ∧ Connected sampleLinks sampleAddrs ∧
      guestRules sampleLinks after.serverConf = some chain ∧
      (Policy.ofJson answer.toJson).bind (Policy.compile Char.toLower) = some c ∧
      firstMatch chain samplePacket = none ∧
      c.allows sampleAddrs (.v4 samplePacket.dst) = false := by
  have hread : routedFacts "128.0.0.0/1".toList = some (some (true, false), some none) := by
    decide +kernel
  have hvalid : ((validate urlPython [] (routedSettings "128.0.0.0/1".toList)).toOption.map
      fun data => (data.dnsServers, data.gateway.portalListener)) =
      some (["10.8.0.1".toList], "192.0.2.10:9443".toList) := by
    decide +kernel
  obtain ⟨after, hafter, hfacts⟩ := Option.map_eq_some_iff.mp hread
  rw [Prod.mk.injEq] at hfacts
  obtain ⟨answer, c, hanswer, hguest, hcompile, hallows⟩ := exists_of_answerAllows hfacts.1
  obtain ⟨chain, hchain, hmatch⟩ := Option.map_eq_some_iff.mp hfacts.2
  obtain ⟨data, hdata, hsaved⟩ := Option.map_eq_some_iff.mp hvalid
  exact ⟨after, answer, data, chain, c, ok_of_toOption hafter, hanswer, hguest,
    ok_of_toOption hdata, compared_sample hsaved, connected_sample, hchain, hcompile, hmatch,
    hallows⟩

end Samples

end OpenvpnServer.Firewall
