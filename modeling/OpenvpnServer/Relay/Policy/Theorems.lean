import OpenvpnServer.Lib.Netip.Lemmas
import OpenvpnServer.Relay.Flow

namespace OpenvpnServer.Relay

open OpenvpnServer.Lib OpenvpnServer.Lib.Netip

-- What counts as local for a guest, in terms of networks alone: the
-- special-purpose ones, shared address space, the relay host's own networks and
-- the blocked ones of the policy.
def LocalToGuests (interfaceAddrs blockedCIDRs : List Text) (a : Addr) : Prop :=
  ∃ n : Prefix, n.contains a.unmap = true ∧
    (n ∈ specialNetworks ∨ n = sharedSpace ∨
      ∃ text ∈ interfaceAddrs ++ blockedCIDRs, parsePrefix text = some n)

theorem mem_parsePrefixes (values : List Text) (prefixes : List Prefix)
    (h : parsePrefixes values = some prefixes) (text : Text) (ht : text ∈ values) (n : Prefix)
    (hn : parsePrefix text = some n) : n.masked ∈ prefixes := by
  induction values generalizing prefixes with
  | nil => cases ht
  | cons value rest ih =>
      simp only [parsePrefixes, List.mapM_cons, Option.bind_eq_bind, Option.bind_eq_some_iff,
        Option.pure_def, Option.some.injEq] at h
      obtain ⟨first, hfirst, others, hothers, rfl⟩ := h
      rcases List.mem_cons.mp ht with rfl | ht
      · rw [hn, Option.map_some, Option.some.injEq] at hfirst
        exact hfirst ▸ List.mem_cons_self
      · exact List.mem_cons_of_mem _ (ih others hothers ht)

theorem compile_spec (unicodeLower : Char → Char) (p : Policy) (c : CompiledPolicy)
    (h : p.compile unicodeLower = some c) :
    c.policy = p ∧ compilePortal unicodeLower p = some c.guestPortal ∧
      parsePrefixes p.cidrs = some c.allowedPrefixes ∧
      parsePrefixes p.blockedCIDRs = some c.blockedPrefixes := by
  simp only [Policy.compile, Option.bind_eq_bind, Option.bind_eq_some_iff, Option.pure_def,
    Option.some.injEq] at h
  obtain ⟨portal, hportal, allowed, hallowed, blocked, hblocked, rfl⟩ := h
  exact ⟨rfl, hportal, hallowed, hblocked⟩

theorem allows_spec (interfaceAddrs : List Text) (c : CompiledPolicy) (a : Addr)
    (h : c.allows interfaceAddrs a = true) :
    (∃ n ∈ c.allowedPrefixes, n.contains a.unmap = true) ∧
      (a.unmap.isLoopback = false ∧ a.unmap.isUnspecified = false ∧
        a.unmap.isMulticast = false ∧ a.unmap.isLinkLocalUnicast = false) ∧
      (c.policy.guest = true →
        localForGuests interfaceAddrs a.unmap c.blockedPrefixes = false) := by
  simp only [CompiledPolicy.allows] at h
  split at h
  · cases h
  · rename_i hclass
    split at h
    · cases h
    · rename_i hlocal
      simp only [Bool.or_eq_true, not_or, Bool.not_eq_true] at hclass
      refine ⟨?_, ⟨hclass.1.1.1.1, hclass.1.1.1.2, hclass.1.1.2, hclass.1.2⟩, ?_⟩
      · simpa using h
      · intro hg
        simpa [hg] using hlocal

theorem not_local_of_allows (unicodeLower : Char → Char) (interfaceAddrs : List Text)
    (p : Policy) (c : CompiledPolicy) (hc : p.compile unicodeLower = some c)
    (hguest : p.guest = true) (a : Addr) (h : c.allows interfaceAddrs a = true) :
    ¬LocalToGuests interfaceAddrs p.blockedCIDRs a := by
  obtain ⟨hpolicy, _, _, hblocked⟩ := compile_spec unicodeLower p c hc
  obtain ⟨_, ⟨hl, hz, hm, hk⟩, hg⟩ := allows_spec interfaceAddrs c a h
  have hlocal := hg (by rw [hpolicy]; exact hguest)
  simp only [localForGuests, Bool.or_eq_false_iff, List.any_eq_false, Bool.not_eq_true] at hlocal
  obtain ⟨⟨hpriv, hhost⟩, hextra⟩ := hlocal
  rintro ⟨n, hn, hs | rfl | ⟨text, htext, hparse⟩⟩
  · have := classified_of_special a n hs hn
    simp [hl, hz, hm, hk, hpriv] at this
  · have := hhost sharedSpace (by simp [guestBlocked])
    rw [hn] at this
    cases this
  · -- both lists hold the networks with their host bits cleared
    have hmasked : n.masked.contains a.unmap = true := by rw [contains_masked, hn]
    rcases List.mem_append.mp htext with htext | htext
    · have hmem : n.masked ∈ guestBlocked interfaceAddrs :=
        List.mem_cons_of_mem _ (List.mem_map_of_mem (List.mem_filterMap.mpr ⟨text, htext, hparse⟩))
      rw [hhost _ hmem] at hmasked
      cases hmasked
    · have hmem := mem_parsePrefixes p.blockedCIDRs _ hblocked text htext n hparse
      rw [hextra _ hmem] at hmasked
      cases hmasked

theorem dialLoop_connected (addresses : List AddrPort) (turns : Nat) (last : DialError)
    (received : List (Received addresses)) (a : AddrPort)
    (h : dialLoop addresses turns last received = some (.connected a)) : a ∈ addresses := by
  induction turns generalizing last received with
  | zero => simp [dialLoop] at h
  | succ turns ih =>
      rcases received with _ | ⟨_ | ⟨i, _ | err⟩, rest⟩
      · simp [dialLoop] at h
      · simp [dialLoop] at h
      · simp only [dialLoop, Option.some.injEq, Dialed.connected.injEq] at h
        exact h ▸ List.get_mem addresses i
      · exact ih err rest h

theorem connectTCP_connected (addresses : List AddrPort) (first second : List (Received addresses))
    (endedAfterFirst endedInPause : Bool) (a : AddrPort)
    (h : connectTCP addresses first endedAfterFirst endedInPause second = some (.connected a)) :
    a ∈ addresses := by
  unfold connectTCP at h
  cases hf : dialTCP addresses first with
  | none => simp [hf] at h
  | some outcome =>
      cases outcome with
      | connected addr =>
          simp only [hf, Option.some.injEq, Dialed.connected.injEq] at h
          exact dialLoop_connected addresses _ _ first a (h ▸ hf)
      | failed err =>
          simp only [hf] at h
          split at h
          · cases h
          split at h
          · cases h
          split at h
          · cases h
          · exact dialLoop_connected addresses _ _ second a h

theorem dialedAddr_mem (addresses : List AddrPort) (run : DialRun addresses) (a : AddrPort)
    (h : dialedAddr addresses run = some a) : a ∈ addresses := by
  cases run with
  | tcp first endedAfterFirst endedInPause second =>
      simp only [dialedAddr] at h
      split at h
      · rename_i addr hc
        rw [Option.some.injEq] at h
        exact connectTCP_connected addresses first second _ _ a (h ▸ hc)
      · cases h
  | udp opens => exact List.mem_of_find?_eq_some h

-- The addresses the relay may dial for a destination: those resolved, and the
-- one any run of the dial connects to.
def MayDial (addresses : List AddrPort) (a : AddrPort) : Prop :=
  a ∈ addresses ∨ (∃ received, dialTCP addresses received = some (.connected a)) ∨
    ∃ run : DialRun addresses, dialedAddr addresses run = some a

theorem mayDial_mem (addresses : List AddrPort) (a : AddrPort) (h : MayDial addresses a) :
    a ∈ addresses := by
  rcases h with h | ⟨received, h⟩ | ⟨run, h⟩
  · exact h
  · exact dialLoop_connected addresses _ _ received a h
  · exact dialedAddr_mem addresses run a h

theorem resolveAll_spec (interfaceAddrs : List Text) (target : Text) (c : CompiledPolicy)
    (lookup : Option (List Addr)) (addresses : List AddrPort)
    (h : resolveAll interfaceAddrs target c lookup = .ok addresses) (a : AddrPort)
    (ha : a ∈ addresses) :
    (∃ host portText, splitHostPort target = some (host, portText) ∧
      atoi portText = some (a.port : Int)) ∧
      ∃ addr, a.addr = addr.unmap ∧ c.allows interfaceAddrs addr = true := by
  simp only [resolveAll] at h
  split at h
  · cases h
  rename_i host portText hsplit
  split at h
  · cases h
  rename_i port hport
  split at h
  · cases h
  rename_i hrange
  split at h
  · cases h
  rename_i addrs
  split at h
  · cases h
  rw [Except.ok.injEq] at h
  subst h
  obtain ⟨addr, haddr, rfl⟩ := List.mem_map.mp ha
  have hmem := List.mem_filter.mp (List.mem_of_mem_take haddr)
  refine ⟨⟨host, portText, hsplit, ?_⟩, addr, rfl, hmem.2⟩
  rw [hport, Int.toNat_of_nonneg (by omega)]

theorem pinnedTarget_spec (unicodeLower : Char → Char) (c : CompiledPolicy) (tcp : Bool)
    (host portText : Text) (a : AddrPort)
    (h : pinnedTarget unicodeLower c tcp host portText = some a) :
    c.policy.guest = true ∧ tcp = true ∧ portText = "443".toList ∧
      ∃ portal, c.guestPortal = some portal ∧ normalHost unicodeLower host ∈ portal.hosts ∧
        a = portal.target := by
  simp only [pinnedTarget] at h
  split at h
  · rename_i portal hg hp
    split at h
    · rename_i hcond
      rw [Option.some.injEq] at h
      exact ⟨hg, hcond.1, hcond.2.1, portal, hp, hcond.2.2, h.symm⟩
    · cases h
  · cases h

-- Both ways `resolveDestination` can answer: pinned to the portal target alone,
-- or by resolving under the policy.
theorem resolveDestination_cases (interfaceAddrs : List Text) (unicodeLower : Char → Char)
    (target : Text) (c : CompiledPolicy) (tcp : Bool) (lookup : Option (List Addr))
    (pinned : Option AddrPort) (addresses : List AddrPort)
    (h : resolveDestination interfaceAddrs unicodeLower target c tcp lookup =
      .ok (pinned, addresses)) :
    ∃ host portText, splitHostPort target = some (host, portText) ∧
      ((∃ a, pinnedTarget unicodeLower c tcp host portText = some a ∧ pinned = some a ∧
          addresses = [a]) ∨
        (pinnedTarget unicodeLower c tcp host portText = none ∧ pinned = none ∧
          resolveAll interfaceAddrs target c lookup = .ok addresses)) := by
  simp only [resolveDestination] at h
  split at h
  · cases h
  rename_i host portText hsplit
  refine ⟨host, portText, hsplit, ?_⟩
  split at h
  · rename_i a ha
    simp only [Except.ok.injEq, Prod.mk.injEq] at h
    exact .inl ⟨a, ha, h.1.symm, h.2.symm⟩
  · rename_i hnone
    cases hr : resolveAll interfaceAddrs target c lookup with
    | error err => simp [hr, Except.map] at h
    | ok resolved =>
        simp only [hr, Except.map, Except.ok.injEq, Prod.mk.injEq] at h
        exact .inr ⟨hnone, h.1.symm, by rw [h.2]⟩

-- A guest never reaches anything local. Every address the relay may dial for a
-- guest is either the portal target of a pinned flow, and then the only one, or
-- has the requested port, no zone and nothing local about it.
theorem guest_reaches_nothing_local (unicodeLower : Char → Char) (interfaceAddrs : List Text)
    (p : Policy) (c : CompiledPolicy) (hc : p.compile unicodeLower = some c)
    (hguest : p.guest = true) (target : Text) (tcp : Bool) (lookup : Option (List Addr))
    (pinned : Option AddrPort) (addresses : List AddrPort)
    (h : resolveDestination interfaceAddrs unicodeLower target c tcp lookup =
      .ok (pinned, addresses))
    (a : AddrPort) (ha : MayDial addresses a) :
    ∃ host portText, splitHostPort target = some (host, portText) ∧
      ((tcp = true ∧ portText = "443".toList ∧ addresses = [a] ∧
          ∃ portal, c.guestPortal = some portal ∧ normalHost unicodeLower host ∈ portal.hosts ∧
            a = portal.target) ∨
        (atoi portText = some (a.port : Int) ∧ a.addr.zone = [] ∧
          ¬LocalToGuests interfaceAddrs p.blockedCIDRs a.addr)) := by
  have hmem := mayDial_mem addresses a ha
  obtain ⟨host, portText, hsplit, hcase⟩ := resolveDestination_cases interfaceAddrs unicodeLower
    target c tcp lookup pinned addresses h
  refine ⟨host, portText, hsplit, ?_⟩
  rcases hcase with ⟨b, hpin, _, rfl⟩ | ⟨_, _, hall⟩
  · obtain rfl := List.mem_singleton.mp hmem
    obtain ⟨_, htcp, hport, hportal⟩ := pinnedTarget_spec unicodeLower c tcp host portText a hpin
    exact .inl ⟨htcp, hport, rfl, hportal⟩
  · obtain ⟨⟨host', portText', hsplit', hport⟩, addr, haddr, hallow⟩ :=
      resolveAll_spec interfaceAddrs target c lookup addresses hall a hmem
    rw [hsplit, Option.some.injEq, Prod.mk.injEq] at hsplit'
    obtain ⟨rfl, rfl⟩ := hsplit'
    obtain ⟨⟨n, _, hn⟩, _, _⟩ := allows_spec interfaceAddrs c addr hallow
    refine .inr ⟨hport, ?_, ?_⟩
    · rw [haddr]
      exact ((contains_iff n _).mp hn).1
    · have hlocal := not_local_of_allows unicodeLower interfaceAddrs p c hc hguest addr hallow
      rintro ⟨m, hm, hcause⟩
      rw [haddr, unmap_unmap] at hm
      exact hlocal ⟨m, hm, hcause⟩

-- A guest on a relay host in 192.168.1.0/24, with the portal pinned to the
-- gateway at 192.168.1.2 and one route blocked.
def sampleGuest : Policy :=
  { credentialID := "c1".toList, client := "guest".toList
    cidrs := ["0.0.0.0/0".toList, "::/0".toList], blockedCIDRs := ["198.51.100.0/24".toList]
    url := "https://relay.example.com".toList, guest := true
    portal := some
      { host := "openvpn.example.com".toList, target := "192.168.1.2:9443".toList
        hosts := ["docs.example.com".toList] } }

def sampleInterfaces : List Text := ["127.0.0.1/8".toList, "192.168.1.10/24".toList]

def samplePortal : GuestPortal :=
  ⟨["openvpn.example.com".toList, "docs.example.com".toList], ⟨.v4 0xc0a80102, 9443⟩⟩

def sampleCompiled : CompiledPolicy :=
  ⟨sampleGuest, some samplePortal, [net4 0 0 (by decide), net6 0 0 (by decide)],
    [net4 0xc6336400 24 (Nat.le_add_left 24 8)]⟩

theorem sampleGuest_compiles : sampleGuest.compile Char.toLower = some sampleCompiled := by
  decide

-- DNS answers with a LAN address, a blocked one and a mapped, zoned public one;
-- only the last is dialled, unmapped.
theorem guest_reaches_only_the_public_answer :
    ∃ host portText, splitHostPort "example.org:0443".toList = some (host, portText) ∧
      ((true = true ∧ portText = "443".toList ∧
          ([⟨.v4 0x08080808, 443⟩] : List AddrPort) = [⟨.v4 0x08080808, 443⟩] ∧
          ∃ portal, sampleCompiled.guestPortal = some portal ∧
            normalHost Char.toLower host ∈ portal.hosts ∧
            (⟨.v4 0x08080808, 443⟩ : AddrPort) = portal.target) ∨
        (atoi portText = some ((443 : Nat) : Int) ∧ (Addr.v4 0x08080808).zone = [] ∧
          ¬LocalToGuests sampleInterfaces sampleGuest.blockedCIDRs (Addr.v4 0x08080808))) :=
  guest_reaches_nothing_local Char.toLower sampleInterfaces sampleGuest sampleCompiled
    sampleGuest_compiles rfl "example.org:0443".toList true
    (some [.v4 0xc0a80101, .v4 0xc6336407, .v6 0xffff08080808 "eth0".toList]) none
    [⟨.v4 0x08080808, 443⟩] (by decide) ⟨.v4 0x08080808, 443⟩ (.inl (by simp))

end OpenvpnServer.Relay
