import OpenvpnServer.Relay.Policy.Theorems

namespace OpenvpnServer.Relay

open OpenvpnServer.Lib OpenvpnServer.Lib.Netip

section Recheck

variable (interfaceAddrs : List Text) (unicodeLower : Char → Char)

-- Opening the flow's target anew under `p` could be granted its address: in its
-- own right, or as the portal target of a hostname the policy still lists.
def CouldBeGranted (p : CompiledPolicy) (flow : Flow) : Prop :=
  p.policy.url = flow.origin ∧
    (p.allows interfaceAddrs flow.addr = true ∨
      ∃ host portText portal, splitHostPort flow.target = some (host, portText) ∧
        p.policy.guest = true ∧ p.guestPortal = some portal ∧
        normalHost unicodeLower host ∈ portal.hosts ∧ flow.tcp = true ∧
        portText = "443".toList ∧ flow.addr = portal.target.addr)

-- When the recheck decides as an admission would: the hostname of a flow pinned
-- to the portal target of `p` is still one of its portal hosts, unless the URL
-- changed or the address is allowed in its own right.
def PortalHostKept (p : CompiledPolicy) (flow : Flow) : Prop :=
  p.policy.url ≠ flow.origin ∨ p.allows interfaceAddrs flow.addr = true ∨
    ∀ portal host portText, p.guestPortal = some portal → flow.pinned = some portal.target →
      splitHostPort flow.target = some (host, portText) →
      normalHost unicodeLower host ∈ portal.hosts

variable {interfaceAddrs unicodeLower}

theorem Admitted.pinned_spec {p : CompiledPolicy} {flow : Flow} {target : AddrPort}
    (h : Admitted interfaceAddrs unicodeLower p flow) (hp : flow.pinned = some target) :
    flow.tcp = true ∧ flow.addr = target.addr ∧
      ∃ host, splitHostPort flow.target = some (host, "443".toList) := by
  obtain ⟨lookup, addresses, dialed, hresolve, ⟨run, _, hrun⟩, haddr, _⟩ := h
  obtain ⟨host, portText, hsplit, hcase⟩ := resolveDestination_cases interfaceAddrs unicodeLower
    flow.target p flow.tcp lookup flow.pinned addresses hresolve
  rcases hcase with ⟨a, hpin, hpa, rfl⟩ | ⟨_, hnone, _⟩
  · obtain ⟨_, htcp, rfl, _⟩ := pinnedTarget_spec unicodeLower p flow.tcp host portText a hpin
    rw [hp, Option.some.injEq] at hpa
    have hd := List.mem_singleton.mp (dialedAddr_mem [a] run dialed hrun)
    exact ⟨htcp, by rw [haddr, hd, hpa], host, hsplit⟩
  · rw [hnone] at hp
    cases hp

theorem compile_portal_guest {q : Policy} {p : CompiledPolicy} {portal : GuestPortal}
    (hc : q.compile unicodeLower = some p) (hp : p.guestPortal = some portal) :
    p.policy.guest = true := by
  obtain ⟨rfl, hportal, _, _⟩ := compile_spec unicodeLower q p hc
  unfold compilePortal at hportal
  split at hportal
  · assumption
  · rw [Option.some.injEq] at hportal
    rw [← hportal] at hp
    cases hp

theorem staysOpen_iff (flow : Flow) (p : CompiledPolicy) :
    staysOpen interfaceAddrs flow (some p) = true ↔
      p.policy.url = flow.origin ∧ (p.allows interfaceAddrs flow.addr = true ∨
        ∃ portal, p.guestPortal = some portal ∧ flow.pinned = some portal.target ∧
          portal.target.addr = flow.addr) := by
  have hportal : portalFlow flow flow.addr p = true ↔
      ∃ portal, p.guestPortal = some portal ∧ flow.pinned = some portal.target ∧
        portal.target.addr = flow.addr := by
    unfold portalFlow
    cases hf : flow.pinned with
    | none => simp
    | some target =>
        cases hp : p.guestPortal with
        | none => simp
        | some portal =>
            simp only [decide_eq_true_eq, Option.some.injEq, exists_eq_left']
            constructor
            · rintro ⟨rfl, h⟩
              exact ⟨rfl, h⟩
            · rintro ⟨rfl, h⟩
              exact ⟨rfl, h⟩
  by_cases hu : p.policy.url = flow.origin
  · simp [staysOpen, hu, hportal]
  · simp [staysOpen, hu]

-- The live recheck against a later policy is no weaker than admission under it
-- exactly when the hostname of a portal flow is kept.
theorem recheck_no_weaker_iff {p p' : CompiledPolicy} {q' : Policy} {flow : Flow}
    (ha : Admitted interfaceAddrs unicodeLower p flow) (hc : q'.compile unicodeLower = some p') :
    (staysOpen interfaceAddrs flow (some p') = true →
      CouldBeGranted interfaceAddrs unicodeLower p' flow) ↔
      PortalHostKept interfaceAddrs unicodeLower p' flow := by
  rw [staysOpen_iff]
  constructor
  · intro h
    by_cases hu : p'.policy.url = flow.origin
    · by_cases hallow : p'.allows interfaceAddrs flow.addr = true
      · exact .inr (.inl hallow)
      · refine .inr (.inr ?_)
        intro portal host portText hportal hpinned hsplit
        have haddr := (ha.pinned_spec hpinned).2.1
        obtain ⟨_, hallow' | hgrant⟩ := h ⟨hu, .inr ⟨portal, hportal, hpinned, haddr.symm⟩⟩
        · exact absurd hallow' hallow
        · obtain ⟨host', portText', portal', hsplit', _, hportal', hmem, _⟩ := hgrant
          rw [hsplit, Option.some.injEq, Prod.mk.injEq] at hsplit'
          rw [hportal, Option.some.injEq] at hportal'
          rw [hsplit'.1, hportal']
          exact hmem
    · exact .inl hu
  · rintro hkept ⟨hu, hopen⟩
    refine ⟨hu, ?_⟩
    rcases hkept with hne | hallow | hkept
    · exact absurd hu hne
    · exact .inl hallow
    · rcases hopen with hallow | ⟨portal, hportal, hpinned, haddr⟩
      · exact .inl hallow
      · obtain ⟨htcp, _, host, hsplit⟩ := ha.pinned_spec hpinned
        exact .inr ⟨host, "443".toList, portal, hsplit, compile_portal_guest hc hportal, hportal,
          hkept portal host _ hportal hpinned hsplit, htcp, rfl, haddr.symm⟩

end Recheck

-- The guest link docs.example.com has been removed from the policy; everything
-- else, the portal target included, is as it was.
def sampleMainPortal : PortalConfig :=
  { host := "openvpn.example.com".toList, target := "192.168.1.2:9443".toList, hosts := [] }

def sampleGuestWithoutLink : Policy :=
  { sampleGuest with portal := some sampleMainPortal }

def sampleCompiledWithoutLink : CompiledPolicy :=
  { sampleCompiled with
    policy := sampleGuestWithoutLink
    guestPortal := some ⟨["openvpn.example.com".toList], ⟨.v4 0xc0a80102, 9443⟩⟩ }

theorem sampleGuestWithoutLink_compiles :
    sampleGuestWithoutLink.compile Char.toLower = some sampleCompiledWithoutLink := by
  decide

def sampleFlow : Flow :=
  { target := "docs.example.com:443".toList, tcp := true
    pinned := some ⟨.v4 0xc0a80102, 9443⟩, addr := .v4 0xc0a80102
    origin := "https://relay.example.com".toList }

theorem sampleFlow_admitted : Admitted sampleInterfaces Char.toLower sampleCompiled sampleFlow := by
  refine ⟨none, [⟨.v4 0xc0a80102, 9443⟩], ⟨.v4 0xc0a80102, 9443⟩, by decide,
    ⟨.tcp [.result 0 none] false false [], ?_, rfl⟩, rfl, rfl⟩
  exact iff_of_true rfl ⟨_, _, _, _, rfl⟩

theorem recheck_keeps_removed_guest_link :
    ¬∀ (p p' : CompiledPolicy) (q' : Policy) (flow : Flow),
      Admitted sampleInterfaces Char.toLower p flow → q'.compile Char.toLower = some p' →
      staysOpen sampleInterfaces flow (some p') = true →
      CouldBeGranted sampleInterfaces Char.toLower p' flow := by
  intro h
  obtain ⟨_, hallow | ⟨host, portText, portal, hsplit, _, hportal, hmem, _⟩⟩ :=
    h sampleCompiled sampleCompiledWithoutLink sampleGuestWithoutLink sampleFlow
      sampleFlow_admitted sampleGuestWithoutLink_compiles (by decide)
  · revert hallow
    decide
  · have hs : splitHostPort sampleFlow.target =
        some ("docs.example.com".toList, "443".toList) := by decide
    rw [hs, Option.some.injEq, Prod.mk.injEq] at hsplit
    obtain ⟨rfl, -⟩ := hsplit
    obtain rfl : ⟨["openvpn.example.com".toList], ⟨.v4 0xc0a80102, 9443⟩⟩ = portal :=
      Option.some.inj hportal
    revert hmem
    decide

theorem recheck_no_weaker_for_kept_link :
    (staysOpen sampleInterfaces sampleFlow (some sampleCompiled) = true →
      CouldBeGranted sampleInterfaces Char.toLower sampleCompiled sampleFlow) ↔
      PortalHostKept sampleInterfaces Char.toLower sampleCompiled sampleFlow :=
  recheck_no_weaker_iff sampleFlow_admitted sampleGuest_compiles

end OpenvpnServer.Relay
