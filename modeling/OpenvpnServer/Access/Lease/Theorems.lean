import Mathlib.Data.List.Nodup
import Mathlib.Data.List.Perm.Subperm
import OpenvpnServer.Access.Lease

namespace OpenvpnServer.Access

open OpenvpnServer.Lib

section Environment

variable (config : Config)

-- What OpenVPN guarantees about a step: connections differ, a pool address is
-- nobody else's and no guest or static address, and a status file newer than
-- the lease of a connected device lists that device.
def OpenvpnKeeps (s : AccessState) : AccessStep → Prop
  | .connect peer found _ =>
      validName peer.commonName = true ∧
      (∀ d ∈ s.connected, (d.peer.transport, d.peer.untrustedIp, d.peer.untrustedPort) ≠
        (peer.transport, peer.untrustedIp, peer.untrustedPort)) ∧
      found.poolAddress ∉ guestRange config ∧
      staticAddress found.staticFile ≠ some found.poolAddress ∧
      ∀ d ∈ s.connected, d.address ≠ some found.poolAddress
  | .reap status =>
      ∀ d ∈ s.connected, ∀ ip ∈ d.address, ∀ lease ∈ s.leases.get? ip,
        lease.mtime < status.mtime → status.lists ip = true
  | _ => True

instance (s : AccessState) (label : AccessStep) : Decidable (OpenvpnKeeps config s label) := by
  cases label <;> unfold OpenvpnKeeps <;> infer_instance

-- A connecting device has a name, address and port no connected one has,
-- whatever its transport, and one the script has no address for is offered one.
def ToldApart (s : AccessState) : AccessStep → Prop
  | .connect peer found _ =>
      (∀ d ∈ s.connected, d.peer.me ≠ peer.me) ∧
      (chooseAddress config s.leases found = some none → isAddress found.poolAddress = true)
  | _ => True

instance (s : AccessState) (label : AccessStep) : Decidable (ToldApart config s label) := by
  cases label <;> unfold ToldApart <;> infer_instance

end Environment

def devicesOf (s : AccessState) (cn : Text) : List Device :=
  s.connected.filter fun d => d.peer.commonName = cn

structure OneAddressEach (config : Config) (s : AccessState) : Prop where
  held : ∀ d ∈ s.connected, ∃ ip lease,
    d.address = some ip ∧ s.leases.get? ip = some lease ∧ lease.line = d.peer.me
  distinct : (s.connected.map Device.address).Nodup
  guests : ∀ d ∈ s.connected, d.guest = true → ∃ i,
    config.guestFirst ≤ i ∧ i ≤ config.guestLast ∧ d.address = some (int2ip i)
  limited : ∀ cn, (devicesOf s cn).length ≤ config.maxDevices

section Connect

variable {config : Config} {leases leases' : Leases} {now : Nat} {peer : Peer} {found : Found}
  {address : Option Text}

theorem mem_guestRange {ip : Text} (h : ip ∈ guestRange config) :
    ∃ i, config.guestFirst ≤ i ∧ i ≤ config.guestLast ∧ ip = int2ip i := by
  obtain ⟨i, hi, rfl⟩ := List.mem_map.mp h
  rw [List.mem_range'_1] at hi
  exact ⟨i, hi.1, by omega, rfl⟩

theorem chooseAddress_spec {ip : Text} (h : chooseAddress config leases found = some (some ip)) :
    leases.get? ip = none ∧ (found.guest = true → ip ∈ guestRange config) := by
  unfold chooseAddress at h
  by_cases hg : found.guest = true
  · rw [if_pos hg, Option.map_eq_some_iff] at h
    obtain ⟨free, hfree, he⟩ := h
    cases he
    have hnone := List.find?_some hfree
    exact ⟨by simpa using hnone, fun _ => List.mem_of_find?_eq_some hfree⟩
  · rw [if_neg hg] at h
    refine ⟨?_, fun hg' => absurd hg' hg⟩
    cases hs : staticAddress found.staticFile with
    | none => simp [hs] at h
    | some fixed =>
        simp only [hs, Option.some.injEq, Option.ite_none_right_eq_some] at h
        exact h.2 ▸ h.1

theorem chooseAddress_not_guest (h : chooseAddress config leases found = some none) :
    found.guest = false := by
  by_contra hg
  rw [Bool.not_eq_false] at hg
  simp [chooseAddress, hg] at h

-- What an accepted connection leaves: one lease, written under its address. Only
-- a pool address may have had a lease before.
theorem clientConnect_spec (hvalid : validName peer.commonName = true)
    (hmax : 0 < config.maxDevices)
    (hpool : chooseAddress config leases found = some none → isAddress found.poolAddress = true)
    (h : clientConnect config leases now peer found = some (address, leases')) :
    devices leases peer.commonName < config.maxDevices ∧ ∃ ip, address = some ip ∧
      leases' = leases.set ip ⟨peer.me, now⟩ ∧
      (leases.get? ip = none ∨ ip = found.poolAddress) ∧
      (found.guest = true → ip ∈ guestRange config) := by
  unfold clientConnect at h
  rw [if_neg (by simp [hvalid])] at h
  by_cases hfull : 0 < config.maxDevices ∧ config.maxDevices ≤ devices leases peer.commonName
  · rw [if_pos hfull] at h
    cases h
  · rw [if_neg hfull] at h
    refine ⟨by omega, ?_⟩
    cases hc : chooseAddress config leases found with
    | none => simp [hc] at h
    | some choice =>
        cases choice with
        | some ip =>
            rw [hc] at h
            cases h
            obtain ⟨hfree, hguest⟩ := chooseAddress_spec hc
            exact ⟨ip, rfl, rfl, .inl hfree, hguest⟩
        | none =>
            have haddr := hpool hc
            have hoffer : poolOffer found = some found.poolAddress := by
              simp only [isAddress, Bool.and_eq_true, Bool.not_eq_true'] at haddr
              simp [poolOffer, haddr.1]
            simp only [hc, haddr, if_true, hoffer, Option.some.injEq, Prod.mk.injEq] at h
            refine ⟨found.poolAddress, h.1.symm, h.2.symm, .inr rfl, ?_⟩
            intro hg
            rw [chooseAddress_not_guest hc] at hg
            cases hg

end Connect

section Count

variable {config : Config} {s : AccessState}

theorem isPrefixOf_me (peer : Peer) : (peer.commonName ++ [' ']).isPrefixOf peer.me = true := by
  rw [List.isPrefixOf_iff_prefix]
  exact ⟨peer.untrustedIp ++ ' ' :: peer.untrustedPort, by simp [Peer.me]⟩

theorem OneAddressEach.devices_le (h : OneAddressEach config s) (cn : Text) :
    (devicesOf s cn).length ≤ devices s.leases cn := by
  let counted := s.leases.entries.filter fun e => (cn ++ [' ']).isPrefixOf e.2.line
  have hsub : (devicesOf s cn).map Device.address ⊆ counted.map fun e => some e.1 := by
    intro a ha
    obtain ⟨d, hd, rfl⟩ := List.mem_map.mp ha
    obtain ⟨hmem, hcn⟩ := List.mem_filter.mp hd
    obtain ⟨ip, lease, haddr, hlease, hline⟩ := h.held d hmem
    refine List.mem_map.mpr ⟨(ip, lease), ?_, haddr.symm⟩
    refine List.mem_filter.mpr ⟨s.leases.get?_eq_some_iff.mp hlease, ?_⟩
    rw [← of_decide_eq_true hcn, hline]
    exact isPrefixOf_me d.peer
  have hnodup : ((devicesOf s cn).map Device.address).Nodup :=
    h.distinct.sublist (List.filter_sublist.map _)
  have hle := (List.subperm_of_subset hnodup hsub).length_le
  have hcount : counted.length = devices s.leases cn := by
    rw [devices, Dict.values, List.filter_map, List.length_map]
    rfl
  simpa [← hcount] using hle

end Count

section Steps

variable {config : Config} {s : AccessState}

-- The property and that no two connected devices have the same line in their
-- leases, which is what a disconnect goes by.
structure AccessInv (config : Config) (s : AccessState) : Prop extends OneAddressEach config s where
  apart : (s.connected.map fun d => d.peer.me).Nodup

theorem AccessInv.init : AccessInv config .init where
  held := by simp [AccessState.init]
  distinct := by simp [AccessState.init]
  guests := by simp [AccessState.init]
  limited := by simp [AccessState.init, devicesOf]
  apart := by simp [AccessState.init]

theorem AccessInv.of_leases (h : AccessInv config s) {leases : Leases}
    (hkeep : ∀ d ∈ s.connected, ∀ ip lease, d.address = some ip → s.leases.get? ip = some lease →
      leases.get? ip = some lease) : AccessInv config { s with leases } where
  held := by
    intro d hd
    obtain ⟨ip, lease, haddr, hlease, hline⟩ := h.held d hd
    exact ⟨ip, lease, haddr, hkeep d hd ip lease haddr hlease, hline⟩
  distinct := h.distinct
  guests := h.guests
  limited := h.limited
  apart := h.apart

theorem AccessInv.eraseIdx (h : AccessInv config s) (i : Nat) :
    AccessInv config { s with connected := s.connected.eraseIdx i } := by
  have hsub : List.Sublist (s.connected.eraseIdx i) s.connected := List.eraseIdx_sublist s.connected i
  exact {
    held := fun d hd => h.held d (hsub.subset hd)
    distinct := h.distinct.sublist (hsub.map _)
    guests := fun d hd => h.guests d (hsub.subset hd)
    limited := fun cn => Nat.le_trans (hsub.filter _).length_le (h.limited cn)
    apart := h.apart.sublist (hsub.map _) }

theorem AccessInv.set (h : AccessInv config s) {ip : Text} {lease : Lease}
    (hfree : ∀ d ∈ s.connected, d.address ≠ some ip) :
    AccessInv config { s with leases := s.leases.set ip lease } := by
  refine h.of_leases ?_
  intro d hd ip' lease' haddr hlease
  have hne : ip' ≠ ip := by
    rintro rfl
    exact hfree d hd haddr
  rw [Dict.get?_set_ne _ _ hne]
  exact hlease

theorem AccessInv.concat (h : AccessInv config s) {device : Device} {ip : Text} {lease : Lease}
    (haddr : device.address = some ip) (hlease : s.leases.get? ip = some lease)
    (hline : lease.line = device.peer.me)
    (hfree : ∀ d ∈ s.connected, d.address ≠ some ip)
    (hapart : ∀ d ∈ s.connected, d.peer.me ≠ device.peer.me)
    (hguest : device.guest = true → ip ∈ guestRange config)
    (hroom : (devicesOf s device.peer.commonName).length < config.maxDevices) :
    AccessInv config { s with connected := s.connected ++ [device] } where
  held := by
    intro d hd
    rcases List.mem_append.mp hd with hold | hnew
    · exact h.held d hold
    · rw [List.mem_singleton.mp hnew]
      exact ⟨ip, lease, haddr, hlease, hline⟩
  distinct := by
    rw [List.map_append, List.map_singleton, List.nodup_append]
    refine ⟨h.distinct, List.nodup_singleton _, ?_⟩
    intro a ha b hb
    obtain ⟨d, hd, rfl⟩ := List.mem_map.mp ha
    rw [List.mem_singleton.mp hb, haddr]
    exact hfree d hd
  guests := by
    intro d hd hg
    rcases List.mem_append.mp hd with hold | hnew
    · exact h.guests d hold hg
    · rw [List.mem_singleton.mp hnew] at hg ⊢
      obtain ⟨i, hfirst, hlast, hip⟩ := mem_guestRange (hguest hg)
      exact ⟨i, hfirst, hlast, by rw [haddr, hip]⟩
  limited := by
    intro cn
    have hold := h.limited cn
    unfold devicesOf at hold hroom ⊢
    rw [List.filter_append, List.length_append, List.filter_singleton]
    by_cases hcn : device.peer.commonName = cn
    · subst hcn
      simp
      omega
    · simp [hcn, hold]
  apart := by
    rw [List.map_append, List.map_singleton, List.nodup_append]
    refine ⟨h.apart, List.nodup_singleton _, ?_⟩
    intro a ha b hb
    obtain ⟨d, hd, rfl⟩ := List.mem_map.mp ha
    rw [List.mem_singleton.mp hb]
    exact hapart d hd

theorem AccessInv.connect (h : AccessInv config s) (hmax : 0 < config.maxDevices) {peer : Peer}
    {found : Found} {stays : Bool} (hkeeps : OpenvpnKeeps config s (.connect peer found stays))
    (htold : ToldApart config s (.connect peer found stays)) {after : AccessState}
    (hs : s.step config (.connect peer found stays) = some after) : AccessInv config after := by
  obtain ⟨hvalid, -, -, -, hpool⟩ := hkeeps
  obtain ⟨hapart, hoffer⟩ := htold
  simp only [AccessState.step] at hs
  cases hc : clientConnect config s.leases s.now peer found with
  | none =>
      simp only [hc, Option.some.injEq] at hs
      exact hs ▸ h
  | some result =>
      obtain ⟨address, leases⟩ := result
      obtain ⟨hroom, ip, rfl, rfl, hclear, hguest⟩ := clientConnect_spec hvalid hmax hoffer hc
      -- a free address is nobody's, because every connected device has its lease
      have hfree : ∀ d ∈ s.connected, d.address ≠ some ip := by
        intro d hd haddr
        rcases hclear with hnone | rfl
        · obtain ⟨ip', lease, haddr', hlease, -⟩ := h.held d hd
          rw [haddr, Option.some.injEq] at haddr'
          rw [← haddr', hnone] at hlease
          cases hlease
        · exact hpool d hd haddr
      have hset : AccessInv config { s with leases := s.leases.set ip ⟨peer.me, s.now⟩ } :=
        h.set hfree
      simp only [hc] at hs
      cases stays with
      | false =>
          simp only [Bool.false_eq_true, if_false, Option.some.injEq] at hs
          exact hs ▸ hset
      | true =>
          simp only [if_true, Option.some.injEq] at hs
          subst hs
          exact hset.concat rfl (Dict.get?_set_self _ _ _) rfl hfree hapart hguest
            (Nat.lt_of_le_of_lt (h.devices_le peer.commonName) hroom)

theorem AccessInv.me_ne_of_mem_eraseIdx (h : AccessInv config s) {i : Nat} {device d : Device}
    (hi : s.connected[i]? = some device) (hd : d ∈ s.connected.eraseIdx i) :
    d.peer.me ≠ device.peer.me := by
  obtain ⟨j, hj, hget⟩ := List.mem_eraseIdx_iff_getElem?.mp hd
  intro hme
  have hlt : j < (s.connected.map fun d => d.peer.me).length := by
    rw [List.length_map]
    exact (List.getElem?_eq_some_iff.mp hget).1
  refine hj ((List.getElem?_inj hlt h.apart).mp ?_)
  rw [List.getElem?_map, List.getElem?_map, hget, hi, Option.map_some, Option.map_some, hme]

theorem AccessInv.disconnect (h : AccessInv config s) {i : Nat} {device : Device}
    (hi : s.connected[i]? = some device) :
    AccessInv config { s with
      leases := clientDisconnect s.leases device.peer, connected := s.connected.eraseIdx i } := by
  refine (h.eraseIdx i).of_leases ?_
  intro d hd ip lease haddr hlease
  unfold clientDisconnect
  split
  · obtain ⟨ip', lease', haddr', hlease', hline⟩ := (h.eraseIdx i).held d hd
    rw [haddr, Option.some.injEq] at haddr'
    subst haddr'
    rw [hlease, Option.some.injEq] at hlease'
    subst hlease'
    have hne := h.me_ne_of_mem_eraseIdx hi hd
    rw [Dict.get?_filter, hlease, Option.filter_some, if_pos (by simpa [hline] using hne)]
  · exact hlease

theorem AccessInv.reap (h : AccessInv config s) {status : StatusFile}
    (hkeeps : OpenvpnKeeps config s (.reap status)) :
    AccessInv config { s with leases := reapLeases s.leases s.now status } := by
  refine h.of_leases ?_
  intro d hd ip lease haddr hlease
  unfold reapLeases
  split
  · rename_i hfresh
    have hlisted : (decide (s.now ≤ lease.mtime + 60) || status.lists ip) = true := by
      rw [Bool.or_eq_true, decide_eq_true_eq]
      by_cases hnew : s.now ≤ lease.mtime + 60
      · exact .inl hnew
      · exact .inr (hkeeps d hd ip haddr lease hlease (by omega))
    rw [Dict.get?_filter, hlease, Option.filter_some, if_pos hlisted]
  · exact hlease

theorem AccessInv.step (hmax : 0 < config.maxDevices) (h : AccessInv config s)
    {label : AccessStep} (hkeeps : OpenvpnKeeps config s label) (htold : ToldApart config s label)
    {after : AccessState} (hs : s.step config label = some after) : AccessInv config after := by
  cases label with
  | connect peer found stays => exact h.connect hmax hkeeps htold hs
  | disconnect i =>
      cases hi : s.connected[i]? with
      | none => simp [AccessState.step, hi] at hs
      | some device =>
          simp only [AccessState.step, hi, Option.some.injEq] at hs
          exact hs ▸ h.disconnect hi
  | vanish i =>
      simp only [AccessState.step, Option.ite_none_right_eq_some, Option.some.injEq] at hs
      exact hs.2 ▸ h.eraseIdx i
  | reap status =>
      simp only [AccessState.step, Option.some.injEq] at hs
      exact hs ▸ h.reap hkeeps
  | tick seconds =>
      simp only [AccessState.step, Option.some.injEq] at hs
      exact hs ▸ ⟨⟨h.held, h.distinct, h.guests, h.limited⟩, h.apart⟩

end Steps

theorem one_address_per_device {config : Config} (hmax : 0 < config.maxDevices) {s : AccessState}
    (hr : Reaches (AccessState.step config)
      (fun t label => OpenvpnKeeps config t label ∧ ToldApart config t label) .init s) :
    OneAddressEach config s := by
  have hinv : AccessInv config s := by
    refine hr.invariant ?_ AccessInv.init
    intro before label after h hallowed hs
    exact h.step hmax hallowed.1 hallowed.2 hs
  exact hinv.toOneAddressEach

def sampleConfig : Config := ⟨168296577, 168296702, 2⟩

def phone (transport : Transport) : Peer :=
  ⟨"alice".toList, "203.0.113.5".toList, "40000".toList, transport⟩

def laptop : Peer := ⟨"alice".toList, "203.0.113.5".toList, "40001".toList, .tcp⟩

def fromPool (ip : String) : Found := ⟨false, none, ip.toList⟩

def asGuest (ip : String) : Found := ⟨true, none, ip.toList⟩

def reapedRun : List AccessStep :=
  [.connect (phone .udp) (fromPool "10.8.0.2") true,
    .connect laptop (asGuest "10.8.0.3") true,
    .vanish 0, .tick 100, .reap ⟨90, "laptop,10.8.0.129\n".toList⟩]

theorem laptop_keeps_guest_address :
    ∃ s, runSteps (AccessState.step sampleConfig) .init reapedRun = some s ∧
      s.leases.entries = [("10.8.0.129".toList, ⟨laptop.me, 0⟩)] ∧
      OneAddressEach sampleConfig s := by
  let final := (runSteps (AccessState.step sampleConfig) .init reapedRun).getD .init
  have hrun : runSteps (AccessState.step sampleConfig) .init reapedRun = some final := by
    decide
  refine ⟨final, hrun, by decide, ?_⟩
  exact one_address_per_device (by decide) (Reaches.of_runSteps hrun (by decide))

-- One device over UDP and one over TCP behind the same address and port: the
-- first to leave takes the other's lease with it.
def sharedPortRun : List AccessStep :=
  [.connect (phone .udp) (asGuest "10.8.0.2") true,
    .connect (phone .tcp) (asGuest "10.8.0.3") true,
    .disconnect 0,
    .connect laptop (asGuest "10.8.0.4") true,
    .connect ⟨"bob".toList, "198.51.100.7".toList, "50000".toList, .udp⟩ (asGuest "10.8.0.5") true]

theorem shared_port_gives_address_twice :
    ∃ s, Reaches (AccessState.step sampleConfig) (OpenvpnKeeps sampleConfig) .init s ∧
      s.connected.map Device.address =
        [some "10.8.0.130".toList, some "10.8.0.129".toList, some "10.8.0.130".toList] ∧
      ¬OneAddressEach sampleConfig s := by
  let final := (runSteps (AccessState.step sampleConfig) .init sharedPortRun).getD .init
  have hrun : runSteps (AccessState.step sampleConfig) .init sharedPortRun = some final := by
    decide +kernel
  have haddresses : final.connected.map Device.address =
      [some "10.8.0.130".toList, some "10.8.0.129".toList, some "10.8.0.130".toList] := by
    decide +kernel
  refine ⟨final, Reaches.of_runSteps hrun (by decide +kernel), haddresses, ?_⟩
  intro h
  have hdistinct := h.distinct
  rw [haddresses] at hdistinct
  exact absurd hdistinct (by decide)

end OpenvpnServer.Access
