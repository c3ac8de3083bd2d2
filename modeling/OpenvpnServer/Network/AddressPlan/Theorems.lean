import OpenvpnServer.Network.AddressPlan.Lemmas

namespace OpenvpnServer.Network

open OpenvpnServer.Lib OpenvpnServer.Lib.Ipaddress OpenvpnServer.Lib.Netip

variable {guests : List Text} {answer : PkiAnswer} {body data : NetworkSettings} {name ip : Text}
open OpenvpnServer.Access (validName)

section Plan

def VpnSubnet.inPool (subnet : VpnSubnet) (ip : Nat) : Prop := subnet.first ≤ ip ∧ ip ≤ subnet.last

def FreeAddress (subnet : VpnSubnet) (guest : Network 32) (ip : Nat) : Prop :=
  inNetwork ip subnet.net ∧ ip ≠ firstAddress subnet.net ∧ ip ≠ firstAddress subnet.net + 1 ∧
    ip ≠ broadcastAddress subnet.net ∧ ¬subnet.inPool ip ∧ ¬inNetwork ip guest

-- The static addresses are free and nobody else's, no guest has one, and the
-- pool, the guests and the server do not share an address.
structure PlanHolds (subnet : VpnSubnet) (guest : Network 32) (lease : Nat × Nat)
    (statics : List (Text × Text)) (guests : List Text) : Prop where
  static_free : ∀ entry ∈ statics, ∃ ip, parseIPv4 entry.2 = some ip ∧
    FreeAddress subnet guest ip.toNat
  static_distinct : ∀ entry ∈ statics, ∀ other ∈ statics, entry.1 ≠ other.1 →
    parseIPv4 entry.2 ≠ parseIPv4 other.2
  static_not_guest : ∀ entry ∈ statics, entry.1 ∉ guests
  pool_inside : ∀ ip, subnet.inPool ip →
    inNetwork ip subnet.net ∧ ¬inNetwork ip guest ∧ ip ≠ firstAddress subnet.net + 1
  guest_inside : ∀ ip, inNetwork ip guest →
    inNetwork ip subnet.net ∧ ip ≠ firstAddress subnet.net + 1
  server_inside : inNetwork (firstAddress subnet.net + 1) subnet.net
  lease_nonempty : lease.1 ≤ lease.2
  lease_inside : ∀ ip, lease.1 ≤ ip → ip ≤ lease.2 →
    inNetwork ip guest ∧ ip ≠ firstAddress guest ∧ ip ≠ broadcastAddress guest

def guestNetwork (host : Host) (s : AddressState) : Option (Network 32) :=
  match guestSub host s with
  | .ok text => ipv4NetworkOf text
  | .error _ => none

-- The plan as the UI and the entrypoint read it from the files.
def Consistent (host : Host) (s : AddressState) : Prop :=
  ∃ subnet guest lease, vpnSubnet host.wide s.serverConf = some subnet ∧
    guestNetwork host s = some guest ∧ prepareAccess host s = some lease ∧
    PlanHolds subnet guest lease (staticIps s.staticclients) (guestNames s.guests)

section Change

variable {subnet : VpnSubnet} {guest : Network 32} {lease : Nat × Nat}
  {statics statics' : List (Text × Text)} {guests guests' : List Text}

theorem PlanHolds.remove (h : PlanHolds subnet guest lease statics guests)
    (hstatics : ∀ entry ∈ statics', entry ∈ statics)
    (hguests : ∀ entry ∈ statics', entry.1 ∉ guests') :
    PlanHolds subnet guest lease statics' guests' :=
  { h with
    static_free := fun entry hentry => h.static_free entry (hstatics entry hentry)
    static_distinct := fun entry hentry other hother =>
      h.static_distinct entry (hstatics entry hentry) other (hstatics other hother)
    static_not_guest := hguests }

theorem PlanHolds.assign (h : PlanHolds subnet guest lease statics guests)
    {address : BitVec 32} (hip : parseIPv4 ip = some address)
    (hfree : FreeAddress subnet guest address.toNat)
    (hunused : ∀ entry ∈ statics, entry.2 = ip → entry.1 = name)
    (hstatics : ∀ entry ∈ statics', entry = (name, ip) ∨ entry.1 ≠ name ∧ entry ∈ statics)
    (hguests : ∀ entry ∈ statics', entry.1 ∉ guests') :
    PlanHolds subnet guest lease statics' guests' := by
  -- nobody but the client has the address
  have hother : ∀ entry ∈ statics, entry.1 ≠ name → parseIPv4 entry.2 ≠ some address := by
    intro entry hentry hname hsame
    exact hname (hunused entry hentry (parseIPv4_injective hsame hip))
  refine { h with
    static_free := fun entry hentry => ?_
    static_distinct := fun entry hentry other hmem hne => ?_
    static_not_guest := hguests }
  · rcases hstatics entry hentry with rfl | ⟨-, hold⟩
    · exact ⟨address, hip, hfree⟩
    · exact h.static_free entry hold
  · rcases hstatics entry hentry with rfl | ⟨hname, hold⟩
    · rcases hstatics other hmem with rfl | ⟨hname, hold⟩
      · exact absurd rfl hne
      · rw [hip]
        exact (hother other hold hname).symm
    · rcases hstatics other hmem with rfl | ⟨-, hold'⟩
      · rw [hip]
        exact hother entry hold hname
      · exact h.static_distinct entry hold other hold' hne

end Change

end Plan

section Checks

variable {host : Host}

theorem validName_of_validateName (h : validateName name = .ok ()) :
    validName name = true := by
  unfold validateName at h
  split at h
  · cases h
  · rename_i hvalid
    simpa using hvalid

theorem checkStaticIp_spec {s : AddressState} {subnet : VpnSubnet}
    {guest : Network 32} (hsubnet : vpnSubnet host.wide s.serverConf = some subnet)
    (hguest : guestNetwork host s = some guest) (h : checkStaticIp host s name ip = .ok ()) :
    ∃ address, parseIPv4 ip = some address ∧ FreeAddress subnet guest address.toNat ∧
      ∀ entry ∈ staticIps s.staticclients, entry.2 = ip → entry.1 = name := by
  unfold checkStaticIp staticIpProblem at h
  cases hip : parseIPv4 ip with
  | none =>
      rw [hip] at h
      cases h
  | some address =>
      refine ⟨address, rfl, ?_⟩
      rw [hip, hsubnet] at h
      dsimp only [Option.bind_some] at h
      unfold subnetProblem at h
      by_cases hclient : ¬inNetwork address.toNat subnet.net ∨
          address.toNat = firstAddress subnet.net ∨
          address.toNat = firstAddress subnet.net + 1 ∨
          address.toNat = broadcastAddress subnet.net
      · rw [if_pos hclient] at h
        cases h
      rw [if_neg hclient] at h
      by_cases hpool : subnet.first ≤ address.toNat ∧ address.toNat ≤ subnet.last
      · rw [if_pos hpool] at h
        cases h
      rw [if_neg hpool] at h
      unfold inGuestRange at h
      unfold guestNetwork at hguest
      cases hsub : guestSub host s with
      | error refusal =>
          rw [hsub] at hguest
          cases hguest
      | ok text =>
          rw [hsub] at hguest h
          dsimp only at hguest h
          rw [hip, hguest] at h
          dsimp only at h
          by_cases hin : inNetwork address.toNat guest
          · rw [decide_eq_true hin] at h
            cases h
          rw [decide_eq_false hin] at h
          dsimp only at h
          simp only [not_or, not_not] at hclient
          refine ⟨⟨hclient.1, hclient.2.1, hclient.2.2.1, hclient.2.2.2, hpool, hin⟩, ?_⟩
          intro entry hentry hsame
          cases hfind : (staticIps s.staticclients).find? fun entry =>
              entry.2 = ip ∧ entry.1 ≠ name with
          | some other =>
              rw [hfind] at h
              cases h
          | none =>
              have hno := List.find?_eq_none.mp hfind entry hentry
              simpa [hsame] using hno

end Checks

section Clients

variable {host : Host} {s next : AddressState}

theorem Consistent.of_plan (h : Consistent host s) (hconf : next.serverConf = s.serverConf)
    (hsettings : next.settings = s.settings)
    (hplan : ∀ subnet guest lease, vpnSubnet host.wide s.serverConf = some subnet →
      guestNetwork host s = some guest →
      PlanHolds subnet guest lease (staticIps s.staticclients) (guestNames s.guests) →
      PlanHolds subnet guest lease (staticIps next.staticclients) (guestNames next.guests)) :
    Consistent host next := by
  obtain ⟨subnet, guest, lease, hsubnet, hguest, hlease, hholds⟩ := h
  have hguest' : guestNetwork host next = guestNetwork host s := by
    unfold guestNetwork guestSub
    rw [hconf, hsettings]
  have hlease' : prepareAccess host next = prepareAccess host s := by
    unfold prepareAccess
    rw [hconf, hsettings]
  exact ⟨subnet, guest, lease, by rw [hconf, hsubnet], by rw [hguest', hguest],
    by rw [hlease', hlease], hplan subnet guest lease hsubnet hguest hholds⟩

theorem mem_guestNames {files : List Text} :
    name ∈ guestNames files ↔ name ∈ files ∧ validName name = true := List.mem_filter

theorem setGuest_spec {guest : Bool} (h : setGuest name guest s = .ok next) :
    validateName name = .ok () ∧ next = if guest then { s with
        staticclients := s.staticclients.erase name
        guests := if name ∈ s.guests then s.guests else name :: s.guests }
      else { s with guests := s.guests.filter (· ≠ name) } := by
  unfold setGuest at h
  obtain ⟨⟨⟩, hname, h⟩ := exists_of_bind h
  refine ⟨hname, ?_⟩
  cases guest with
  | true =>
      cases h
      rfl
  | false =>
      cases h
      rfl

theorem setGuest_consistent {guest : Bool} (h : Consistent host s)
    (hrun : setGuest name guest s = .ok next) : Consistent host next := by
  obtain ⟨-, rfl⟩ := setGuest_spec hrun
  cases guest with
  | true =>
      refine h.of_plan rfl rfl fun subnet guest lease _ _ hholds => ?_
      refine hholds.remove (fun entry hentry => (mem_staticIps_erase hentry).2) ?_
      intro entry hentry hguest
      obtain ⟨hne, hold⟩ := mem_staticIps_erase hentry
      apply hholds.static_not_guest entry hold
      rw [mem_guestNames] at hguest ⊢
      refine ⟨?_, hguest.2⟩
      have hmem := hguest.1
      simp only [if_true] at hmem
      split at hmem
      · exact hmem
      · rcases List.mem_cons.mp hmem with heq | hmem
        · exact absurd heq hne
        · exact hmem
  | false =>
      refine h.of_plan rfl rfl fun subnet guest lease _ _ hholds => ?_
      refine hholds.remove (fun entry hentry => hentry) fun entry hentry hguest => ?_
      apply hholds.static_not_guest entry hentry
      rw [mem_guestNames] at hguest ⊢
      exact ⟨(List.mem_filter.mp hguest.1).1, hguest.2⟩

theorem erase_consistent (h : Consistent host s) (name : Text) :
    Consistent host { s with staticclients := s.staticclients.erase name } := by
  refine h.of_plan rfl rfl fun subnet guest lease _ _ hholds => ?_
  exact hholds.remove (fun entry hentry => (mem_staticIps_erase hentry).2)
    fun entry hentry => hholds.static_not_guest entry (mem_staticIps_erase hentry).2

theorem assign_consistent {mask : Text} (h : Consistent host s)
    (hcheck : checkStaticIp host s name ip = .ok ()) (hmask : Dotted mask)
    (hsub : ∀ other ∈ guestNames guests, other ∈ guestNames s.guests)
    (hname : name ∉ guestNames guests) :
    Consistent host { s with
      staticclients := s.staticclients.set name (pushFile ip mask)
      guests := guests } := by
  refine h.of_plan rfl rfl fun subnet guest lease hsubnet hguest hholds => ?_
  obtain ⟨address, hip, hfree, hunused⟩ := checkStaticIp_spec hsubnet hguest hcheck
  have hpushed := pushedIn_pushFile (dotted_of_parse hip) hmask
  refine hholds.assign hip hfree hunused (fun entry hentry => mem_staticIps_set hpushed hentry) ?_
  intro entry hentry hmem
  rcases mem_staticIps_set hpushed hentry with rfl | ⟨-, hold⟩
  · exact hname hmem
  · exact hholds.static_not_guest entry hold (hsub entry.1 hmem)

theorem setStaticIp_consistent {ip : Option Text} (h : Consistent host s)
    (hrun : setStaticIp host name ip s = .ok next) : Consistent host next := by
  unfold setStaticIp at hrun
  obtain ⟨⟨⟩, -, hrun⟩ := exists_of_bind hrun
  dsimp only at hrun
  split at hrun
  · cases hrun
  · rename_i hguest
    split at hrun
    · cases hrun
      exact erase_consistent h name
    · rename_i hne
      obtain ⟨⟨⟩, hcheck, hrun⟩ := exists_of_bind hrun
      cases hrun
      rw [not_and] at hguest
      exact assign_consistent h hcheck (dotted_subnetMask host _) (fun _ hmem => hmem) (hguest hne)

theorem pkiCreateClient_spec {passphrase : Text} {days : Option Int}
    (h : pkiCreateClient host name days passphrase ip answer s = .ok next) :
    (ip = [] ∧ next = s) ∨ (ip ≠ [] ∧ checkStaticIp host s name ip = .ok () ∧
      next = { s with
        staticclients := s.staticclients.set name (pushFile ip (serverMask s.serverConf)) }) := by
  unfold pkiCreateClient at h
  obtain ⟨⟨⟩, -, h⟩ := exists_of_bind h
  split at h
  · cases h
  · by_cases hempty : ip = []
    · left
      refine ⟨hempty, ?_⟩
      simp only [hempty, ne_eq, not_true_eq_false, if_false, if_true] at h
      split at h
      · cases h
      · split at h
        · cases h
        · cases h
          rfl
    · right
      simp only [hempty, ne_eq, not_false_eq_true, if_true, if_false] at h
      obtain ⟨⟨⟩, hcheck, h⟩ := exists_of_bind h
      refine ⟨hempty, hcheck, ?_⟩
      split at h
      · cases h
      · split at h
        · cases h
        · cases h
          rfl

theorem createClient_consistent {body : NewClient} (h : Consistent host s)
    (hrun : createClient host body answer s = .ok next) : Consistent host next := by
  unfold createClient at hrun
  obtain ⟨⟨⟩, -, hrun⟩ := exists_of_bind hrun
  dsimp only at hrun
  split at hrun
  · cases hrun
  · split at hrun
    · cases hrun
    · split at hrun
      · cases hrun
      · rename_i hboth
        obtain ⟨created, hcreated, hrun⟩ := exists_of_bind hrun
        obtain ⟨marked, hmarked, hfinal⟩ := exists_of_bind hrun
        rcases pkiCreateClient_spec hcreated with ⟨hempty, rfl⟩ | ⟨hne, hcheck, rfl⟩
        · rw [if_pos hempty] at hfinal
          exact setStaticIp_consistent (setGuest_consistent h hmarked) hfinal
        · -- the client has an address, so it is not to be a guest
          have hfull : body.guest = false := by
            rw [not_and] at hboth
            by_contra hguest
            exact hboth (by simpa using hguest) hne
          rw [if_neg hne] at hfinal
          cases hfinal
          rw [hfull] at hmarked
          obtain ⟨-, rfl⟩ := setGuest_spec hmarked
          refine assign_consistent h hcheck (dotted_serverMask _) (fun other hother => ?_) ?_
          · rw [mem_guestNames] at hother ⊢
            exact ⟨(List.mem_filter.mp hother.1).1, hother.2⟩
          · intro hmem
            rw [mem_guestNames, List.mem_filter] at hmem
            simp at hmem

end Clients

section Save

variable {host : Host} {s next : AddressState}

-- No line break in a proxy address, where the scope of an IPv6 one could have it.
def unbrokenProxies (body : NetworkSettings) : Prop :=
  ∀ cidr ∈ body.proxyCidrs, (pyStrip cidr).all (! lineBreak ·) = true

instance (body : NetworkSettings) : Decidable (unbrokenProxies body) := by
  unfold unbrokenProxies
  infer_instance

theorem lineBreak_of_unbroken {networks : List IpNetwork}
    (h : unbrokenProxies body) (hvalid : Validated body data networks) :
    ∀ net ∈ networks, ∀ c ∈ net.scope, lineBreak c = false := by
  intro net hnet c hc
  obtain ⟨cidr, hcidr, hread⟩ := exists_of_mem_mapM (mapM_of_cidrNetworks hvalid.parsed) hnet
  have hall := List.all_eq_true.mp (h cidr hcidr) c (mem_of_mem_scope hread hc)
  simpa using hall

theorem planHolds_of_addressed {a : Addressing} {dns : List (BitVec 32)}
    {routes : List (Network 32)} {statics : List (Text × Text)}
    (h : Addressed (statics.map Prod.snd) data a dns routes)
    (hdistinct : ∀ entry ∈ statics, ∀ other ∈ statics, entry.1 ≠ other.1 →
      parseIPv4 entry.2 ≠ parseIPv4 other.2)
    (hguests : ∀ entry ∈ statics, entry.1 ∉ guests) :
    PlanHolds ⟨a.net, a.first, a.last⟩ a.guest
      (firstAddress a.guest + 1, broadcastAddress a.guest - 1) statics guests := by
  obtain ⟨-, ⟨hlow, hhigh⟩, ⟨-, hbits⟩, hpool, happart, hserver⟩ := h.fits
  have hsize := (leaseRange_str a.guest hbits).2
  unfold inNetwork at hserver
  refine ⟨fun entry hentry => ?_, hdistinct, hguests, fun ip hip => ?_, fun ip hip => ?_, ?_, ?_,
    fun ip hfirst hlast => ?_⟩
  · obtain ⟨ip, hip, hnet, hguest, hout, hfirst, hsecond, hlast⟩ :=
      h.statics entry.2 (List.mem_map_of_mem hentry)
    exact ⟨ip, hip, hnet, hfirst, hsecond, hlast, hout, hguest⟩
  · unfold VpnSubnet.inPool at hip
    unfold inNetwork
    dsimp only at hip ⊢
    omega
  · unfold inNetwork at hip ⊢
    dsimp only
    omega
  · unfold inNetwork
    dsimp only
    omega
  · dsimp only
    omega
  · unfold inNetwork
    dsimp only at hfirst hlast
    omega

theorem guestSub_saved {conf : Text}
    (h : readNetwork (some (settingsConf data)) = .ok data.toJson) :
    guestSub host { s with serverConf := conf, settings := some (settingsConf data) } =
      .ok data.guestSubnet := by
  unfold guestSub
  dsimp only
  rw [h]
  rfl

theorem saveSettings_consistent (h : Consistent host s)
    (hproxies : unbrokenProxies body) (hagree : optionsAgree s.serverConf)
    (hrun : saveSettings host body s = .ok next) : Consistent host next := by
  obtain ⟨data, hvalidate, hwrite⟩ := validate_of_saveSettings hrun
  obtain ⟨networks, hvalid⟩ := validated_of_validate hvalidate
  obtain ⟨a, dns, routes, haddressed⟩ := addressed_of_validate hvalidate
  obtain ⟨kept, hkept, rfl⟩ := haddressed.writeSettings_spec hwrite
  have hscopes := lineBreak_of_unbroken hproxies hvalid
  obtain ⟨subnet, guest, lease, -, -, -, hholds⟩ := h
  refine ⟨⟨a.net, a.first, a.last⟩, a.guest,
    (firstAddress a.guest + 1, broadcastAddress a.guest - 1),
    vpnSubnet_saved host.wide haddressed hagree hkept, ?_, ?_,
    planHolds_of_addressed haddressed hholds.static_distinct hholds.static_not_guest⟩
  · unfold guestNetwork
    rw [guestSub_saved (hvalid.readNetwork_unbroken hscopes)]
    dsimp only
    rw [haddressed.guestSubnet]
    exact ipv4NetworkOf_of_ipv4Network (ipv4Network_str a.guest)
  · unfold prepareAccess
    dsimp only
    rw [hvalid.loadNetworkSettings_unbroken hscopes, Option.bind_some, haddressed.guestSubnet]
    exact (leaseRange_str a.guest haddressed.fits.2.2.1.2).1

end Save

section Runs

variable (host : Host)

-- The saves that keep the plan: of proxies without a line break, over a
-- server.conf whose options are found by their first word.
def planAllowed (s : AddressState) : Operation → Prop
  | .saveSettings body => unbrokenProxies body ∧ optionsAgree s.serverConf
  | _ => True

instance (s : AddressState) (operation : Operation) : Decidable (planAllowed s operation) := by
  cases operation <;> unfold planAllowed <;> infer_instance

theorem run_consistent {s next : AddressState} {operation : Operation} (h : Consistent host s)
    (hallowed : planAllowed s operation) (hrun : operation.run host s = .ok next) :
    Consistent host next := by
  cases operation with
  | setStaticIp name ip => exact setStaticIp_consistent h hrun
  | setGuest name guest => exact setGuest_consistent h hrun
  | createClient body answer => exact createClient_consistent h hrun
  | saveSettings body => exact saveSettings_consistent h hallowed.1 hallowed.2 hrun

theorem address_plan_stays_consistent {init s : AddressState} (hinit : Consistent host init)
    (hr : Reaches (addressStep host) planAllowed init s) : Consistent host s := by
  refine hr.invariant (P := Consistent host) (fun before operation after h hallowed hstep => ?_)
    hinit
  unfold addressStep at hstep
  cases hrun : operation.run host before with
  | error refusal =>
      rw [hrun] at hstep
      cases hstep
      exact h
  | ok next =>
      rw [hrun] at hstep
      cases hstep
      exact run_consistent host h hallowed hrun

def plainHost : Host where
  python := asciiPython
  wide := fun _ => false
  guestSub := "10.8.0.128/25".toList
  vars := ⟨[], "10.8.0.128/25".toList, []⟩
  trustDefault := fun _ => []
  guestDefault := fun _ => none

def officeState : AddressState where
  serverConf := unlines ["management 127.0.0.1 2080".toList,
    "server 10.8.0.0 255.255.255.0 nopool".toList, "ifconfig-pool 10.8.0.2 10.8.0.100".toList]
  settings := none
  staticclients := Dict.empty
  guests := []

def officeNet : Network 32 := ⟨0x0a080000#32, 24, by decide, by decide⟩

def officeGuests : Network 32 := ⟨0x0a080080#32, 25, by decide, by decide⟩

theorem officeState_consistent : Consistent plainHost officeState := by
  have hsubnet : vpnSubnet plainHost.wide officeState.serverConf =
      some ⟨officeNet, 0x0a080002, 0x0a080064⟩ := by decide
  have hguest : guestNetwork plainHost officeState = some officeGuests := by decide
  have hlease : prepareAccess plainHost officeState = some (0x0a080081, 0x0a0800fe) := by
    decide
  have hnet : firstAddress officeNet = 0x0a080000 ∧ broadcastAddress officeNet = 0x0a0800ff := by
    decide
  have hrange : firstAddress officeGuests = 0x0a080080 ∧
      broadcastAddress officeGuests = 0x0a0800ff := by decide
  have hstatics : staticIps officeState.staticclients = [] := rfl
  refine ⟨_, _, _, hsubnet, hguest, hlease, ?_⟩
  rw [hstatics]
  refine ⟨by simp, by simp, by simp, ?_, ?_, ?_, by decide, ?_⟩
  · intro ip hip
    unfold VpnSubnet.inPool at hip
    unfold inNetwork
    dsimp only at hip ⊢
    omega
  · intro ip hip
    unfold inNetwork at hip ⊢
    dsimp only
    omega
  · unfold inNetwork
    dsimp only
    omega
  · intro ip hfirst hlast
    unfold inNetwork
    dsimp only at hfirst hlast
    omega

def loopback : Text := "127.0.0.1/32".toList

def officeRun : List Operation :=
  [.createClient ⟨"alice".toList, none, none, some "10.8.0.110".toList, false⟩ ⟨none, none⟩,
    .setGuest "bob".toList true,
    .setStaticIp "carol".toList (some "10.8.0.111".toList),
    .saveSettings { office [loopback] with
      vpnSubnet := "10.8.0.0/16".toList, guestSubnet := "10.8.128.0/17".toList }]

theorem office_run_stays_consistent :
    ∃ s, runSteps (addressStep plainHost) officeState officeRun = some s ∧
      staticIps s.staticclients = [("alice".toList, "10.8.0.110".toList),
        ("carol".toList, "10.8.0.111".toList)] ∧ s.settings.isSome ∧ Consistent plainHost s := by
  have hallowed : AllowedRun (addressStep plainHost) planAllowed officeState officeRun := by
    decide +kernel
  have hread : (runSteps (addressStep plainHost) officeState officeRun).map
      (fun s => (staticIps s.staticclients, s.settings.isSome)) =
        some ([("alice".toList, "10.8.0.110".toList), ("carol".toList, "10.8.0.111".toList)],
          true) := by
    decide +kernel
  obtain ⟨s, hrun, hs⟩ := Option.map_eq_some_iff.mp hread
  rw [Prod.mk.injEq] at hs
  exact ⟨s, hrun, hs.1, hs.2, address_plan_stays_consistent plainHost officeState_consistent
    (Reaches.of_runSteps hrun hallowed)⟩

-- The shell reads the second line of the scope as the guest subnet.
def brokenProxy : Text := "2001::%\nGUEST_SUB=10.9.0.0/24".toList

theorem broken_proxy_moves_lease_range :
    ∃ s, runSteps (addressStep plainHost) officeState
        [.saveSettings (office [brokenProxy])] = some s ∧ Consistent plainHost officeState ∧
      vpnSubnet plainHost.wide s.serverConf = some ⟨officeNet, 0x0a080002, 0x0a080064⟩ ∧
      prepareAccess plainHost s = some (0x0a090001, 0x0a0900fe) ∧ ¬Consistent plainHost s := by
  have hread : (runSteps (addressStep plainHost) officeState
      [.saveSettings (office [brokenProxy])]).map
        (fun s => (vpnSubnet plainHost.wide s.serverConf, prepareAccess plainHost s)) =
      some (some ⟨officeNet, 0x0a080002, 0x0a080064⟩, some (0x0a090001, 0x0a0900fe)) := by
    decide +kernel
  obtain ⟨s, hrun, hs⟩ := Option.map_eq_some_iff.mp hread
  rw [Prod.mk.injEq] at hs
  obtain ⟨hsubnet, hlease⟩ := hs
  refine ⟨s, hrun, officeState_consistent, hsubnet, hlease, ?_⟩
  rintro ⟨subnet, guest, lease, hsubnet', -, hlease', hholds⟩
  rw [hsubnet, Option.some.injEq] at hsubnet'
  rw [hlease, Option.some.injEq] at hlease'
  subst hsubnet' hlease'
  -- the first address of the range is not even in the VPN subnet
  have hguest := (hholds.lease_inside 0x0a090001 (by decide) (by decide)).1
  exact absurd (hholds.guest_inside _ hguest).1 (by decide)

end Runs

end OpenvpnServer.Network
