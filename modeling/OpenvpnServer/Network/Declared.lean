import OpenvpnServer.Lib.Utf8
import OpenvpnServer.Network.AddressPlan
import OpenvpnServer.Network.Theorems

-- Which exceptions `validate` raises, the files of staticclients/ read as bytes.
namespace OpenvpnServer.Network

open OpenvpnServer.Lib OpenvpnServer.Lib.Ipaddress OpenvpnServer.Lib.Netip

variable {check : Text → Except Failure Text} {files : List StaticFile} {value : Text}
  {a : Addressing} {texts dns : List Text} {body : NetworkSettings}

section Files

-- A file of staticclients/ and its bytes; without them reading it is an `OSError`.
structure StaticFile where
  name : Text
  content : Option Bytes
  deriving DecidableEq

-- `static_ips().values()`; bytes that are no text are a `UnicodeDecodeError`, which is a
-- `ValueError`.
def staticTexts : List StaticFile → Except Failure (List Text)
  | [] => .ok []
  | file :: rest =>
      if file.name.head? = some '.' then staticTexts rest
      else
        match file.content with
        | none => staticTexts rest
        | some bytes =>
            match utf8Decode? bytes with
            | none => .error .valueError
            | some text => do
                let texts ← staticTexts rest
                pure (((splitlines (universalNewlines text)).findSome? pushedAddress).toList ++ texts)

-- `validate`, which looks at the files after the subnets, the pool and the DNS servers.
def validateFiles (python : Python) (files : List StaticFile) (body : NetworkSettings) :
    Except Failure NetworkSettings :=
  if parseAddressing body = none ∨ validateDns body.dnsServers = none then
    .error addressingRefused
  else do
    let texts ← staticTexts files
    validate python texts body

-- Files with text are read as in the requests that change addresses.
theorem staticTexts_of_texts (files : Dict Text Text) :
    staticTexts (files.entries.map fun file => ⟨file.1, some (utf8 file.2)⟩) =
      .ok ((staticIps files).map Prod.snd) := by
  unfold staticIps
  induction files.entries with
  | nil => rfl
  | cons file rest ih =>
      rw [List.map_cons, staticTexts, List.filterMap_cons, ih]
      by_cases hdot : file.1.head? = some '.'
      · rw [if_pos hdot, if_pos hdot]
      · rw [if_neg hdot, if_neg hdot]
        dsimp only
        rw [utf8Decode?_utf8]
        dsimp only
        cases hpushed : (splitlines (universalNewlines file.2)).findSome? pushedAddress with
        | none => rfl
        | some address => rfl

end Files

section Declared

def Declared {α : Type} (result : Except Failure α) : Prop :=
  ∀ failure, result = .error failure → ∃ message, failure = .pki message

variable {α β : Type} {python : Python}

theorem declared_ok (a : α) : Declared (.ok a : Except Failure α) := by
  intro failure h
  cases h

theorem declared_pki (message : Text) : Declared (.error (.pki message) : Except Failure α) := by
  intro failure h
  cases h
  exact ⟨message, rfl⟩

theorem declared_refuse (message : String) : Declared (refuse message : Except Failure α) :=
  declared_pki message.toList

theorem not_declared_valueError : ¬Declared (.error .valueError : Except Failure α) := by
  intro h
  obtain ⟨message, hmessage⟩ := h .valueError rfl
  cases hmessage

theorem declared_bind_iff {result : Except Failure α} {next : α → Except Failure β} :
    Declared (result >>= next) ↔ Declared result ∧ ∀ a, result = .ok a → Declared (next a) := by
  cases result with
  | error failure =>
      constructor
      · intro h
        exact ⟨fun other hother => h other (by cases hother; rfl), fun a ha => by cases ha⟩
      · intro h other hother
        exact h.1 other (by cases hother; rfl)
  | ok a =>
      constructor
      · intro h
        exact ⟨declared_ok a, fun b hb => by cases hb; exact h⟩
      · intro h
        exact h.2 a rfl

theorem Declared.bind {result : Except Failure α} {next : α → Except Failure β}
    (h : Declared result) (hnext : ∀ a, Declared (next a)) : Declared (result >>= next) :=
  declared_bind_iff.mpr ⟨h, fun a _ => hnext a⟩

theorem Declared.optional
    (h : Declared (check value)) : Declared (optional check value) := by
  unfold Network.optional
  split
  · exact declared_ok value
  · exact h

theorem Declared.withMessage {result : Except Failure Text} (message : String)
    (h : Declared result) : Declared (withMessage message result) := by
  cases result with
  | ok value => exact declared_ok value
  | error failure =>
      obtain ⟨text, rfl⟩ := h failure rfl
      exact declared_refuse message

theorem declared_mapM {f : α → Except Failure β} {l : List α} (h : ∀ a, Declared (f a)) :
    Declared (l.mapM f) := by
  induction l with
  | nil => exact declared_ok []
  | cons a rest ih =>
      rw [List.mapM_cons]
      exact (h a).bind fun first => ih.bind fun others => declared_ok _

end Declared

section Checks

variable {python : Python}

theorem declared_hostname (value : Text) : Declared (hostname python value) := by
  unfold hostname
  dsimp only
  split
  · exact declared_refuse _
  · exact declared_ok _

theorem declared_cidrs (values : List Text) (ipv4 : Bool) : Declared (cidrs values ipv4) := by
  unfold cidrs cidrNetworks
  cases values.mapM fun value => ipNetwork (pyStrip value) with
  | none => exact declared_pki _
  | some networks =>
      dsimp only
      split
      · rename_i failure hfailure
        split at hfailure
        · cases hfailure
          exact declared_pki _
        · cases hfailure
      · exact declared_ok _

theorem declared_backendUrl (value : Text) : Declared (backendUrl python value) := by
  unfold backendUrl
  dsimp only
  cases python.urlsplit value with
  | none => exact declared_refuse _
  | some url =>
      dsimp only
      split
      · exact declared_refuse _
      · exact declared_ok _

theorem declared_validateUrl (value : Text) : Declared (validateUrl python value) := by
  unfold validateUrl
  dsimp only
  split
  · exact declared_refuse _
  · split
    · exact declared_refuse _
    · exact declared_ok _

theorem declared_portalListener (value : Text) : Declared (portalListener python value) := by
  unfold portalListener
  dsimp only
  split
  · exact declared_refuse _
  · split
    · exact declared_refuse _
    · split
      · exact declared_refuse _
      · split
        · exact declared_ok _
        · exact declared_refuse _

theorem declared_validateGuestLink (domain : Text) (reserved : List Text) (link : GuestLink) :
    Declared (validateGuestLink python domain reserved link) := by
  unfold validateGuestLink
  dsimp only
  split
  · exact declared_pki _
  · split
    · exact declared_pki _
    · split
      · exact declared_pki _
      · split
        · exact declared_pki _
        · split
          · exact declared_pki _
          · exact declared_ok _

theorem declared_validateServices (reserved names : List Text) (services : List Service) :
    Declared (validateServices python reserved names services) := by
  induction services generalizing names with
  | nil => exact declared_ok []
  | cons service rest ih =>
      rw [validateServices]
      split
      · exact declared_refuse _
      · refine (declared_hostname _).bind fun host => (declared_backendUrl _).bind fun url => ?_
        split
        · exact declared_refuse _
        · split
          · exact declared_refuse _
          · exact (ih _).bind fun services => declared_ok _

def PortReads (python : Python) (value : Text) : Prop :=
  (rpartition value).1 ≠ [] → allDigits python (rpartition value).2 = true →
    python.int (rpartition value).2 ≠ none

theorem declared_hostPort_iff :
    Declared (hostPort python value) ↔ PortReads python value := by
  unfold hostPort PortReads
  dsimp only
  by_cases hport : (rpartition value).1 = [] ∨ allDigits python (rpartition value).2 = false
  · rw [if_pos hport]
    refine iff_of_true (declared_refuse _) fun hhost hdigits => ?_
    rcases hport with hport | hport
    · exact absurd hport hhost
    · rw [hport] at hdigits
      cases hdigits
  · rw [if_neg hport]
    rw [not_or, Bool.not_eq_false] at hport
    cases hint : python.int (rpartition value).2 with
    | none =>
        refine iff_of_false not_declared_valueError fun h => ?_
        exact h hport.1 hport.2 rfl
    | some n =>
        refine iff_of_true ?_ fun _ _ => by simp
        dsimp only
        split
        · exact declared_refuse _
        · exact declared_ok _

end Checks

section Static

def StaticFile.Readable (file : StaticFile) : Prop :=
  file.name.head? ≠ some '.' → ∀ bytes, file.content = some bytes → utf8Decode? bytes ≠ none

def StaticFile.address (file : StaticFile) : Option Text :=
  if file.name.head? = some '.' then none
  else (file.content.bind utf8Decode?).bind fun text =>
    (splitlines (universalNewlines text)).findSome? pushedAddress

theorem StaticFile.readable_iff {file : StaticFile} {rest : List StaticFile} :
    Declared (staticTexts (file :: rest)) ↔ file.Readable ∧ Declared (staticTexts rest) := by
  unfold StaticFile.Readable
  rw [staticTexts]
  by_cases hdot : file.name.head? = some '.'
  · rw [if_pos hdot]
    simp [hdot]
  · rw [if_neg hdot]
    cases hcontent : file.content with
    | none => simp
    | some bytes =>
        dsimp only
        cases htext : utf8Decode? bytes with
        | none =>
            refine iff_of_false not_declared_valueError fun h => ?_
            exact h.1 hdot bytes rfl htext
        | some text =>
            dsimp only
            rw [declared_bind_iff]
            constructor
            · intro h
              refine ⟨fun _ other hother => ?_, h.1⟩
              cases hother
              simp [htext]
            · intro h
              exact ⟨h.2, fun texts _ => declared_ok _⟩

theorem declared_staticTexts_iff :
    Declared (staticTexts files) ↔ ∀ file ∈ files, file.Readable := by
  induction files with
  | nil => exact iff_of_true (declared_ok []) (by simp)
  | cons file rest ih => rw [StaticFile.readable_iff, ih, List.forall_mem_cons]

theorem staticTexts_eq (h : ∀ file ∈ files, file.Readable) :
    staticTexts files = .ok (files.filterMap StaticFile.address) := by
  induction files with
  | nil => rfl
  | cons file rest ih =>
      rw [List.forall_mem_cons] at h
      rw [staticTexts, ih h.2, List.filterMap_cons, StaticFile.address]
      by_cases hdot : file.name.head? = some '.'
      · rw [if_pos hdot, if_pos hdot]
      · rw [if_neg hdot, if_neg hdot]
        cases hcontent : file.content with
        | none => rfl
        | some bytes =>
            obtain ⟨text, htext⟩ := Option.ne_none_iff_exists'.mp (h.1 hdot bytes hcontent)
            dsimp only
            rw [Option.bind_some, htext]
            dsimp only
            rw [Option.bind_some]
            cases (splitlines (universalNewlines text)).findSome? pushedAddress with
            | none => rfl
            | some address => rfl

def StaticFree (a : Addressing) (text : Text) : Prop :=
  ∃ ip, parseIPv4 text = some ip ∧
    ¬(¬inNetwork ip.toNat a.net ∨ inNetwork ip.toNat a.guest ∨
      (a.first ≤ ip.toNat ∧ ip.toNat ≤ a.last) ∨
      ip.toNat ∈ [firstAddress a.net, firstAddress a.net + 1, broadcastAddress a.net])

def StaticsRead (a : Addressing) (texts : List Text) : Prop :=
  ∀ before text after, texts = before ++ text :: after → (∀ free ∈ before, StaticFree a free) →
    parseIPv4 text ≠ none

theorem checkStatic_cons_of_free {text : Text} {rest : List Text}
    (h : StaticFree a text) : checkStatic a (text :: rest) = checkStatic a rest := by
  obtain ⟨ip, hip, hfree⟩ := h
  rw [checkStatic, hip]
  exact if_neg hfree

theorem checkStatic_ok_iff :
    checkStatic a texts = .ok () ↔ ∀ text ∈ texts, StaticFree a text := by
  induction texts with
  | nil => simp [checkStatic]
  | cons text rest ih =>
      rw [List.forall_mem_cons]
      by_cases hfree : StaticFree a text
      · rw [checkStatic_cons_of_free hfree, ih]
        simp [hfree]
      · refine iff_of_false (fun hok => ?_) fun h => hfree h.1
        rw [checkStatic] at hok
        split at hok
        · cases hok
        · rename_i ip hip
          split at hok
          · cases hok
          · rename_i hclash
            exact hfree ⟨ip, hip, hclash⟩

theorem staticsRead_cons_iff {text : Text} {rest : List Text} :
    StaticsRead a (text :: rest) ↔
      parseIPv4 text ≠ none ∧ (StaticFree a text → StaticsRead a rest) := by
  constructor
  · intro h
    refine ⟨h [] text rest rfl (by simp), fun hfree before other after heq hbefore => ?_⟩
    refine h (text :: before) other after (by rw [heq]; rfl) ?_
    rw [List.forall_mem_cons]
    exact ⟨hfree, hbefore⟩
  · rintro ⟨htext, hrest⟩ before other after heq hbefore
    cases before with
    | nil =>
        obtain ⟨rfl, -⟩ := List.cons_eq_cons.mp heq
        exact htext
    | cons first before =>
        obtain ⟨rfl, htail⟩ := List.cons_eq_cons.mp heq
        rw [List.forall_mem_cons] at hbefore
        exact hrest hbefore.1 before other after htail hbefore.2

theorem declared_checkStatic_iff :
    Declared (checkStatic a texts) ↔ StaticsRead a texts := by
  induction texts with
  | nil =>
      refine iff_of_true (declared_ok ()) fun before text after heq => ?_
      simp at heq
  | cons text rest ih =>
      rw [staticsRead_cons_iff]
      by_cases hfree : StaticFree a text
      · obtain ⟨ip, hip, -⟩ := id hfree
        rw [checkStatic_cons_of_free hfree, ih]
        simp [hfree, hip]
      · rw [checkStatic]
        cases hip : parseIPv4 text with
        | none => exact iff_of_false not_declared_valueError (by simp)
        | some ip =>
            dsimp only
            split
            · exact iff_of_true (declared_refuse _) (by simp [hfree])
            · rename_i hclash
              exact absurd ⟨ip, hip, hclash⟩ hfree

end Static

section Validate

variable {python : Python}

-- The checks between the files and the relay's address accept.
structure AcceptedBefore (python : Python) (body : NetworkSettings) : Prop where
  routes : (cidrs body.routes true).isOk = true
  proxies : ∃ proxies, cidrs body.proxyCidrs false = .ok proxies ∧ proxies ≠ []
  domain : (optional (hostname python) body.gateway.domain).isOk = true
  openvpnHost : (optional (hostname python) body.gateway.openvpnHost).isOk = true
  relayHost : (optional (hostname python) body.gateway.relayHost).isOk = true
  openvpnBackend : (optional (backendUrl python) body.gateway.openvpnBackend).isOk = true

def OnlyDeclared (python : Python) (files : List StaticFile) (body : NetworkSettings) : Prop :=
  ∀ a, parseAddressing body = some a → validateDns body.dnsServers ≠ none →
    (∀ file ∈ files, file.Readable) ∧
    StaticsRead a (files.filterMap StaticFile.address) ∧
    ((∀ text ∈ files.filterMap StaticFile.address, StaticFree a text) →
      AcceptedBefore python body → PortReads python body.gateway.relayBackend)

theorem isOk_iff {α : Type} {result : Except Failure α} :
    result.isOk = true ↔ ∃ a, result = .ok a := by
  cases result with
  | error failure => simp [Except.isOk, Except.toBool]
  | ok a => simp [Except.isOk, Except.toBool]

theorem isOk_optional_withMessage (message : String)
    (value : Text) :
    (optional (fun value => withMessage message (check value)) value).isOk =
      (optional check value).isOk := by
  unfold optional
  split
  · rfl
  · dsimp only
    cases check value with
    | ok checked => rfl
    | error failure =>
        cases failure with
        | pki text => rfl
        | valueError => rfl

theorem declared_relayBackend_iff {message : String} :
    Declared (optional (fun value => withMessage message (hostPort python value)) value) ↔
      PortReads python value := by
  unfold optional
  split
  · rename_i hempty
    subst hempty
    exact iff_of_true (declared_ok []) fun hhost => absurd rfl hhost
  · rw [← declared_hostPort_iff]
    dsimp only
    cases hostPort python value with
    | ok port => exact iff_of_true (declared_ok port) (declared_ok port)
    | error failure =>
        cases failure with
        | pki text => exact iff_of_true (declared_refuse message) (declared_pki text)
        | valueError => exact iff_of_false not_declared_valueError not_declared_valueError

theorem declared_bind_of {α β : Type} {result : Except Failure α} {next : α → Except Failure β}
    {p : Prop} (hresult : Declared result)
    (h : ∀ a, result = .ok a → (Declared (next a) ↔ p)) :
    Declared (result >>= next) ↔ (result.isOk = true → p) := by
  rw [declared_bind_iff, isOk_iff]
  constructor
  · rintro ⟨-, hnext⟩ ⟨a, ha⟩
    exact (h a ha).mp (hnext a ha)
  · intro hp
    exact ⟨hresult, fun a ha => (h a ha).mpr (hp ⟨a, ha⟩)⟩

theorem declared_validateGateway_iff {gateway : Gateway} :
    Declared (validateGateway python gateway) ↔
      ((optional (hostname python) gateway.domain).isOk = true →
        (optional (hostname python) gateway.openvpnHost).isOk = true →
        (optional (hostname python) gateway.relayHost).isOk = true →
        (optional (backendUrl python) gateway.openvpnBackend).isOk = true →
        PortReads python gateway.relayBackend) := by
  unfold validateGateway
  refine declared_bind_of (declared_hostname _).optional fun domain _ => ?_
  refine declared_bind_of (declared_hostname _).optional fun openvpnHost _ => ?_
  refine declared_bind_of (declared_hostname _).optional fun relayHost _ => ?_
  rw [← isOk_optional_withMessage ("VPN server web address: enter an HTTP(S) URL with the web UI port, " ++
      "such as http://192.0.2.20:8080")]
  refine declared_bind_of ((declared_backendUrl _).withMessage _).optional fun backend _ => ?_
  rw [declared_bind_iff, declared_relayBackend_iff, and_iff_left_iff_imp]
  -- nothing behind the relay's address raises anything else
  intro _ relay _
  refine (declared_validateUrl _).optional.bind fun relayUrl => ?_
  refine (declared_portalListener _).optional.bind fun listener => ?_
  split
  · exact declared_refuse _
  · refine (declared_cidrs _ _).bind fun trusted => ?_
    refine (declared_mapM fun link => declared_validateGuestLink _ _ link).bind fun links => ?_
    exact (declared_validateServices _ _ _).bind fun services => declared_ok _

theorem validateAddressing_spec {data : NetworkSettings}
    (ha : parseAddressing body = some a) (hdns : validateDns body.dnsServers = some dns)
    (h : validateAddressing texts body = .ok data) :
    checkStatic a texts = .ok () ∧ (cidrs body.routes true).isOk = true ∧
      (∃ proxies, cidrs body.proxyCidrs false = .ok proxies ∧ proxies ≠ []) ∧
      data.gateway = body.gateway := by
  obtain ⟨_, _, routes, proxies, ha', -, hstatic, hroutes, hproxies, hne, rfl⟩ :=
    validateAddressing_eq_ok h
  cases ha.symm.trans ha'
  exact ⟨hstatic, isOk_iff.mpr ⟨routes, hroutes⟩, ⟨proxies, hproxies, hne⟩, rfl⟩

theorem declared_validateAddressing_iff
    (ha : parseAddressing body = some a)
    (hdns : validateDns body.dnsServers = some dns) :
    Declared (validateAddressing texts body) ↔ StaticsRead a texts := by
  rw [validateAddressing, ha, hdns]
  dsimp only
  rw [declared_bind_iff, declared_checkStatic_iff, and_iff_left_iff_imp]
  intro _ _ _
  refine (declared_cidrs _ _).bind fun routes => (declared_cidrs _ _).bind fun proxies => ?_
  split
  · exact declared_refuse _
  · exact declared_ok _

theorem validateAddressing_isOk
    (ha : parseAddressing body = some a) (hdns : validateDns body.dnsServers = some dns)
    (hstatic : ∀ text ∈ texts, StaticFree a text) (haccepted : AcceptedBefore python body) :
    ∃ data, validateAddressing texts body = .ok data := by
  obtain ⟨routes, hroutes⟩ := isOk_iff.mp haccepted.routes
  obtain ⟨proxies, hproxies, hne⟩ := haccepted.proxies
  rw [validateAddressing, ha, hdns]
  dsimp only
  rw [checkStatic_ok_iff.mpr hstatic, hroutes, hproxies]
  exact ⟨_, if_neg hne⟩

theorem declared_validate_iff
    (ha : parseAddressing body = some a) (hdns : validateDns body.dnsServers = some dns) :
    Declared (validate python texts body) ↔ StaticsRead a texts ∧
      ((∀ text ∈ texts, StaticFree a text) → AcceptedBefore python body →
        PortReads python body.gateway.relayBackend) := by
  have htail (data : NetworkSettings) : Declared (validateGateway python data.gateway >>=
      fun gateway => pure { data with gateway := gateway }) ↔
        Declared (validateGateway python data.gateway) := by
    rw [declared_bind_iff, and_iff_left_iff_imp]
    exact fun _ gateway _ => declared_ok _
  rw [validate, declared_bind_iff, declared_validateAddressing_iff ha hdns]
  refine and_congr_right fun _ => ?_
  constructor
  · intro h hstatic haccepted
    obtain ⟨data, hdata⟩ := validateAddressing_isOk ha hdns hstatic haccepted
    have hgateway := (htail data).mp (h data hdata)
    rw [(validateAddressing_spec ha hdns hdata).2.2.2, declared_validateGateway_iff] at hgateway
    exact hgateway haccepted.domain haccepted.openvpnHost haccepted.relayHost
      haccepted.openvpnBackend
  · intro h data hdata
    obtain ⟨hstatic, hroutes, hproxies, hgateway⟩ := validateAddressing_spec ha hdns hdata
    rw [htail, hgateway, declared_validateGateway_iff]
    intro hdomain hopenvpn hrelay hbackend
    exact h (checkStatic_ok_iff.mp hstatic)
      ⟨hroutes, hproxies, hdomain, hopenvpn, hrelay, hbackend⟩

theorem validate_only_declared_iff (python : Python) (files : List StaticFile)
    (body : NetworkSettings) :
    Declared (validateFiles python files body) ↔ OnlyDeclared python files body := by
  unfold validateFiles OnlyDeclared
  by_cases hrefused : parseAddressing body = none ∨ validateDns body.dnsServers = none
  · rw [if_pos hrefused]
    refine iff_of_true (declared_pki _) fun a ha hdns => ?_
    rcases hrefused with hnone | hnone
    · rw [hnone] at ha
      cases ha
    · exact absurd hnone hdns
  · rw [if_neg hrefused]
    rw [not_or] at hrefused
    obtain ⟨a, ha⟩ := Option.ne_none_iff_exists'.mp hrefused.1
    obtain ⟨dns, hdns⟩ := Option.ne_none_iff_exists'.mp hrefused.2
    rw [declared_bind_iff, declared_staticTexts_iff]
    constructor
    · rintro ⟨hreadable, hvalidate⟩ a' ha' -
      cases ha.symm.trans ha'
      exact ⟨hreadable, (declared_validate_iff ha hdns).mp (hvalidate _ (staticTexts_eq hreadable))⟩
    · intro h
      obtain ⟨hreadable, hvalidate⟩ := h a ha hrefused.2
      refine ⟨hreadable, fun texts htexts => ?_⟩
      cases (staticTexts_eq hreadable).symm.trans htexts
      exact (declared_validate_iff ha hdns).mpr hvalidate

def namedStatic : StaticFile where
  name := "alice".toList
  content := some (utf8 "ifconfig-push vpn-alice 255.255.255.0\n".toList)

theorem named_static_raises :
    validateFiles asciiPython [] (office ["127.0.0.1/32".toList]) =
        .ok (office ["127.0.0.1/32".toList]) ∧
      validateFiles asciiPython [namedStatic] (office ["127.0.0.1/32".toList]) =
        .error .valueError ∧
      ¬Declared (validateFiles asciiPython [namedStatic] (office ["127.0.0.1/32".toList])) := by
  have hraises : validateFiles asciiPython [namedStatic] (office ["127.0.0.1/32".toList]) =
      .error .valueError := by
    decide
  refine ⟨by decide, hraises, ?_⟩
  rw [hraises]
  exact not_declared_valueError

end Validate

end OpenvpnServer.Network
