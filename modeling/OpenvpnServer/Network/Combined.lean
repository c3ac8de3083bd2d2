import OpenvpnServer.Lib.Json
import OpenvpnServer.Network.AddressPlan.Theorems
import OpenvpnServer.Network.Remote

-- Saving the whole network form: the network settings, the relay's switch and URL,
-- and the address in client profiles.
namespace OpenvpnServer.Network

open OpenvpnServer.Lib

section Request

structure RelaySettings where
  enabled : Bool
  url : Text
  deriving DecidableEq, Repr

structure RemoteBody where
  host : Text
  ports : Dict Text Int

structure NetworkUpdate where
  settings : NetworkSettings
  relay : Option RelaySettings
  remote : Option RemoteBody

-- The files of the address plan, proxies.conf, client.conf and the setting
-- apple_relay of the database.
structure NetworkFiles where
  address : AddressState
  proxies : Option Text
  client : Text
  appleRelay : Option Text
  deriving DecidableEq

variable (host : Host)

-- `relay.validate_settings`
def validateRelay (body : RelaySettings) : Except Refusal RelaySettings :=
  match if pyStrip body.url = [] then .ok [] else validateUrl host.python body.url with
  | .error failure => .error (.ofFailure failure)
  | .ok url =>
      if body.enabled = true ∧ url = [] then
        .error (.pki "Enabling Apple relay profiles requires the relay's public HTTPS URL".toList)
      else .ok ⟨body.enabled, url⟩

def RelaySettings.toJson (config : RelaySettings) : Json :=
  .obj [("enabled".toList, .bool config.enabled), ("url".toList, .str config.url)]

-- `relay.save_settings`, which validates once more.
def saveRelay (body : RelaySettings) (s : NetworkFiles) : Except Refusal NetworkFiles :=
  match validateRelay host body with
  | .error refusal => .error refusal
  | .ok config => .ok { s with appleRelay := some (Json.dumpsSpaced config.toJson) }

-- `network.save_settings`: every check comes before the first write.
def saveNetwork (body : NetworkSettings) (s : NetworkFiles) : Except Refusal NetworkFiles :=
  match validateSettings host body s.address with
  | .error refusal => .error refusal
  | .ok data =>
      match writeSettings data s.address with
      | .error refusal => .error refusal
      | .ok address => .ok { s with address := address, proxies := some (proxiesConf data) }

-- `{item["proto"]: int(item["port"]) for item in current["remotes"]}`
def remoteNumbers (remotes : List Socket) : Option (List (Text × Nat)) :=
  remotes.mapM fun remote => (host.python.int remote.port).map (remote.proto.text, ·)

-- `ports.get(proto)`: of the remotes of one protocol the last one counts.
def numberOf (numbers : List (Text × Nat)) (proto : Text) : Option Nat :=
  (numbers.reverse.find? (·.1 = proto)).map Prod.snd

def remoteDiffers (body : RemoteBody) (current : PublicRemote) (numbers : List (Text × Nat)) :
    Bool :=
  current.host ≠ pyStrip body.host ||
    body.ports.entries.any fun entry => (numberOf numbers entry.1).map Int.ofNat ≠ some entry.2

def saveRemote (body : RemoteBody) (s : NetworkFiles) : Except Refusal NetworkFiles :=
  match remoteNumbers host (getRemote host.wide s.client).remotes with
  | none => .error .valueError
  | some numbers =>
      if remoteDiffers body (getRemote host.wide s.client) numbers = true then
        match setRemote host.wide host.python body.host body.ports s.address.serverConf
            s.client with
        | .error refusal => .error refusal
        | .ok client => .ok { s with client := client }
      else .ok s

def ifGiven {α : Type} (save : α → NetworkFiles → Except Refusal NetworkFiles) :
    Option α → NetworkFiles → Except Refusal NetworkFiles
  | none, s => .ok s
  | some body, s => save body s

-- What is validated before anything changes: the relay's configuration, or why not.
def checkUpdate (body : NetworkUpdate) (s : NetworkFiles) :
    Except Refusal (Option RelaySettings) := do
  let config ← body.relay.mapM (validateRelay host)
  match body.remote with
  | none => pure config
  | some remote =>
      let _ ← validateRemote host.wide host.python remote.host remote.ports s.address.serverConf
        s.client
      pure config

-- `body.gateway.relay_public_url = relay_config["url"]`
def withRelayUrl (settings : NetworkSettings) : Option RelaySettings → NetworkSettings
  | none => settings
  | some config => { settings with gateway.relayPublicUrl := config.url }

def putNetworkSettings (body : NetworkUpdate) (s : NetworkFiles) :
    Except Refusal Unit × NetworkFiles :=
  match checkUpdate host body s with
  | .error refusal => (.error refusal, s)
  | .ok config =>
      match saveNetwork host (withRelayUrl body.settings config) s with
      | .error refusal => (.error refusal, s)
      | .ok saved =>
          match ifGiven (saveRelay host) body.relay saved with
          | .error refusal => (.error refusal, saved)
          | .ok relayed =>
              match ifGiven (saveRemote host) body.remote relayed with
              | .error refusal => (.error refusal, relayed)
              | .ok s => (.ok (), s)

end Request

section Saved

variable (host : Host)

-- What the request writes before it turns to the profiles: the relay's configuration,
-- the network settings and the text of server.conf.
structure Saves (body : NetworkUpdate) (s : NetworkFiles) (config : Option RelaySettings)
    (data : NetworkSettings) (conf : Text) : Prop where
  checked : checkUpdate host body s = .ok config
  valid : validateSettings host (withRelayUrl body.settings config) s.address = .ok data
  text : ∃ lines, serverConfLines s.address.serverConf data = some lines ∧
    serverConfText (confContent lines) = .ok conf

def relayText (config : RelaySettings) : Text := Json.dumpsSpaced config.toJson

def savedFiles (s : NetworkFiles) (config : Option RelaySettings) (data : NetworkSettings)
    (conf : Text) : NetworkFiles where
  address := { s.address with serverConf := conf, settings := some (settingsConf data) }
  proxies := some (proxiesConf data)
  client := s.client
  appleRelay := (config.map relayText).or s.appleRelay

variable {host : Host} {body : NetworkUpdate} {s : NetworkFiles} {config : Option RelaySettings}
  {data : NetworkSettings} {conf : Text}

theorem writeSettings_eq_ok {address saved : AddressState} :
    writeSettings data address = .ok saved ↔
      ∃ lines conf, serverConfLines address.serverConf data = some lines ∧
        serverConfText (confContent lines) = .ok conf ∧
        saved = { address with serverConf := conf, settings := some (settingsConf data) } := by
  unfold writeSettings
  cases hlines : serverConfLines address.serverConf data with
  | none => simp
  | some lines =>
      dsimp only
      have htext : joinWith '\n' lines ++ ['\n'] = confContent lines := rfl
      rw [htext]
      cases hconf : serverConfText (confContent lines) with
      | error message => simp [hconf]
      | ok conf => simp [hconf, eq_comm]

theorem checkUpdate_eq_ok (h : checkUpdate host body s = .ok config) :
    body.relay.mapM (validateRelay host) = .ok config ∧
      ∀ remote, body.remote = some remote → validHost (pyStrip remote.host) = true := by
  unfold checkUpdate at h
  cases hrelay : body.relay.mapM (validateRelay host) with
  | error refusal =>
      rw [hrelay] at h
      cases h
  | ok checked =>
      rw [hrelay] at h
      cases hremote : body.remote with
      | none =>
          rw [hremote] at h
          exact ⟨h, by simp⟩
      | some remote =>
          rw [hremote] at h
          have hvalid : ∃ remotes, validateRemote host.wide host.python remote.host remote.ports
              s.address.serverConf s.client = .ok remotes := by
            cases hcheck : validateRemote host.wide host.python remote.host remote.ports
                s.address.serverConf s.client with
            | error refusal =>
                simp only [hcheck] at h
                cases h
            | ok remotes => exact ⟨remotes, rfl⟩
          obtain ⟨remotes, hcheck⟩ := hvalid
          simp only [hcheck] at h
          refine ⟨h, fun other hother => ?_⟩
          obtain rfl := Option.some.inj hother
          by_contra hhost
          unfold validateRemote at hcheck
          rw [if_pos (by simpa using hhost)] at hcheck
          cases hcheck

theorem saveRelay_checked (hconfig : body.relay.mapM (validateRelay host) = .ok config) :
    ifGiven (saveRelay host) body.relay s =
      .ok { s with appleRelay := (config.map relayText).or s.appleRelay } := by
  cases hrelay : body.relay with
  | none =>
      rw [hrelay] at hconfig
      cases hconfig
      rfl
  | some relay =>
      rw [hrelay] at hconfig
      cases hvalid : validateRelay host relay with
      | error refusal =>
          change some <$> validateRelay host relay = _ at hconfig
          rw [hvalid] at hconfig
          cases hconfig
      | ok checked =>
          change some <$> validateRelay host relay = _ at hconfig
          rw [hvalid] at hconfig
          cases hconfig
          simp only [ifGiven, saveRelay, hvalid]
          rfl

theorem putNetworkSettings_of_saves (h : Saves host body s config data conf) :
    putNetworkSettings host body s =
      match ifGiven (saveRemote host) body.remote (savedFiles s config data conf) with
      | .error refusal => (.error refusal, savedFiles s config data conf)
      | .ok s => (.ok (), s) := by
  obtain ⟨lines, hlines, hconf⟩ := h.text
  have hwrite := writeSettings_eq_ok.mpr ⟨lines, conf, hlines, hconf, rfl⟩
  have hsaved : saveNetwork host (withRelayUrl body.settings config) s =
      .ok (savedFiles s none data conf) := by
    simp only [saveNetwork, h.valid, hwrite]
    rfl
  have hrelay : ifGiven (saveRelay host) body.relay (savedFiles s none data conf) =
      .ok (savedFiles s config data conf) := saveRelay_checked (checkUpdate_eq_ok h.checked).1
  simp only [putNetworkSettings, h.checked, hsaved, hrelay]

theorem putNetworkSettings_unsaved (h : ∀ config data conf, ¬Saves host body s config data conf) :
    (putNetworkSettings host body s).2 = s := by
  unfold putNetworkSettings
  cases hcheck : checkUpdate host body s with
  | error refusal => rfl
  | ok config =>
      have hrefused : ∃ refusal, saveNetwork host (withRelayUrl body.settings config) s =
          .error refusal := by
        unfold saveNetwork
        cases hvalid : validateSettings host (withRelayUrl body.settings config) s.address with
        | error refusal => exact ⟨refusal, rfl⟩
        | ok data =>
            cases hwrite : writeSettings data s.address with
            | error refusal => exact ⟨refusal, by simp only [hwrite]⟩
            | ok address =>
                obtain ⟨lines, conf, hlines, hconf, -⟩ := writeSettings_eq_ok.mp hwrite
                exact absurd ⟨hcheck, hvalid, lines, hlines, hconf⟩ (h config data conf)
      obtain ⟨refusal, hrefused⟩ := hrefused
      simp only [hrefused]

end Saved

section AllOrNothing

structure SameFiles (s next : NetworkFiles) : Prop where
  serverConf : next.address.serverConf = s.address.serverConf
  settings : next.address.settings = s.address.settings
  proxies : next.proxies = s.proxies
  client : next.client = s.client
  appleRelay : next.appleRelay = s.appleRelay

variable (host : Host)

-- A request that ends in a `PkiError` leaves everything as it was.
def AllOrNothing (body : NetworkUpdate) (s : NetworkFiles) : Prop :=
  ∀ message, (putNetworkSettings host body s).1 = .error (.pki message) →
    SameFiles s (putNetworkSettings host body s).2

def profileWith (remote : RemoteBody) (conf client : Text) : List Text :=
  (profileLines client).take (clientIndex (profileLines client)) ++
    ((sortedListen host.wide conf).map fun socket =>
      remoteLine (pyStrip remote.host) (remotePort host.wide remote.ports client socket)
        socket.proto) ++
    (profileLines client).drop (clientIndex (profileLines client))

-- No port is refused for the sockets of this server.conf, and the new client.conf is not
-- too large. A port that `int` cannot read ends the request otherwise.
def RemoteFits (remote : RemoteBody) (conf client : Text) : Prop :=
  match checkPorts host.python (remotePort host.wide remote.ports client)
      (sortedListen host.wide conf) with
  | .ok () => (confContent (profileWith host remote conf client)).length ≤ 200000
  | .error (.pki _) => False
  | .error _ => True

def AsksRemote (remote : RemoteBody) (client : Text) : Prop :=
  ∃ numbers, remoteNumbers host (getRemote host.wide client).remotes = some numbers ∧
    remoteDiffers remote (getRemote host.wide client) numbers = true

structure AlreadySaved (s : NetworkFiles) (config : Option RelaySettings) (data : NetworkSettings)
    (conf : Text) : Prop where
  serverConf : s.address.serverConf = conf
  settings : s.address.settings = some (settingsConf data)
  proxies : s.proxies = some (proxiesConf data)
  appleRelay : ∀ relay ∈ config, s.appleRelay = some (relayText relay)

-- A new address fits the server.conf that the same request writes, unless that request
-- writes nothing new before.
def LateChecksPass (body : NetworkUpdate) (s : NetworkFiles) : Prop :=
  ∀ config data conf, Saves host body s config data conf →
    ∀ remote, body.remote = some remote → AsksRemote host remote s.client →
      RemoteFits host remote conf s.client ∨ AlreadySaved s config data conf

variable {host : Host} {body : NetworkUpdate} {s : NetworkFiles} {config : Option RelaySettings}
  {data : NetworkSettings} {conf : Text} {remote : RemoteBody}

theorem SameFiles.refl (s : NetworkFiles) : SameFiles s s := ⟨rfl, rfl, rfl, rfl, rfl⟩

theorem sameFiles_saved_iff :
    SameFiles s (savedFiles s config data conf) ↔ AlreadySaved s config data conf := by
  constructor
  · intro h
    refine ⟨h.serverConf.symm, h.settings.symm, h.proxies.symm, fun relay hrelay => ?_⟩
    have hsame := h.appleRelay
    rw [Option.mem_def.mp hrelay] at hsame
    exact hsame.symm
  · intro h
    refine ⟨h.serverConf.symm, h.settings.symm, h.proxies.symm, rfl, ?_⟩
    cases config with
    | none => rfl
    | some relay => exact (h.appleRelay relay rfl).symm

theorem setRemote_refused_iff (hhost : validHost (pyStrip remote.host) = true) (client : Text) :
    (∃ message, setRemote host.wide host.python remote.host remote.ports conf client =
        .error (.pki message)) ↔ ¬RemoteFits host remote conf client := by
  unfold setRemote validateRemote RemoteFits
  rw [if_neg (by simp [hhost])]
  cases hports : checkPorts host.python (remotePort host.wide remote.ports client)
      (sortedListen host.wide conf) with
  | error refusal => cases refusal <;> simp
  | ok =>
      dsimp only
      change (∃ message, clientConfText (confContent (profileWith host remote conf client)) =
        .error (.pki message)) ↔ _
      unfold clientConfText
      by_cases hlong : 200000 < (confContent (profileWith host remote conf client)).length
      · rw [if_pos hlong]
        simp [Nat.not_le_of_lt hlong]
      · rw [if_neg hlong]
        simp [Nat.le_of_not_lt hlong]

theorem saveRemote_refused_iff (hhost : validHost (pyStrip remote.host) = true) :
    (∃ message, saveRemote host remote s = .error (.pki message)) ↔
      AsksRemote host remote s.client ∧ ¬RemoteFits host remote s.address.serverConf s.client := by
  rw [← setRemote_refused_iff hhost]
  unfold saveRemote AsksRemote
  cases hnumbers : remoteNumbers host (getRemote host.wide s.client).remotes with
  | none => simp
  | some numbers =>
      by_cases hdiffers : remoteDiffers remote (getRemote host.wide s.client) numbers = true
      · cases hset : setRemote host.wide host.python remote.host remote.ports s.address.serverConf
          s.client with
        | error refusal => simp [hdiffers]
        | ok client => simp [hdiffers]
      · simp [hdiffers]

-- A comment of server.conf with a line separator that `splitlines` knows and the pattern
-- of the port does not: the save makes an option of what follows it.
def separatorConf : Text :=
  unlines ["management 127.0.0.1 2080".toList, "# old\u2028port 99999".toList]

def officeFiles : NetworkFiles where
  address := { officeState with serverConf := separatorConf }
  proxies := none
  client := "client\n".toList
  appleRelay := none

def movedOffice : NetworkUpdate where
  settings := office ["127.0.0.1/32".toList]
  relay := none
  remote := some ⟨"vpn.example.com".toList, .empty⟩

end AllOrNothing

end OpenvpnServer.Network
