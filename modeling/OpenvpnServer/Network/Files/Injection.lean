import OpenvpnServer.Lib.Ipaddress.Networks
import OpenvpnServer.Lib.Lines
import OpenvpnServer.Network.Theorems

-- A proxy address is written into settings.conf as it is, and the scope of an
-- IPv6 one can hold line breaks. What a reader finds then depends on the words
-- that the scope puts at the beginning of a line.
namespace OpenvpnServer.Network

open OpenvpnServer.Lib OpenvpnServer.Lib.Ipaddress OpenvpnServer.Lib.Netip

def jsonKey : Text := "NETWORK_JSON=".toList

-- No proxy address has a line that Python takes for the saved settings.
def keepsJson (body : NetworkSettings) : Prop :=
  ∀ cidr ∈ body.proxyCidrs, ¬BeginsLine jsonKey (pyStrip cidr)

instance (body : NetworkSettings) : Decidable (keepsJson body) := by
  unfold keepsJson
  infer_instance

variable {body data : NetworkSettings} {networks : List IpNetwork}

theorem beginsLine_scope {word : Text} (hslash : '/' ∉ word) (hpercent : '%' ∉ word)
    {net : IpNetwork} (h : BeginsLine word net.str) : BeginsLine word net.scope := by
  obtain ⟨c, hc, hinside⟩ := id h
  have hscope := lineBreak_of_mem_str (hinside.subset List.mem_cons_self) hc
  cases net with
  | v4 net => cases hscope
  | v6 net scope =>
      have hne : scope ≠ [] := List.ne_nil_of_mem hscope
      rw [IpNetwork.str, withScope, if_neg hne] at h
      rcases h.of_append_cons (by decide) hslash with haddress | hbits
      · rcases haddress.of_append_cons (by decide) hpercent with haddress | hscope
        · exact absurd haddress (not_beginsLine fun c hc =>
            lineBreak_of_netChar (netChar_of_mem_ipv6String hc))
        · exact hscope
      · exact absurd hbits (not_beginsLine fun c hc =>
          lineBreak_of_netChar (netChar_of_mem_decimal hc))

theorem Validated.not_beginsLine_proxies (h : Validated body data networks)
    (hkeeps : keepsJson body) : ¬BeginsLine jsonKey (joinWith ' ' data.proxyCidrs) := by
  intro hbegins
  obtain ⟨text, htext, hline⟩ := hbegins.of_joinWith (by decide) (by decide)
  rw [h.proxyCidrs] at htext
  obtain ⟨net, hnet, rfl⟩ := List.mem_map.mp (mem_fromKeys.mp htext)
  obtain ⟨cidr, hcidr, hread⟩ := exists_of_mem_mapM (mapM_of_cidrNetworks h.parsed) hnet
  have hscope := beginsLine_scope (by decide) (by decide) hline
  exact hkeeps cidr hcidr (hscope.mono (scope_inside hread))

def readLines (line : Text) : List Text := splitlines (universalNewlines line)

theorem find?_append_newline {p : Text → Bool} {before : Text} (after : Text)
    (h : ∀ line ∈ readLines before, p line = false) :
    (readLines (before ++ '\n' :: after)).find? p = (readLines after).find? p := by
  have hsplit : ∀ text more : Text,
      splitlines (text ++ '\n' :: more) = splitlines text ++ splitlines more :=
    fun text more => List.splitOnP_append_cons text more (by decide)
  obtain ⟨lines, heq, hlines⟩ := universalNewlines_append_newline before after
  have hbefore : ∀ line ∈ splitlines lines, p line = false := by
    intro line hline
    apply h
    unfold readLines
    rcases hlines with rfl | hlines
    · exact hline
    · rw [← hlines, hsplit]
      exact List.mem_append_left _ hline
  unfold readLines
  rw [heq, hsplit, List.find?_append, List.find?_eq_none.mpr (by simpa using hbefore),
    Option.none_or]

theorem not_json_line {key : String} {value : Text} (hkey : '=' ∉ key.toList)
    (hne : key ≠ "NETWORK_JSON") (hbegins : ¬BeginsLine jsonKey (lineOf (key, value))) :
    ∀ line ∈ readLines (lineOf (key, value)), jsonKey.isPrefixOf line = false := by
  intro line hline
  rw [Bool.eq_false_iff, ne_eq, List.isPrefixOf_iff_prefix]
  intro hprefix
  have hnewline : '\n' ∉ jsonKey := by decide
  rcases prefix_or_beginsLine hline hprefix with hfirst | hlater
  · have hword := prefix_of_universalNewlines hnewline hfirst
    have hsame : jsonKey.isPrefixOf (lineOf (key, value)) = decide ("NETWORK_JSON" = key) :=
      @isPrefixOf_lineOf "NETWORK_JSON" key (by decide) hkey value
    rw [List.isPrefixOf_iff_prefix.mpr hword] at hsame
    exact hne (of_decide_eq_true hsame.symm).symm
  · exact hbegins (hlater.of_universalNewlines hnewline)

theorem Validated.not_beginsLine_field (h : Validated body data networks)
    (hkeeps : keepsJson body) {field : String × Text} (hfield : field ∈ settingFields data) :
    ¬BeginsLine jsonKey (lineOf field) := by
  by_cases hkey : field.1 = "PROXY_CIDRS"
  · intro hbegins
    rw [lineOf, hkey, value_of_proxies hfield hkey] at hbegins
    have hname : ∀ c ∈ "PROXY_CIDRS=".toList, lineBreak c = false :=
      lineBreak_of_printable (Json.printable_of_all (by decide))
    have hspell : "PROXY_CIDRS".toList ++ '=' :: joinWith ' ' data.proxyCidrs =
        "PROXY_CIDRS=".toList ++ joinWith ' ' data.proxyCidrs := rfl
    rw [hspell] at hbegins
    exact h.not_beginsLine_proxies hkeeps (hbegins.of_append hname)
  · exact not_beginsLine (lineBreak_of_printable (h.printable_others field hfield hkey))

theorem Validated.readNetwork_of_keepsJson (h : Validated body data networks)
    (hkeeps : keepsJson body) : readNetwork (some (settingsConf data)) = .ok data.toJson := by
  have hothers : ∀ field ∈ settingFields data, field.1 ≠ "NETWORK_JSON" →
      '=' ∉ field.1.toList → ∀ line ∈ readLines (lineOf field), jsonKey.isPrefixOf line = false :=
    fun field hfield hne hkey => not_json_line hkey hne (h.not_beginsLine_field hkeeps hfield)
  have hjson : PrintableFields [("NETWORK_JSON", data.toJson.dumps)] := by
    intro field hfield
    rw [List.mem_singleton.mp hfield]
    exact printable_lineOf (Json.printable_of_all (by decide))
      (Json.printable_dumps _ (wellFormed_toJson data))
  have hlast := splitlines_settings hjson
  simp only [settingFields, List.forall_mem_cons] at hothers
  obtain ⟨htrust, hguest, hproxies, hportal, -⟩ := hothers
  have hfile : settingsConf data = lineOf ("TRUST_SUB", data.vpnSubnet) ++ '\n' ::
      (lineOf ("GUEST_SUB", data.guestSubnet) ++ '\n' ::
        (lineOf ("PROXY_CIDRS", joinWith ' ' data.proxyCidrs) ++ '\n' ::
          (lineOf ("GUEST_PORTAL_TARGET", data.gateway.portalListener) ++ '\n' ::
            [("NETWORK_JSON", data.toJson.dumps)].flatMap fun field =>
              settingLine field.1 field.2))) := by
    simp [settingsConf, settingFields, settingLine_eq]
  have hfind : (readLines (settingsConf data)).find? (jsonKey.isPrefixOf ·) =
      some (lineOf ("NETWORK_JSON", data.toJson.dumps)) := by
    rw [hfile, find?_append_newline _ (htrust (by decide) (by decide)),
      find?_append_newline _ (hguest (by decide) (by decide)),
      find?_append_newline _ (hproxies (by decide) (by decide)),
      find?_append_newline _ (hportal (by decide) (by decide)), readLines, hlast]
    have hsame : jsonKey.isPrefixOf (lineOf ("NETWORK_JSON", data.toJson.dumps)) = true :=
      @isPrefixOf_lineOf "NETWORK_JSON" "NETWORK_JSON" (by decide) (by decide) data.toJson.dumps
    exact List.find?_cons_of_pos hsame
  have hlength : "NETWORK_JSON=".length = "NETWORK_JSON".toList.length + 1 := by decide
  unfold readLines jsonKey at hfind
  unfold readNetwork
  simp only [hfind, hlength, drop_lineOf, Json.loads_dumps (wellFormed_toJson data)]

theorem shellLines_append_newline (before after : Text) :
    ∃ lines, shellLines (before ++ '\n' :: after) = lines ++ shellLines after := by
  refine ⟨(before.filter (· ≠ '\x00')).splitOn '\n', ?_⟩
  unfold shellLines
  rw [List.filter_append, List.filter_cons_of_pos (by decide)]
  simp only [List.splitOn_eq_splitOnP]
  rw [List.splitOnP_append_cons _ _ (by decide),
    List.dropLast_append_of_ne_nil (List.splitOnP_ne_nil _ _)]

-- The last assignment of a variable counts, and no proxy is written after the
-- portal target, so the shell finds it whatever the proxies are.
theorem Validated.guestPortalTarget_settingsConf (h : Validated body data networks)
    (vars : ShellVars) :
    ((shellLines (settingsConf data)).foldl ShellVars.assign vars).guestPortalTarget =
      data.gateway.portalListener := by
  have hportal : Json.Printable (lineOf ("GUEST_PORTAL_TARGET", data.gateway.portalListener)) :=
    h.printable_others _ (by simp [settingFields]) (by dsimp only; decide)
  have hjson : Json.Printable (lineOf ("NETWORK_JSON", data.toJson.dumps)) :=
    h.printable_others _ (by simp [settingFields]) (by dsimp only; decide)
  have hlast : PrintableFields [("GUEST_PORTAL_TARGET", data.gateway.portalListener),
      ("NETWORK_JSON", data.toJson.dumps)] := by
    intro field hfield
    simp only [List.mem_cons, List.not_mem_nil, or_false] at hfield
    rcases hfield with rfl | rfl
    · exact hportal
    · exact hjson
  obtain ⟨before, hbefore⟩ : ∃ before, settingsConf data = before ++ '\n' ::
      [("GUEST_PORTAL_TARGET", data.gateway.portalListener),
        ("NETWORK_JSON", data.toJson.dumps)].flatMap fun field => settingLine field.1 field.2 :=
    ⟨lineOf ("TRUST_SUB", data.vpnSubnet) ++ '\n' :: (lineOf ("GUEST_SUB", data.guestSubnet) ++
      '\n' :: lineOf ("PROXY_CIDRS", joinWith ' ' data.proxyCidrs)), by
      simp [settingsConf, settingFields, settingLine_eq]⟩
  have hlines : ∃ lines, shellLines (settingsConf data) = lines ++
      shellLines ([("GUEST_PORTAL_TARGET", data.gateway.portalListener),
        ("NETWORK_JSON", data.toJson.dumps)].flatMap fun field => settingLine field.1 field.2) := by
    rw [hbefore]
    exact shellLines_append_newline _ _
  obtain ⟨lines, hlines⟩ := hlines
  rw [hlines, shellLines_settings hlast, List.foldl_append]
  simp only [List.map_cons, List.map_nil, List.foldl_cons, List.foldl_nil, assign_json,
    assign_target (equals_not_mem (netChar_of_listener h.listener))]

end OpenvpnServer.Network
