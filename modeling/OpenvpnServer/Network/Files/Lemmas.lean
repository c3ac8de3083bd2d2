import OpenvpnServer.Lib.Ipaddress.Roundtrip
import OpenvpnServer.Lib.Json.Lemmas
import OpenvpnServer.Lib.Lines
import OpenvpnServer.Network.Files

namespace OpenvpnServer.Network

open OpenvpnServer.Lib OpenvpnServer.Lib.Ipaddress OpenvpnServer.Lib.Netip

variable {text value : Text} {fields : List (String × Text)} {key : String}

section Lines

open Json (Printable)

theorem printable_ne (h : Printable text) {c : Char}
    (hc : c.toNat < 32 ∨ 126 < c.toNat) : c ∉ text := by
  intro hmem
  have hrange := h c hmem
  omega

theorem universalNewlines_of_not_mem (h : '\r' ∉ text) :
    universalNewlines text = text := by
  induction text using universalNewlines.induct with
  | case1 rest ih => simp at h
  | case2 rest hne ih => simp at h
  | case3 c rest hcrlf hcr ih =>
      rw [List.mem_cons, not_or] at h
      rw [universalNewlines.eq_3 c rest hcrlf hcr, ih h.2]
  | case4 => rfl

def lineOf (field : String × Text) : Text := field.1.toList ++ '=' :: field.2

def PrintableFields (fields : List (String × Text)) : Prop :=
  ∀ field ∈ fields, Printable (lineOf field)

theorem settingLine_eq (field : String × Text) :
    settingLine field.1 field.2 = lineOf field ++ ['\n'] := rfl

theorem lineBreak_of_printable (h : Printable text) :
    ∀ c ∈ text, lineBreak c = false := by
  intro c hc
  have hrange := h c hc
  simp only [lineBreak, List.mem_cons, List.not_mem_nil, or_false, Bool.or_eq_false_iff,
    Bool.and_eq_false_iff, decide_eq_false_iff_not]
  omega

theorem splitOnP_settings {p : Char → Bool}
    (hnewline : p '\n' = true) (h : ∀ field ∈ fields, ∀ c ∈ lineOf field, p c = false) :
    (fields.flatMap fun field => settingLine field.1 field.2).splitOnP p =
      fields.map lineOf ++ [[]] := by
  induction fields with
  | nil => rfl
  | cons field rest ih =>
      have hfield := h field List.mem_cons_self
      rw [List.flatMap_cons, settingLine_eq, List.append_assoc, List.singleton_append,
        List.splitOnP_append_cons_of_forall_mem hfield '\n' hnewline,
        ih fun other ho => h other (List.mem_cons_of_mem _ ho)]
      rfl

-- Also a line with control characters is read as one, if none ends a line.
def UnbrokenFields (fields : List (String × Text)) : Prop :=
  ∀ field ∈ fields, ∀ c ∈ lineOf field, lineBreak c = false

theorem PrintableFields.unbroken (h : PrintableFields fields) :
    UnbrokenFields fields := fun field hfield => lineBreak_of_printable (h field hfield)

theorem splitlines_unbroken (h : UnbrokenFields fields) :
    splitlines (universalNewlines (fields.flatMap fun field => settingLine field.1 field.2)) =
      fields.map lineOf ++ [[]] := by
  have hcr : '\r' ∉ fields.flatMap fun field => settingLine field.1 field.2 := by
    intro hmem
    obtain ⟨field, hfield, hline⟩ := List.mem_flatMap.mp hmem
    rw [settingLine_eq, List.mem_append, List.mem_singleton] at hline
    rcases hline with hline | heq
    · exact absurd (h field hfield _ hline) (by decide)
    · exact absurd heq (by decide)
  rw [universalNewlines_of_not_mem hcr]
  exact splitOnP_settings (by decide) h

theorem splitlines_settings (h : PrintableFields fields) :
    splitlines (universalNewlines (fields.flatMap fun field => settingLine field.1 field.2)) =
      fields.map lineOf ++ [[]] :=
  splitlines_unbroken h.unbroken

def withoutNul (text : Text) : Text := text.filter (· ≠ '\x00')

theorem shellLines_unbroken (h : UnbrokenFields fields) :
    shellLines (fields.flatMap fun field => settingLine field.1 field.2) =
      fields.map fun field => withoutNul (lineOf field) := by
  have hfilter : (fields.flatMap fun field => settingLine field.1 field.2).filter (· ≠ '\x00') =
      (fields.map fun field => withoutNul (lineOf field)).flatMap fun line => line ++ ['\n'] := by
    rw [List.filter_flatMap, List.flatMap_map]
    refine List.flatMap_congr fun field _ => ?_
    rw [settingLine_eq, List.filter_append]
    rfl
  unfold shellLines
  rw [hfilter, splitOn_lines, List.dropLast_concat]
  intro line hline
  obtain ⟨field, hfield, rfl⟩ := List.mem_map.mp hline
  intro hmem
  exact absurd (h field hfield _ (List.mem_filter.mp hmem).1) (by decide)

theorem withoutNul_of_printable (h : Printable text) : withoutNul text = text := by
  rw [withoutNul, List.filter_eq_self]
  intro c hc
  rw [decide_eq_true_eq]
  rintro rfl
  exact printable_ne h (by decide) hc

theorem shellLines_settings (h : PrintableFields fields) :
    shellLines (fields.flatMap fun field => settingLine field.1 field.2) = fields.map lineOf := by
  rw [shellLines_unbroken h.unbroken]
  exact List.map_congr_left fun field hfield => withoutNul_of_printable (h field hfield)

end Lines

section Shell

theorem isPrefixOf_lineOf {key other : String} (hkey : '=' ∉ key.toList)
    (hother : '=' ∉ other.toList) (value : Text) :
    (key.toList ++ ['=']).isPrefixOf (lineOf (other, value)) = decide (key = other) := by
  rw [Bool.eq_iff_iff, List.isPrefixOf_iff_prefix, decide_eq_true_eq]
  constructor
  · rintro ⟨rest, hrest⟩
    have hcut := cutFirst_append_cons hother value
    change cutFirst '=' (lineOf (other, value)) = _ at hcut
    rw [← hrest, List.append_assoc, List.singleton_append, cutFirst_append_cons hkey rest] at hcut
    simp only [Option.some.injEq, Prod.mk.injEq] at hcut
    exact String.toList_injective hcut.1
  · rintro rfl
    exact ⟨value, by simp [lineOf]⟩

theorem drop_lineOf (key : String) (value : Text) :
    (lineOf (key, value)).drop (key.toList.length + 1) = value := by
  simp [lineOf, List.drop_append]

theorem find?_settings (data : NetworkSettings) :
    ((settingFields data).map lineOf ++ [[]]).find? ("NETWORK_JSON=".toList.isPrefixOf ·) =
      some (lineOf ("NETWORK_JSON", data.toJson.dumps)) := by
  have hkey : "NETWORK_JSON=".toList = "NETWORK_JSON".toList ++ ['='] := by decide
  have hline : ∀ (key : String) (value : Text), '=' ∉ key.toList →
      "NETWORK_JSON=".toList.isPrefixOf (lineOf (key, value)) = decide ("NETWORK_JSON" = key) := by
    intro key value hmem
    rw [hkey]
    exact isPrefixOf_lineOf (by decide) hmem value
  simp only [settingFields, List.map_cons, List.map_nil, List.cons_append]
  rw [List.find?_cons_of_neg (by rw [hline _ _ (by decide)]; decide),
    List.find?_cons_of_neg (by rw [hline _ _ (by decide)]; decide),
    List.find?_cons_of_neg (by rw [hline _ _ (by decide)]; decide),
    List.find?_cons_of_neg (by rw [hline _ _ (by decide)]; decide),
    List.find?_cons_of_pos (by rw [hline _ _ (by decide)]; decide)]

theorem shellRead_lineOf (hkey : '=' ∉ key.toList) :
    (shellRead (lineOf (key, value))).1 = key.toList := by
  unfold shellRead lineOf
  rw [cutFirst_append_cons hkey]
  dsimp only
  split <;> rfl

theorem shellRead_plain (hkey : '=' ∉ key.toList)
    (hvalue : '=' ∉ value) : shellRead (lineOf (key, value)) = (key.toList, value) := by
  unfold shellRead lineOf
  rw [cutFirst_append_cons hkey]
  simp only [cutFirst_of_not_mem hvalue]

theorem assign_target {portal : Text} (hportal : '=' ∉ portal) (v : ShellVars) :
    v.assign (lineOf ("GUEST_PORTAL_TARGET", portal)) = { v with guestPortalTarget := portal } := by
  unfold ShellVars.assign
  rw [shellRead_plain (by decide) hportal]
  rfl

theorem assign_other (heq : '=' ∉ key.toList)
    (hkey : key.toList ∉ ["TRUST_SUB".toList, "GUEST_SUB".toList, "GUEST_PORTAL_TARGET".toList])
    (value : Text) (v : ShellVars) : v.assign (lineOf (key, value)) = v := by
  simp only [List.mem_cons, List.not_mem_nil, or_false, not_or] at hkey
  unfold ShellVars.assign
  simp only [shellRead_lineOf heq, if_neg hkey.1, if_neg hkey.2.1, if_neg hkey.2.2]

theorem assign_json (value : Text) (v : ShellVars) :
    v.assign (lineOf ("NETWORK_JSON", value)) = v := assign_other (by decide) (by decide) value v

theorem foldl_assign_fields {vpn guest portal : Text} (hvpn : '=' ∉ vpn) (hguest : '=' ∉ guest)
    (hportal : '=' ∉ portal) (proxies json : Text) (vars : ShellVars) :
    ([("TRUST_SUB", vpn), ("GUEST_SUB", guest), ("PROXY_CIDRS", proxies),
      ("GUEST_PORTAL_TARGET", portal), ("NETWORK_JSON", json)].map lineOf).foldl
        ShellVars.assign vars = ⟨vpn, guest, portal⟩ := by
  have htrust : ∀ v : ShellVars, v.assign (lineOf ("TRUST_SUB", vpn)) =
      { v with trustSub := vpn } := by
    intro v
    unfold ShellVars.assign
    rw [shellRead_plain (by decide) hvpn]
    rfl
  have hsub : ∀ v : ShellVars, v.assign (lineOf ("GUEST_SUB", guest)) =
      { v with guestSub := guest } := by
    intro v
    unfold ShellVars.assign
    rw [shellRead_plain (by decide) hguest]
    rfl
  have hproxies : ∀ v : ShellVars, v.assign (lineOf ("PROXY_CIDRS", proxies)) = v :=
    assign_other (by decide) (by decide) proxies
  simp only [List.map_cons, List.map_nil, List.foldl_cons, List.foldl_nil, htrust, hsub, hproxies,
    assign_target hportal, assign_json]

theorem portalIpv4_dotted {ip : BitVec 32} (h : isUnicast ip = true) :
    portalIpv4 (dotted ip.toNat) = true := by
  have hmod : ∀ m, m % 256 < 256 := fun m => Nat.mod_lt m (by decide)
  unfold portalIpv4
  rw [splitOn_dotted]
  simp only [List.mapM_cons, List.mapM_nil, parseOctet_decimal (hmod _), Option.pure_def,
    Option.bind_eq_bind, Option.bind_some]
  exact h

theorem portalPort_decimal {n : Nat} (hlow : 1024 ≤ n) (hhigh : n ≤ 65535) :
    portalPort (decimal n) = true := by
  have hhead : (decimal n).head? ≠ some '0' := by
    intro hzero
    have := head?_decimal hzero
    omega
  have hle : (decimal n).length ≤ 5 :=
    (Nat.length_toDigits_le_iff (by decide) (by decide)).mpr (by omega)
  have hge : ¬(decimal n).length ≤ 3 := by
    intro hshort
    have := (Nat.length_toDigits_le_iff (b := 10) (by decide) (by decide)).mp hshort
    omega
  have hlen : (decimal n).length = 4 ∨ (decimal n).length = 5 := by omega
  unfold portalPort
  rw [decimal?_decimal]
  simp [hhead, hlen, hhigh]

-- A guest portal listener that is empty or as `portal_listener` prints it.
def ValidListener (target : Text) : Prop :=
  target = [] ∨ ∃ (ip : BitVec 32) (n : Nat), isUnicast ip = true ∧ 1024 ≤ n ∧ n ≤ 65535 ∧
    target = dotted ip.toNat ++ ':' :: decimal n

theorem guestPortalValidate_of_valid {target : Text} (h : ValidListener target) :
    guestPortalValidate target = true := by
  rcases h with rfl | ⟨ip, n, hip, hlow, hhigh, rfl⟩
  · rfl
  · have hcolon : ':' ∉ decimal n := not_mem_decimal (by decide) n
    unfold guestPortalValidate
    rw [cutLast_append_cons _ hcolon]
    simp [portalIpv4_dotted hip, portalPort_decimal hlow hhigh]

end Shell

section Go

def fieldSeparator (c : Char) : Bool := c = ',' || goSpace c

theorem fieldSeparator_of_netChar {c : Char} (h : netChar c = true) : fieldSeparator c = false := by
  have hrange := netChar_range h
  have hne : c ≠ ',' := by
    rintro rfl
    exact absurd h (by decide)
  rw [← Bool.not_eq_true]
  intro hsep
  simp only [fieldSeparator, decide_eq_true_eq, Bool.or_eq_true, hne, false_or] at hsep
  simp only [goSpace, List.mem_cons, List.not_mem_nil, or_false, Bool.or_eq_true, Bool.and_eq_true,
    decide_eq_true_eq] at hsep
  omega

theorem goFields_joinWith {parts : List Text} (hne : parts ≠ [])
    (h : ∀ part ∈ parts, part ≠ [] ∧ ∀ c ∈ part, netChar c = true) :
    goFields (joinWith ' ' parts) = parts := by
  have hsplit : (joinWith ' ' parts).splitOnP fieldSeparator = parts :=
    splitOnP_joinWith (by decide) hne fun part hp c hc =>
      fieldSeparator_of_netChar ((h part hp).2 c hc)
  unfold goFields
  rw [show (fun c => decide (c = ',') || goSpace c) = fieldSeparator from rfl, hsplit,
    List.filter_eq_self]
  intro part hpart
  simpa using (h part hpart).1

theorem trustedPrefix_str {net : IpNetwork} (hscope : net.scope = []) (hbits : net.prefixlen ≠ 0) :
    trustedPrefix net.str = some net.toPrefix := by
  have hpos : net.toPrefix.bits ≠ 0 := by
    cases net <;> exact hbits
  unfold trustedPrefix
  rw [parsePrefix_str hscope]
  simp only [if_neg hpos, masked_toPrefix]

theorem parseTrustedProxies_percent (h : '%' ∈ value) :
    parseTrustedProxies value = none := by
  obtain ⟨field, hfield, hmem⟩ := exists_mem_splitOnP (p := fieldSeparator) (by decide) h
  have hgo : field ∈ goFields value := by
    refine List.mem_filter.mpr ⟨hfield, ?_⟩
    simpa using List.ne_nil_of_mem hmem
  unfold parseTrustedProxies
  cases hparse : (goFields value).mapM trustedPrefix with
  | none => rfl
  | some prefixes =>
      exfalso
      obtain ⟨p, -, hp⟩ := exists_of_mapM hparse hgo
      unfold trustedPrefix at hp
      cases hread : parsePrefix field with
      | none => simp [hread] at hp
      | some q => exact percent_not_mem_of_parsePrefix hread hmem

theorem networkProxyTrust_content {start : Text} (h : '\n' ∉ start) (rest : Text)
    (fallback : List Prefix) :
    networkProxyTrust (.content ("PROXY_CIDRS".toList ++ '=' :: start ++ '\n' :: rest)) fallback =
      (parseTrustedProxies start).getD [] := by
  have hline : '\n' ∉ "PROXY_CIDRS".toList ++ '=' :: start := by
    rw [List.mem_append, List.mem_cons, not_or, not_or]
    exact ⟨by decide, by decide, h⟩
  unfold networkProxyTrust
  simp only
  rw [List.splitOn_append_cons_self_of_not_mem hline]
  rfl

theorem joinWith_scoped {parts : List Text}
    (h : ∀ part ∈ parts, (∀ c ∈ part, netChar c = true) ∨
      ∃ before after, part = before ++ '%' :: after ∧ ∀ c ∈ before, netChar c = true)
    (hscoped : ∃ part ∈ parts, '%' ∈ part) :
    ∃ before after, joinWith ' ' parts = before ++ '%' :: after ∧ '\n' ∉ before := by
  have hplain : ∀ text : Text, (∀ c ∈ text, netChar c = true) → '\n' ∉ text := by
    intro text htext hmem
    exact absurd (htext '\n' hmem) (by decide)
  induction parts with
  | nil =>
      obtain ⟨part, hpart, -⟩ := hscoped
      cases hpart
  | cons first rest ih =>
      rcases h first List.mem_cons_self with hfirst | ⟨before, after, heq, hbefore⟩
      · obtain ⟨part, hpart, hpercent⟩ := hscoped
        rcases List.mem_cons.mp hpart with rfl | hrest
        · exact absurd (hfirst '%' hpercent) (by decide)
        · obtain ⟨before, after, heq, hbefore⟩ :=
            ih (fun other ho => h other (List.mem_cons_of_mem _ ho)) ⟨part, hrest, hpercent⟩
          cases rest with
          | nil => cases hrest
          | cons next more =>
              refine ⟨first ++ ' ' :: before, after, ?_, ?_⟩
              · rw [joinWith_cons_cons, heq, List.append_assoc, List.cons_append]
              · rw [List.mem_append, List.mem_cons, not_or, not_or]
                exact ⟨hplain first hfirst, by decide, hbefore⟩
      · cases rest with
        | nil => exact ⟨before, after, heq, hplain before hbefore⟩
        | cons next more =>
            refine ⟨before, after ++ ' ' :: joinWith ' ' (next :: more), ?_, hplain before hbefore⟩
            rw [joinWith_cons_cons, heq, List.append_assoc, List.cons_append]

end Go

end OpenvpnServer.Network
