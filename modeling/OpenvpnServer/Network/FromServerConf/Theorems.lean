import OpenvpnServer.Network.AddressPlan.Theorems
import OpenvpnServer.Network.FromServerConf

namespace OpenvpnServer.Network

open OpenvpnServer.Lib OpenvpnServer.Lib.Ipaddress OpenvpnServer.Lib.Netip

variable {word line : Text} {words pushed texts lines kept : List Text}
open OpenvpnServer.Config (endLine keepsManagement replaceCrLf)

section Words

-- A word that `shlex` takes as it is, and that stays on its line.
def PlainWord (word : Text) : Prop :=
  word ≠ [] ∧ ∀ c ∈ word, shlexPlain c = true ∧ lineBreak c = false

theorem plainWord_of_all (hne : word ≠ [])
    (h : word.all (fun c => shlexPlain c && !lineBreak c) = true) : PlainWord word := by
  refine ⟨hne, fun c hc => ?_⟩
  simpa using List.all_eq_true.mp h c hc

theorem Dotted.plainWord {text : Text} (h : Dotted text) : PlainWord text := by
  refine ⟨h.1, fun c hc => ?_⟩
  rcases h.2 c hc with rfl | hdigit
  · decide
  · have hrange := isDigit_iff.mp hdigit
    have hne : ∀ d : Char, d.toNat < 48 ∨ 57 < d.toNat → c ≠ d := by
      rintro d hd rfl
      omega
    rw [shlexPlain_iff]
    refine ⟨⟨?_, hne _ (by decide), hne _ (by decide), ?_⟩, ?_⟩
    · simp [shlexSpace, hne ' ' (by decide), hne '\t' (by decide), hne '\r' (by decide),
        hne '\n' (by decide)]
    · simp [shlexQuote, hne '"' (by decide), hne (Char.ofNat 39) (by decide)]
    · rw [lineBreak_of_editable (.inr (.inr (by omega)))]
      exact beq_eq_false_iff_ne.mpr (hne _ (by decide))

theorem dotted_decimal (n : Nat) : Dotted (decimal n) :=
  ⟨Nat.toDigits_ne_nil, fun _ hc => .inr (isDigit_of_mem_decimal hc)⟩

theorem mem_joinWith_plain (h : ∀ word ∈ words, PlainWord word) :
    ∀ c ∈ joinWith ' ' words, (c ≠ '"' ∧ c ≠ '\\') ∧ lineBreak c = false := by
  intro c hc
  rcases mem_joinWith hc with rfl | ⟨word, hword, hmem⟩
  · decide
  · obtain ⟨hplain, hbreak⟩ := (h word hword).2 c hmem
    refine ⟨⟨?_, ?_⟩, hbreak⟩
    · rintro rfl
      exact absurd hplain (by decide)
    · rintro rfl
      exact absurd hplain (by decide)

theorem shlexSplit_plain {comments : Bool} (h : ∀ word ∈ words, PlainWord word) :
    shlexSplit comments (joinWith ' ' words) = some words :=
  shlexSplit_joinWith fun word hword => ⟨(h word hword).1, fun c hc => ((h word hword).2 c hc).1⟩

end Words

section Pushed

def pushLine (pushed : List Text) : Text :=
  "push".toList ++ ' ' :: '"' :: (joinWith ' ' pushed ++ ['"'])

theorem shlexSplit_pushLine (h : ∀ word ∈ pushed, PlainWord word) :
    shlexSplit true (pushLine pushed) = some ["push".toList, joinWith ' ' pushed] :=
  shlexSplit_quoted (by decide) (List.all_eq_true.mp (by decide))
    fun c hc => (mem_joinWith_plain h c hc).1

theorem lineBreak_pushLine (h : ∀ word ∈ pushed, PlainWord word) :
    ∀ c ∈ pushLine pushed, lineBreak c = false := by
  have hpush : ("push".toList ++ [' ', '"']).all (fun c => !lineBreak c) = true := by decide
  intro c hc
  have hparts : c ∈ "push".toList ++ [' ', '"'] ∨ c ∈ joinWith ' ' pushed := by
    unfold pushLine at hc
    simp only [List.mem_append, List.mem_cons, List.not_mem_nil, or_false] at hc ⊢
    tauto
  rcases hparts with hpart | hpart
  · simpa using List.all_eq_true.mp hpush c hpart
  · exact (mem_joinWith_plain h c hpart).2

theorem replacedLine_pushLine (h : ∀ word ∈ pushed, PlainWord word) :
    replacedLine (pushLine pushed) = some (pushesNetwork pushed) := by
  have hargument : shlexSplit false (joinWith ' ' pushed) = some pushed := shlexSplit_plain h
  unfold replacedLine
  rw [shlexSplit_pushLine h]
  have hother : ¬(["push".toList, joinWith ' ' pushed].head? = some "server".toList ∨
      ["push".toList, joinWith ' ' pushed].head? = some "ifconfig-pool".toList) := by
    rw [List.head?_cons]
    decide
  dsimp only
  rw [if_neg hother, if_pos rfl, hargument]
  rfl

theorem pushedLine_pushLine (h : ∀ word ∈ pushed, PlainWord word) :
    pushedLine (pushLine pushed) = pushedWords pushed := by
  have hargument : shlexSplit false (joinWith ' ' pushed) = some pushed := shlexSplit_plain h
  unfold pushedLine
  rw [shlexSplit_pushLine h]
  dsimp only
  rw [if_pos rfl, hargument]

theorem pushedLine_of_kept (h : replacedLine line = some false) :
    pushedLine line = .ok ([], []) := by
  unfold replacedLine at h
  unfold pushedLine
  cases hwords : shlexSplit true line with
  | none => rw [hwords] at h; cases h
  | some words =>
      rw [hwords] at h
      dsimp only at h ⊢
      split at h
      · cases h
      · match words with
        | [] => rfl
        | [_] => rfl
        | word :: argument :: more =>
            dsimp only at h ⊢
            by_cases hpush : word = "push".toList
            · rw [if_pos hpush] at h ⊢
              obtain ⟨pushed, hpushed, hnetwork⟩ := Option.map_eq_some_iff.mp h
              rw [hpushed]
              simp only [pushesNetwork, Bool.or_eq_false_iff, decide_eq_false_iff_not] at hnetwork
              dsimp only
              rw [pushedWords, if_neg hnetwork.2, if_neg hnetwork.1.1]
            · rw [if_neg hpush]

end Pushed

section Added

theorem serverLine_eq (net : Network 32) : serverLine net =
    joinWith ' ' ["server".toList, dotted net.address.toNat, dotted (netmask net),
      "nopool".toList] := by
  have hserver : "server ".toList = "server".toList ++ [' '] := by decide
  have hnopool : " nopool".toList = ' ' :: "nopool".toList := by decide
  unfold serverLine
  simp only [joinWith, hserver, hnopool, List.append_assoc, List.cons_append,
    List.nil_append]

theorem poolLine_eq (first last : Text) :
    poolLine first last = joinWith ' ' ["ifconfig-pool".toList, first, last] := by
  have hpool : "ifconfig-pool ".toList = "ifconfig-pool".toList ++ [' '] := by decide
  unfold poolLine
  simp only [joinWith, hpool, List.append_assoc, List.cons_append, List.nil_append]

theorem dnsLines_cons (i : Nat) (dns : Text) (rest : List Text) :
    dnsLines i (dns :: rest) =
      pushLine ["dns".toList, "server".toList, decimal i, "address".toList, dns] ::
        pushLine ["dhcp-option".toList, "DNS".toList, dns] :: dnsLines (i + 1) rest := by
  have hdns : "push \"dns server ".toList = "push".toList ++ ' ' :: '"' ::
      ("dns".toList ++ ' ' :: ("server".toList ++ [' '])) := by decide
  have haddress : " address ".toList = ' ' :: ("address".toList ++ [' ']) := by decide
  have hoption : "push \"dhcp-option DNS ".toList = "push".toList ++ ' ' :: '"' ::
      ("dhcp-option".toList ++ ' ' :: ("DNS".toList ++ [' '])) := by decide
  unfold pushLine
  simp only [dnsLines, joinWith, hdns, haddress, hoption, List.append_assoc,
    List.cons_append, List.nil_append]

theorem routeLine_eq (route : Network 32) : routeLine route =
    pushLine ["route".toList, dotted route.address.toNat, dotted (netmask route)] := by
  have hroute : "push \"route ".toList =
      "push".toList ++ ' ' :: '"' :: ("route".toList ++ [' ']) := by decide
  unfold routeLine pushLine
  simp only [joinWith, hroute, List.append_assoc, List.cons_append,
    List.nil_append]

theorem replacedLine_joinWith {rest : List Text}
    (hplain : ∀ other ∈ word :: rest, PlainWord other)
    (hword : word = "server".toList ∨ word = "ifconfig-pool".toList) :
    replacedLine (joinWith ' ' (word :: rest)) = some true := by
  have hsplit : shlexSplit true (joinWith ' ' (word :: rest)) = some (word :: rest) :=
    shlexSplit_plain hplain
  unfold replacedLine
  rw [hsplit]
  dsimp only
  refine if_pos ?_
  rw [List.head?_cons, Option.some.injEq, Option.some.injEq]
  exact hword

theorem plainWord_pushedDns {i : Nat} {dns : Text} (h : Dotted dns) :
    (∀ word ∈ ["dns".toList, "server".toList, decimal i, "address".toList, dns],
      PlainWord word) ∧
    ∀ word ∈ ["dhcp-option".toList, "DNS".toList, dns], PlainWord word := by
  have hdns := h.plainWord
  have hi := (dotted_decimal i).plainWord
  have hplain (word : String) (hne : word.toList ≠ [])
      (hall : word.toList.all (fun c => shlexPlain c && !lineBreak c) = true) :
      PlainWord word.toList := plainWord_of_all hne hall
  simp only [List.forall_mem_cons, List.not_mem_nil, false_implies, implies_true, and_true]
  exact ⟨⟨hplain _ (by decide) (by decide), hplain _ (by decide) (by decide), hi,
    hplain _ (by decide) (by decide), hdns⟩, hplain _ (by decide) (by decide),
    hplain _ (by decide) (by decide), hdns⟩

theorem plainWord_pushedRoute (route : Network 32) :
    ∀ word ∈ ["route".toList, dotted route.address.toNat, dotted (netmask route)],
      PlainWord word := by
  have hroute : PlainWord "route".toList := plainWord_of_all (by decide) (by decide)
  simp only [List.forall_mem_cons, List.not_mem_nil, false_implies, implies_true, and_true]
  exact ⟨hroute, (dotted_dotted _).plainWord, (dotted_dotted _).plainWord⟩

theorem plainWord_server (net : Network 32) :
    ∀ word ∈ ["server".toList, dotted net.address.toNat, dotted (netmask net), "nopool".toList],
      PlainWord word := by
  have hserver : PlainWord "server".toList := plainWord_of_all (by decide) (by decide)
  have hnopool : PlainWord "nopool".toList := plainWord_of_all (by decide) (by decide)
  simp only [List.forall_mem_cons, List.not_mem_nil, false_implies, implies_true, and_true]
  exact ⟨hserver, (dotted_dotted _).plainWord, (dotted_dotted _).plainWord, hnopool⟩

theorem plainWord_pool (first last : Nat) :
    ∀ word ∈ ["ifconfig-pool".toList, dotted first, dotted last], PlainWord word := by
  have hpool : PlainWord "ifconfig-pool".toList := plainWord_of_all (by decide) (by decide)
  simp only [List.forall_mem_cons, List.not_mem_nil, false_implies, implies_true, and_true]
  exact ⟨hpool, (dotted_dotted _).plainWord, (dotted_dotted _).plainWord⟩

-- The lines of a save: an option with plain words, or one that is pushed.
inductive NetworkLine : Text → Prop
  | option (word : Text) (rest : List Text) (hplain : ∀ other ∈ word :: rest, PlainWord other)
      (hword : word = "server".toList ∨ word = "ifconfig-pool".toList) :
      NetworkLine (joinWith ' ' (word :: rest))
  | push (pushed : List Text) (hplain : ∀ word ∈ pushed, PlainWord word)
      (hnetwork : pushesNetwork pushed = true) : NetworkLine (pushLine pushed)

theorem NetworkLine.replacedLine (h : NetworkLine line) :
    Network.replacedLine line = some true := by
  cases h with
  | option word rest hplain hword => exact replacedLine_joinWith hplain hword
  | push pushed hplain hnetwork => rw [replacedLine_pushLine hplain, hnetwork]

theorem NetworkLine.lineBreak (h : NetworkLine line) :
    ∀ c ∈ line, Lib.lineBreak c = false := by
  cases h with
  | option word rest hplain hword => exact fun c hc => (mem_joinWith_plain hplain c hc).2
  | push pushed hplain hnetwork => exact lineBreak_pushLine hplain

theorem networkLine_dnsLines (i : Nat) (h : ∀ text ∈ texts, Dotted text) :
    ∀ line ∈ dnsLines i texts, NetworkLine line := by
  induction texts generalizing i with
  | nil => simp [dnsLines]
  | cons dns rest ih =>
      intro line hline
      obtain ⟨hserver, hoption⟩ := plainWord_pushedDns (i := i) (h dns List.mem_cons_self)
      rw [dnsLines_cons, List.mem_cons, List.mem_cons] at hline
      rcases hline with rfl | rfl | hline
      · exact .push _ hserver rfl
      · exact .push _ hoption rfl
      · exact ih (i + 1) (fun other ho => h other (List.mem_cons_of_mem _ ho)) line hline

theorem dotted_of_mem_map {dns : List (BitVec 32)} :
    ∀ text ∈ dns.map fun ip => dotted ip.toNat, Dotted text := by
  intro text htext
  obtain ⟨ip, -, rfl⟩ := List.mem_map.mp htext
  exact dotted_dotted _

theorem networkLine_addedLines (a : Addressing) (dns : List (BitVec 32))
    (routes : List (Network 32)) : ∀ line ∈ addedLines a dns routes, NetworkLine line := by
  intro line hline
  simp only [addedLines, List.mem_cons, List.mem_append, List.mem_map] at hline
  rcases hline with rfl | rfl | hline | ⟨route, -, rfl⟩
  · rw [serverLine_eq]
    exact .option _ _ (plainWord_server a.net) (.inl rfl)
  · rw [poolLine_eq]
    exact .option _ _ (plainWord_pool a.first a.last) (.inr rfl)
  · exact networkLine_dnsLines 0 dotted_of_mem_map line hline
  · rw [routeLine_eq]
    exact .push _ (plainWord_pushedRoute route) rfl

theorem keptLines_eq_filter (h : ∀ line ∈ lines, replacedLine line ≠ none) :
    keptLines lines = some (lines.filter fun line => replacedLine line = some false) := by
  induction lines with
  | nil => rfl
  | cons line rest ih =>
      have hrest := ih fun other ho => h other (List.mem_cons_of_mem _ ho)
      unfold keptLines
      cases hline : replacedLine line with
      | none => exact absurd hline (h line List.mem_cons_self)
      | some replaced =>
          rw [hrest, List.filter_cons, hline]
          cases replaced <;> rfl

theorem keptLines_append {added : List Text}
    (hkept : ∀ line ∈ kept, replacedLine line = some false)
    (hadded : ∀ line ∈ added, replacedLine line = some true) :
    keptLines (kept ++ added) = some kept := by
  have hall : ∀ line ∈ kept ++ added, replacedLine line ≠ none := by
    intro line hline
    rcases List.mem_append.mp hline with hmem | hmem
    · simp [hkept line hmem]
    · simp [hadded line hmem]
  rw [keptLines_eq_filter hall, List.filter_append, List.filter_eq_self.mpr, List.filter_eq_nil_iff.mpr,
    List.append_nil]
  · intro line hmem
    simp [hadded line hmem]
  · intro line hmem
    simp [hkept line hmem]

end Added

section ReadBack

theorem pushedLines_of_nothing (h : ∀ line ∈ lines, pushedLine line = .ok ([], []))
    (rest : List Text) : pushedLines (lines ++ rest) = pushedLines rest := by
  induction lines with
  | nil => rfl
  | cons line more ih =>
      rw [List.cons_append, pushedLines, h line List.mem_cons_self,
        ih fun other ho => h other (List.mem_cons_of_mem _ ho)]
      cases pushedLines rest <;> rfl

theorem pushedLines_dnsLines (i : Nat) (h : ∀ text ∈ texts, Dotted text)
    {rest : List Text} {dns routes : List Text} (hrest : pushedLines rest = .ok (dns, routes)) :
    pushedLines (dnsLines i texts ++ rest) = .ok (texts ++ dns, routes) := by
  induction texts generalizing i with
  | nil => exact hrest
  | cons text more ih =>
      obtain ⟨hserver, hoption⟩ := plainWord_pushedDns (i := i) (h text List.mem_cons_self)
      have hmore := ih (i + 1) fun other ho => h other (List.mem_cons_of_mem _ ho)
      rw [dnsLines_cons, List.cons_append, List.cons_append, pushedLines, pushedLines,
        pushedLine_pushLine hserver, pushedLine_pushLine hoption, hmore]
      rfl

theorem pushedLines_routes (routes : List (Network 32)) :
    pushedLines (routes.map routeLine) =
      .ok ([], routes.map fun route => (IpNetwork.v4 route).str) := by
  induction routes with
  | nil => rfl
  | cons route rest ih =>
      have hnet : ipNetworkOf (dotted route.address.toNat ++ '/' :: dotted (netmask route)) =
          some (.v4 route) := by
        unfold ipNetworkOf
        rw [ipv4NetworkOf_of_ipv4Network (ipv4Network_netmask route)]
      have hwords : pushedWords ["route".toList, dotted route.address.toNat,
          dotted (netmask route)] = .ok ([], [(IpNetwork.v4 route).str]) := by
        have hother : ["route".toList, dotted route.address.toNat, dotted (netmask route)].take 2 ≠
            ["dhcp-option".toList, "DNS".toList] :=
          fun h => absurd (List.cons.inj h).1 (by decide)
        unfold pushedWords
        rw [if_neg hother, if_pos (by rw [List.head?_cons])]
        simp only [List.getElem?_cons_succ, List.getElem?_cons_zero, Option.getD_some, hnet]
      rw [List.map_cons, pushedLines, routeLine_eq,
        pushedLine_pushLine (plainWord_pushedRoute route), hwords, ih]
      rfl

variable {staticIps : List Text} {data : NetworkSettings} {a : Addressing} {dns : List (BitVec 32)}
  {routes : List (Network 32)}

theorem Addressed.pushedLines (h : Addressed staticIps data a dns routes)
    (hkept : ∀ line ∈ kept, replacedLine line = some false) :
    Network.pushedLines (kept ++ addedLines a dns routes) = .ok (data.dnsServers, data.routes) := by
  have hnothing {words : List Text} (hplain : ∀ word ∈ words, PlainWord word)
      (hfirst : words.head? ≠ some "push".toList) :
      pushedLine (joinWith ' ' words) = .ok ([], []) := by
    have hsplit : shlexSplit true (joinWith ' ' words) = some words := shlexSplit_plain hplain
    unfold pushedLine
    rw [hsplit]
    match words with
    | [] => rfl
    | [_] => rfl
    | word :: argument :: more =>
        dsimp only
        rw [if_neg fun hword => hfirst (by rw [List.head?_cons, hword])]
  have hserver : pushedLine (serverLine a.net) = .ok ([], []) := by
    rw [serverLine_eq]
    exact hnothing (plainWord_server a.net) (by rw [List.head?_cons]; decide)
  have hpool : pushedLine (poolLine (dotted a.first) (dotted a.last)) = .ok ([], []) := by
    rw [poolLine_eq]
    exact hnothing (plainWord_pool a.first a.last) (by rw [List.head?_cons]; decide)
  have htwo : ∀ line ∈ [serverLine a.net, poolLine (dotted a.first) (dotted a.last)],
      pushedLine line = .ok ([], []) := by
    simp only [List.forall_mem_cons, List.not_mem_nil, false_implies, implies_true, and_true]
    exact ⟨hserver, hpool⟩
  rw [pushedLines_of_nothing fun line hline => pushedLine_of_kept (hkept line hline)]
  change Network.pushedLines ([serverLine a.net, poolLine (dotted a.first) (dotted a.last)] ++
    (dnsLines 0 (dns.map fun ip => dotted ip.toNat) ++ routes.map routeLine)) = _
  rw [pushedLines_of_nothing htwo, pushedLines_dnsLines 0 dotted_of_mem_map (pushedLines_routes routes),
    List.append_nil, h.dnsServers, h.pushed]

end ReadBack

section RoundTrip

theorem serverConfText_eq (hne : lines ≠ [])
    (hlines : ∀ line ∈ lines, '\r' ∉ line) (hkeeps : keepsManagement (unlines lines) = true) :
    serverConfText (joinWith '\n' lines ++ ['\n']) =
      if 200000 < (joinWith '\n' lines ++ ['\n']).length then
        .error "Configuration file too large".toList
      else .ok (unlines lines) := by
  have hcr := not_mem_unlines (c := '\r') (by decide) hlines
  have hlast : (unlines lines).getLast? = some '\n' := by
    rw [← joinWith_unlines hne, List.getLast?_concat]
  have hend : endLine (unlines lines) = unlines lines := by
    unfold endLine
    rw [if_pos hlast]
  unfold serverConfText
  rw [joinWith_unlines hne, replaceCrLf_of_not_mem hcr, hend, hkeeps]
  rfl

theorem length_cidrs_le {values : List Text} {ipv4 : Bool}
    (h : cidrs values ipv4 = .ok texts) : texts.length ≤ values.length := by
  unfold cidrs at h
  split at h
  · cases h
  · rename_i networks hnetworks
    cases h
    calc (fromKeys (networks.map IpNetwork.str)).length
        ≤ (networks.map IpNetwork.str).length := length_fromKeys_le _
      _ = values.length := by
        rw [List.length_map, length_mapM (mapM_of_cidrNetworks hnetworks)]

theorem lists_of_validate {python : Python} {staticIps : List Text} {body data : NetworkSettings}
    (h : validate python staticIps body = .ok data) :
    data.dnsServers.Nodup ∧ data.dnsServers.length ≤ body.dnsServers.length ∧
      data.routes.length ≤ body.routes.length := by
  obtain ⟨addressed, gateway, haddressed, -, rfl⟩ := validate_eq_ok h
  obtain ⟨a, dns, routes, proxies, -, hdns, -, hroutes, -, -, rfl⟩ :=
    validateAddressing_eq_ok haddressed
  obtain ⟨ips, hips, hdns⟩ := Option.map_eq_some_iff.mp hdns
  refine ⟨hdns ▸ nodup_fromKeys _, ?_, length_cidrs_le hroutes⟩
  calc dns.length ≤ (ips.map fun ip => dotted ip.toNat).length := by
        rw [← hdns]
        exact length_fromKeys_le _
    _ = body.dnsServers.length := by rw [List.length_map, length_mapM hips]

-- What the written file says: the lines it has, that a second save finds the same
-- ones, and what `vpn_subnet` and `from_server_conf` read.
structure ReadsBack (host : Host) (forwarded : Text) (data : NetworkSettings) (lines : List Text)
    (written : Text) : Prop where
  kept : pyLines (universalNewlines written) = lines
  again : serverConfLines written data = some lines
  subnet : ∃ net first last, ipv4Network data.vpnSubnet = some net ∧
    parseIPv4 data.poolFirst = some first ∧ parseIPv4 data.poolLast = some last ∧
    vpnSubnet host.wide written = some ⟨net, first.toNat, last.toNat⟩
  settings : ∀ s : AddressState, s.serverConf = written →
    ∀ guest trusted, guestSub host s = .ok guest →
      cidrs (forwardedProxies forwarded) false = .ok trusted → trusted.length ≤ 100 →
      fromServerConf host forwarded s = .ok ⟨data.vpnSubnet, data.poolFirst, data.poolLast, guest,
        data.dnsServers, data.routes, trusted, emptyGateway⟩

variable {staticIps : List Text} {data : NetworkSettings} {a : Addressing} {dns : List (BitVec 32)}
  {routes : List (Network 32)}

theorem Addressed.readsBack (h : Addressed staticIps data a dns routes) (host : Host)
    (forwarded : Text) (hnodup : data.dnsServers.Nodup) (hdns : data.dnsServers.length ≤ 10)
    (hroutes : data.routes.length ≤ 100)
    {conf : Text} (hagree : optionsAgree conf)
    (hkept : keptLines (pyLines (universalNewlines conf)) = some kept) :
    ReadsBack host forwarded data (kept ++ addedLines a dns routes)
      (unlines (kept ++ addedLines a dns routes)) := by
  have hadded := networkLine_addedLines a dns routes
  have hfalse : ∀ line ∈ kept, replacedLine line = some false :=
    fun line hline => (keptLines_spec hkept line hline).2
  have hbreaks : ∀ line ∈ kept ++ addedLines a dns routes, ∀ c ∈ line, lineBreak c = false := by
    intro line hline
    rcases List.mem_append.mp hline with hmem | hmem
    · exact lineBreak_of_mem_pyLines (keptLines_spec hkept line hmem).1
    · exact (hadded line hmem).lineBreak
  have hcr : '\r' ∉ unlines (kept ++ addedLines a dns routes) :=
    not_mem_unlines (by decide) fun line hline hmem =>
      absurd (hbreaks line hline '\r' hmem) (by decide)
  have hlines : pyLines (universalNewlines (unlines (kept ++ addedLines a dns routes))) =
      kept ++ addedLines a dns routes := by
    rw [universalNewlines_of_not_mem hcr]
    exact pyLines_lines hbreaks
  have hsubnet := vpnSubnet_saved host.wide h hagree hkept
  refine ⟨hlines, ?_, ?_, ?_⟩
  · unfold serverConfLines
    rw [hlines, h.networkLines_eq,
      keptLines_append hfalse fun line hline => (hadded line hline).replacedLine]
  · refine ⟨a.net, BitVec.ofNat 32 a.first, BitVec.ofNat 32 a.last, ?_, ?_, ?_, ?_⟩
    · rw [h.vpnSubnet, ipv4Network_str]
    · rw [h.poolFirst, parseIPv4_dotted h.first_lt]
    · rw [h.poolLast, parseIPv4_dotted h.last_lt]
    · rw [hsubnet, BitVec.toNat_ofNat, BitVec.toNat_ofNat, Nat.mod_eq_of_lt h.first_lt,
        Nat.mod_eq_of_lt h.last_lt]
  · intro s hs guest trusted hguest htrusted hlength
    obtain ⟨-, -, -, ⟨hfirst, hpool, hlast⟩, -⟩ := h.fits
    have hnegative : lastNegative host.wide (unlines (kept ++ addedLines a dns routes)) a.net =
        false := lastNegative_of_vpnSubnet hsubnet hpool (Nat.zero_lt_of_lt hlast)
    unfold fromServerConf
    rw [hs, hsubnet]
    dsimp only
    rw [hlines, h.pushedLines hfalse, hguest, htrusted, hnegative, h.vpnSubnet, h.poolFirst,
      h.poolLast]
    have hfirstText : ipv4Text a.first = .ok (dotted a.first) := if_pos h.first_lt
    have hlastText : ipv4Text a.last = .ok (dotted a.last) := if_pos h.last_lt
    rw [hfirstText, hlastText]
    change (if (fromKeys data.dnsServers).length ≤ 10 ∧ data.routes.length ≤ 100 ∧
      trusted.length ≤ 100 then _ else _) = _
    rw [fromKeys_of_nodup hnodup, if_pos ⟨hdns, hroutes, hlength⟩]
    rfl

theorem replacedLine_of_head
    (hwords : shlexSplit true line = some words) (hhead : words.head? = some word)
    (hword : word ∉ ["server".toList, "ifconfig-pool".toList, "push".toList]) :
    replacedLine line = some false := by
  obtain ⟨rest, rfl⟩ := List.head?_eq_some_iff.mp hhead
  simp only [List.mem_cons, List.not_mem_nil, or_false, not_or] at hword
  unfold replacedLine
  rw [hwords]
  dsimp only
  rw [if_neg (by rw [hhead, Option.some.injEq, Option.some.injEq]; tauto)]
  cases rest with
  | nil => rfl
  | cons argument more =>
      dsimp only
      rw [if_neg hword.2.2]

theorem management_kept {conf : Text} (hconf : Editable conf)
    (hkeeps : keepsManagement conf = true)
    (hsplit : ∀ line ∈ pyLines conf, replacedLine line ≠ none) :
    ∃ line ∈ (pyLines conf).filter (fun line => replacedLine line = some false),
      readsAs "management" line = true := by
  obtain ⟨line, hline, hreads⟩ := hconf.exists_management hkeeps
  refine ⟨line, List.mem_filter.mpr ⟨hline, ?_⟩, hreads⟩
  cases hwords : shlexSplit true line with
  | none =>
      refine absurd ?_ (hsplit line hline)
      unfold replacedLine
      rw [hwords]
  | some words =>
      have hhead := head?_of_readsAs (by decide) (List.all_eq_true.mp (by decide))
        (hconf.pyLines hline).1 hreads hwords
      rw [replacedLine_of_head hwords hhead (by decide)]
      rfl

theorem server_conf_round_trip (host : Host) (forwarded : Text) {staticIps : List Text}
    {body data : NetworkSettings} (hlimits : body.WithinLimits)
    (hvalid : validate host.python staticIps body = .ok data) {conf : Text} (hconf : Editable conf)
    (hkeeps : keepsManagement conf = true)
    (hsplit : ∀ line ∈ pyLines conf, replacedLine line ≠ none) :
    ∃ lines added, networkLines data = some added ∧
      lines = (pyLines conf).filter (fun line => replacedLine line = some false) ++ added ∧
      serverConfLines conf data = some lines ∧
      (200000 < (confContent lines).length →
        serverConfText (confContent lines) = .error "Configuration file too large".toList) ∧
      ((confContent lines).length ≤ 200000 →
        ∃ written, serverConfText (confContent lines) = .ok written ∧
          ReadsBack host forwarded data lines written) := by
  obtain ⟨a, dns, routes, h⟩ := addressed_of_validate hvalid
  obtain ⟨hnodup, hdns, hroutes⟩ := lists_of_validate hvalid
  have hkept : keptLines (pyLines (universalNewlines conf)) =
      some ((pyLines conf).filter fun line => replacedLine line = some false) := by
    rw [hconf.universalNewlines, keptLines_eq_filter hsplit]
  have hback := h.readsBack host forwarded hnodup (hdns.trans hlimits.dnsServers)
    (hroutes.trans hlimits.routes) (optionsAgree_of_editable hconf) hkept
  have hbreaks : ∀ line ∈ (pyLines conf).filter (fun line => replacedLine line = some false) ++
      addedLines a dns routes, ∀ c ∈ line, lineBreak c = false := by
    intro line hline
    rw [← hback.kept] at hline
    exact lineBreak_of_mem_pyLines hline
  have hmanagement : keepsManagement (unlines ((pyLines conf).filter
      (fun line => replacedLine line = some false) ++ addedLines a dns routes)) = true := by
    obtain ⟨line, hline, hreads⟩ := management_kept hconf hkeeps hsplit
    rw [keepsManagement_unlines fun line hline hmem =>
      absurd (hbreaks line hline '\n' hmem) (by decide)]
    exact List.any_eq_true.mpr ⟨line, List.mem_append_left _ hline, hreads⟩
  have htext := serverConfText_eq (by simp [addedLines]) (fun line hline hmem =>
    absurd (hbreaks line hline '\r' hmem) (by decide)) hmanagement
  refine ⟨_, addedLines a dns routes, h.networkLines_eq, rfl, ?_, fun hlong => ?_, fun hshort => ?_⟩
  · unfold serverConfLines
    rw [hkept, h.networkLines_eq]
  · exact htext.trans (if_pos hlong)
  · exact ⟨_, htext.trans (if_neg (Nat.not_lt_of_le hshort)), hback⟩

-- An old network in quotes, a comment, a pushed route and a last line without newline.
def quotedConf : Text :=
  ("management 127.0.0.1 2080\n\t\"server\" 10.9.0.0 255.255.255.0 # old\n" ++
    "push \"route 198.51.100.0 255.255.255.0\"\nkeepalive 10 60").toList

def quotedLines : List Text :=
  ["management 127.0.0.1 2080".toList, "keepalive 10 60".toList,
    "server 10.8.0.0 255.255.255.0 nopool".toList, "ifconfig-pool 10.8.0.2 10.8.0.100".toList,
    "push \"dns server 0 address 10.8.0.1\"".toList, "push \"dhcp-option DNS 10.8.0.1\"".toList]

theorem quoted_conf_round_trip :
    let data := office ["127.0.0.1/32".toList]
    validate plainHost.python [] data = .ok data ∧
      serverConfLines quotedConf data = some quotedLines ∧
      ∃ written, serverConfText (confContent quotedLines) = .ok written ∧
        ReadsBack plainHost [] data quotedLines written := by
  have hgateway : (office ["127.0.0.1/32".toList]).gateway.WithinLimits :=
    ⟨by decide, by decide, List.forall_mem_nil _, by decide, List.forall_mem_nil _⟩
  have hlimits : (office ["127.0.0.1/32".toList]).WithinLimits :=
    ⟨by decide, by decide, by decide, hgateway⟩
  have hvalid : validate plainHost.python [] (office ["127.0.0.1/32".toList]) =
      .ok (office ["127.0.0.1/32".toList]) := by decide +kernel
  have hconf : Editable quotedConf := by decide +kernel
  have hsplit : ∀ line ∈ pyLines quotedConf, replacedLine line ≠ none := by decide +kernel
  have hlines : serverConfLines quotedConf (office ["127.0.0.1/32".toList]) = some quotedLines := by
    decide +kernel
  have hshort : (confContent quotedLines).length ≤ 200000 := by decide +kernel
  obtain ⟨lines, added, -, -, hwritten, -, htext⟩ :=
    server_conf_round_trip plainHost [] hlimits hvalid hconf (by decide +kernel) hsplit
  rw [hlines, Option.some.injEq] at hwritten
  subst hwritten
  exact ⟨hvalid, hlines, htext hshort⟩

end RoundTrip

end OpenvpnServer.Network
