import OpenvpnServer.Lib.Shlex.Lemmas
import OpenvpnServer.Network.Load
import OpenvpnServer.Network.Saved

-- How `from_server_conf` reads back what a save wrote to server.conf.
namespace OpenvpnServer.Network

open OpenvpnServer.Lib OpenvpnServer.Lib.Ipaddress OpenvpnServer.Lib.Netip

variable {conf line : Text}
open OpenvpnServer.Config (afterWord afterNewlines endLine eq_of_afterWord keepsManagement
  replaceCrLf)

section Read

-- The DNS servers and routes that the words of a pushed option add. A missing word is
-- an `IndexError`.
def pushedWords (pushed : List Text) : Except Refusal (List Text × List Text) :=
  if pushed.take 2 = ["dhcp-option".toList, "DNS".toList] then
    match pushed[2]? with
    | none => .error .internal
    | some dns => .ok ([dns], [])
  else if pushed.head? = some "route".toList then
    match pushed[1]? with
    | none => .error .internal
    | some address =>
        let mask := pushed[2]?.getD "32".toList
        match ipNetworkOf (address ++ '/' :: mask) with
        | none => .error .valueError
        | some net => .ok ([], [net.str])
  else .ok ([], [])

def pushedLine (line : Text) : Except Refusal (List Text × List Text) :=
  match shlexSplit true line with
  | none => .error .valueError
  | some words =>
      match words with
      | word :: argument :: _ =>
          if word = "push".toList then
            match shlexSplit false argument with
            | none => .error .valueError
            | some pushed => pushedWords pushed
          else .ok ([], [])
      | _ => .ok ([], [])

def pushedLines : List Text → Except Refusal (List Text × List Text)
  | [] => .ok ([], [])
  | line :: rest => do
      let (dns, routes) ← pushedLine line
      let (moreDns, moreRoutes) ← pushedLines rest
      pure (dns ++ moreDns, routes ++ moreRoutes)

-- A last address of -1, which `IPv4Address` refuses: nopool without an ifconfig-pool
-- line, or the subnet of the address 0.0.0.0 alone.
def lastNegative (wide : Char → Bool) (conf : Text) (net : Network 32) : Bool :=
  let text := universalNewlines conf
  if (searchLines (twoNumbers wide "server") text).any fun found => nopoolAt found.2.2 then
    (searchLines (twoNumbers wide "ifconfig-pool") text).isNone
  else broadcastAddress net = 0

-- `str(ipaddress.IPv4Address(n))`
def ipv4Text (n : Nat) : Except Refusal Text :=
  if n < 2 ^ 32 then .ok (dotted n) else .error .valueError

def fixSubnet : Refusal :=
  .pki "Fix the server subnet and pool in Server → Configuration first".toList

-- `.replace(",", " ").split()`
def forwardedProxies (forwarded : Text) : List Text :=
  (forwarded.splitOnP fun c => c = ',' || pySpace c).filter (· ≠ [])

-- `from_server_conf()`; `forwarded` is what the environment has in FORWARDED_ALLOW_IPS,
-- or its default. Values beyond a limit of the model are not expected.
def fromServerConf (host : Host) (forwarded : Text) (s : AddressState) :
    Except Refusal NetworkSettings :=
  match vpnSubnet host.wide s.serverConf with
  | none => .error fixSubnet
  | some subnet => do
      let (dns, routes) ← pushedLines (pyLines (universalNewlines s.serverConf))
      let first ← ipv4Text subnet.first
      let last ← if lastNegative host.wide s.serverConf subnet.net then .error .valueError
        else ipv4Text subnet.last
      let guest ← guestSub host s
      let trusted ← match cidrs (forwardedProxies forwarded) false with
        | .error failure => .error (Refusal.ofFailure failure)
        | .ok trusted => .ok trusted
      let dns := fromKeys dns
      if dns.length ≤ 10 ∧ routes.length ≤ 100 ∧ trusted.length ≤ 100 then
        pure ⟨(IpNetwork.v4 subnet.net).str, first, last, guest, dns, routes, trusted, emptyGateway⟩
      else .error .internal

theorem lastNegative_of_vpnSubnet {wide : Char → Bool} {subnet : VpnSubnet}
    (h : vpnSubnet wide conf = some subnet) (hpool : subnet.first ≤ subnet.last)
    (hbroadcast : 0 < broadcastAddress subnet.net) : lastNegative wide conf subnet.net = false := by
  unfold vpnSubnet at h
  unfold lastNegative
  dsimp only at h ⊢
  cases hserver : searchLines (twoNumbers wide "server") (universalNewlines conf) with
  | none => rw [hserver] at h; cases h
  | some found =>
      obtain ⟨address, mask, rest⟩ := found
      rw [hserver] at h
      rw [Option.any_some]
      by_cases hnopool : nopoolAt rest = true
      · rw [if_pos hnopool]
        cases hfound : searchLines (twoNumbers wide "ifconfig-pool") (universalNewlines conf) with
        | some _ => rfl
        | none =>
            dsimp only at h
            split at h
            · cases h
            · rw [if_pos hnopool, hfound] at h
              cases h
              exact absurd hpool (Nat.not_succ_le_zero 0)
      · rw [if_neg hnopool, decide_eq_false_iff_not]
        omega

end Read

section Editable

-- What the editor lets through: printable ASCII, tabs and newlines.
def Editable (conf : Text) : Prop :=
  ∀ c ∈ conf, c = '\t' ∨ c = '\n' ∨ (32 ≤ c.toNat ∧ c.toNat ≤ 126)

instance (conf : Text) : Decidable (Editable conf) :=
  List.decidableBAll _ conf

theorem Editable.cr (h : Editable conf) : '\r' ∉ conf := fun hmem => by
  have hcr := h '\r' hmem
  revert hcr
  decide

theorem Editable.universalNewlines (h : Editable conf) :
    Lib.universalNewlines conf = conf := universalNewlines_of_not_mem h.cr

theorem lineBreak_of_editable {c : Char}
    (h : c = '\t' ∨ c = '\n' ∨ (32 ≤ c.toNat ∧ c.toNat ≤ 126)) :
    lineBreak c = (c == '\n') := by
  rcases h with rfl | rfl | hrange
  · rfl
  · rfl
  · have hne : c ≠ '\n' := by
      rintro rfl
      exact absurd hrange.1 (by decide)
    have hbreak : lineBreak c = false := by
      simp only [lineBreak, Bool.or_eq_false_iff, Bool.and_eq_false_iff, decide_eq_false_iff_not,
        List.mem_cons, List.not_mem_nil, or_false]
      omega
    rw [hbreak, beq_eq_false_iff_ne.mpr hne]

theorem shlexSpace_of_editable {c : Char}
    (h : c = '\t' ∨ c = '\n' ∨ (32 ≤ c.toNat ∧ c.toNat ≤ 126)) (hspace : pySpace c = true) :
    shlexSpace c = true := by
  rcases h with rfl | rfl | hrange
  · rfl
  · rfl
  · have hblank : c.toNat = 32 := by
      simp only [pySpace, Bool.or_eq_true, Bool.and_eq_true, decide_eq_true_eq, List.mem_cons,
        List.not_mem_nil, or_false] at hspace
      omega
    have hc : c = ' ' := Char.toNat_inj.mp hblank
    rw [hc]
    rfl

theorem Editable.pyLines (h : Editable conf) (hline : line ∈ Lib.pyLines conf) :
    Editable line ∧ '\n' ∉ line := by
  refine ⟨fun c hc => h c (mem_of_mem_splitOnP (mem_splitlines hline) hc), fun hnewline => ?_⟩
  exact absurd (lineBreak_of_mem_pyLines hline '\n' hnewline) (by decide)

end Editable

section Words

theorem head?_of_readsAs {word : String} (hne : word.toList ≠ [])
    (hplain : ∀ c ∈ word.toList, shlexPlain c = true) (hline : Editable line)
    (hreads : readsAs word line = true) {words : List Text}
    (hwords : shlexSplit true line = some words) : words.head? = some word.toList := by
  obtain ⟨rest, hafter, hblank⟩ : ∃ rest, afterWord word (line.dropWhile pySpace) = some rest ∧
      rest.head?.all pySpace = true := by
    unfold readsAs at hreads
    cases hafter : afterWord word (line.dropWhile pySpace) with
    | none => rw [hafter] at hreads; cases hreads
    | some rest => exact ⟨rest, rfl, by rwa [hafter] at hreads⟩
  have hspaces : ∀ c ∈ line.takeWhile pySpace, shlexSpace c = true := fun c hc =>
    shlexSpace_of_editable (hline c ((List.takeWhile_sublist _).mem hc)) (List.mem_takeWhile_imp hc)
  have hsplit : shlexSplit true (word.toList ++ rest) = some words := by
    rw [← hwords, ← eq_of_afterWord hafter, ← shlexSplit_spaces hspaces,
      List.takeWhile_append_dropWhile]
  cases rest with
  | nil =>
      rw [List.append_nil, shlexSplit_last hne hplain] at hsplit
      cases hsplit
      rfl
  | cons blank more =>
      have hmem : blank ∈ line := by
        refine (List.dropWhile_sublist pySpace).mem ?_
        rw [eq_of_afterWord hafter]
        simp
      rw [shlexSplit_word hne hplain (shlexSpace_of_editable (hline blank hmem) hblank)] at hsplit
      obtain ⟨tail, -, rfl⟩ := Option.map_eq_some_iff.mp hsplit
      rfl

theorem optionsAgree_of_editable (h : Editable conf) : optionsAgree conf := by
  intro line hline word hword hreads
  rw [h.universalNewlines] at hline
  have hplain : word.toList ≠ [] ∧ ∀ c ∈ word.toList, shlexPlain c = true := by
    simp only [List.mem_cons, List.not_mem_nil, or_false] at hword
    rcases hword with rfl | rfl
    all_goals exact ⟨by decide, List.all_eq_true.mp (by decide)⟩
  cases hwords : shlexSplit true line with
  | none => rfl
  | some words =>
      have hhead := head?_of_readsAs hplain.1 hplain.2 (h.pyLines hline).1 hreads hwords
      simp [hhead]

end Words

section Management

theorem keepsManagement_append (hline : '\n' ∉ line) (rest : Text) :
    keepsManagement (line ++ '\n' :: rest) =
      (readsAs "management" line || keepsManagement rest) := by
  have hword : '\n' ∉ "management".toList := by decide
  unfold keepsManagement
  rw [afterNewlines_append hline, List.any_cons]
  by_cases hblank : ∀ c ∈ line, pySpace c = true
  · have hreads : readsAs "management" line = false := by
      unfold readsAs
      rw [List.dropWhile_eq_nil_iff.mpr hblank]
      rfl
    rw [dropWhile_blank hblank, hreads, List.any_cons, Bool.false_or, ← Bool.or_assoc, Bool.or_self]
  · have hsame : ((afterWord "management" (line.dropWhile pySpace ++ '\n' :: rest)).any
        fun rest => rest.head?.any pySpace) = readsAs "management" line := by
      rw [afterWord_append _ _ hword]
      unfold readsAs
      cases afterWord "management" (line.dropWhile pySpace) with
      | none => rfl
      | some after =>
          cases after with
          | nil => rfl
          | cons c more => rfl
    rw [dropWhile_not_blank hblank, hsame]

theorem keepsManagement_unlines {lines : List Text} (h : ∀ line ∈ lines, '\n' ∉ line) :
    keepsManagement (unlines lines) = lines.any (readsAs "management") := by
  induction lines with
  | nil => rfl
  | cons line rest ih =>
      rw [unlines_cons, keepsManagement_append (h line List.mem_cons_self), List.any_cons,
        ih fun other ho => h other (List.mem_cons_of_mem _ ho)]

theorem afterNewlines_of_not_mem (h : '\n' ∉ line) : afterNewlines line = [] := by
  induction line with
  | nil => rfl
  | cons c rest ih =>
      rw [List.mem_cons, not_or] at h
      rw [afterNewlines, if_neg (Ne.symm h.1), ih h.2]

theorem exists_management {parts : List Text} (h : ∀ part ∈ parts, '\n' ∉ part)
    (hkeeps : keepsManagement (joinWith '\n' parts) = true) :
    ∃ part ∈ parts, readsAs "management" part = true := by
  induction parts with
  | nil => cases hkeeps
  | cons part rest ih =>
      cases rest with
      | nil =>
          refine ⟨part, List.mem_singleton_self _, ?_⟩
          change keepsManagement part = true at hkeeps
          unfold keepsManagement at hkeeps
          rw [afterNewlines_of_not_mem (h part List.mem_cons_self), List.any_cons, List.any_nil,
            Bool.or_false] at hkeeps
          unfold readsAs
          cases hafter : afterWord "management" (part.dropWhile pySpace) with
          | none => rw [hafter] at hkeeps; cases hkeeps
          | some after =>
              rw [hafter] at hkeeps
              cases after with
              | nil => rfl
              | cons c more => exact hkeeps
      | cons next more =>
          rw [joinWith_cons_cons, keepsManagement_append (h part List.mem_cons_self),
            Bool.or_eq_true] at hkeeps
          rcases hkeeps with hpart | hrest
          · exact ⟨part, List.mem_cons_self, hpart⟩
          · obtain ⟨other, hother, hreads⟩ :=
              ih (fun other ho => h other (List.mem_cons_of_mem _ ho)) hrest
            exact ⟨other, List.mem_cons_of_mem _ hother, hreads⟩

theorem Editable.exists_management (h : Editable conf)
    (hkeeps : keepsManagement conf = true) :
    ∃ line ∈ Lib.pyLines conf, readsAs "management" line = true := by
  have hsplit : splitlines conf = conf.splitOn '\n' := by
    rw [List.splitOn_eq_splitOnP]
    exact splitOnP_congr fun c hc => lineBreak_of_editable (h c hc)
  have hlines : ∀ line ∈ conf.splitOn '\n', '\n' ∉ line := by
    intro line hline hnewline
    have hbreak := not_of_mem_splitOnP (hsplit ▸ hline : line ∈ splitlines conf) '\n' hnewline
    exact absurd hbreak (by decide)
  rw [← joinWith_splitOn '\n' conf] at hkeeps
  obtain ⟨line, hline, hreads⟩ := Network.exists_management hlines hkeeps
  refine ⟨line, ?_, hreads⟩
  rw [← hsplit] at hline
  unfold Lib.pyLines
  split
  · rename_i hlast
    -- the empty text after the last newline is not this line
    obtain ⟨front, hfront⟩ := List.getLast?_eq_some_iff.mp hlast
    rw [hfront, List.dropLast_concat]
    rw [hfront, List.mem_append, List.mem_singleton] at hline
    rcases hline with hmem | rfl
    · exact hmem
    · cases hreads
  · exact hline

end Management

end OpenvpnServer.Network
