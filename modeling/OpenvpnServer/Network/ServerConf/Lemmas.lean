import OpenvpnServer.Lib.Ipaddress.Networks
import OpenvpnServer.Network.Files.Lemmas
import OpenvpnServer.Network.ServerConf

namespace OpenvpnServer.Network

open OpenvpnServer.Lib OpenvpnServer.Lib.Ipaddress OpenvpnServer.Lib.Netip

variable {line rest text conf : Text} {word : String} {kept lines : List Text} {c : Char}
open OpenvpnServer.Config (afterWord afterNewlines endLine replaceCrLf)

def unlines (lines : List Text) : Text := lines.flatMap fun line => line ++ ['\n']

theorem unlines_cons (line : Text) (rest : List Text) :
    unlines (line :: rest) = line ++ '\n' :: unlines rest := by
  simp [unlines]

section Search

theorem afterNewlines_append (h : '\n' ∉ line) (rest : Text) :
    afterNewlines (line ++ '\n' :: rest) = rest :: afterNewlines rest := by
  induction line with
  | nil => simp [afterNewlines]
  | cons c line ih =>
      rw [List.mem_cons, not_or] at h
      rw [List.cons_append, afterNewlines, if_neg (Ne.symm h.1), ih h.2]

theorem searchLines_append {α : Type} (h : '\n' ∉ line)
    (pattern : Text → Option α) (rest : Text) :
    searchLines pattern (line ++ '\n' :: rest) =
      (pattern (line ++ '\n' :: rest)).or (searchLines pattern rest) := by
  unfold searchLines
  rw [afterNewlines_append h, List.findSome?_cons]
  cases pattern (line ++ '\n' :: rest) <;> rfl

theorem prefix_of_append {word : Text} (hword : '\n' ∉ word)
    (h : word <+: line ++ '\n' :: rest) : word <+: line := by
  induction line generalizing word with
  | nil =>
      cases word with
      | nil => exact List.nil_prefix
      | cons c word =>
          rw [List.nil_append, List.cons_prefix_cons] at h
          rw [h.1] at hword
          exact absurd List.mem_cons_self hword
  | cons d line ih =>
      cases word with
      | nil => exact List.nil_prefix
      | cons c word =>
          rw [List.cons_append, List.cons_prefix_cons] at h
          rw [List.mem_cons, not_or] at hword
          exact List.cons_prefix_cons.mpr ⟨h.1, ih hword.2 h.2⟩

theorem afterWord_append (line rest : Text) (hword : '\n' ∉ word.toList) :
    afterWord word (line ++ '\n' :: rest) =
      (afterWord word line).map fun after => after ++ '\n' :: rest := by
  unfold afterWord
  by_cases h : word.toList.isPrefixOf line = true
  · have hline := List.isPrefixOf_iff_prefix.mp h
    have hlong : word.toList.isPrefixOf (line ++ '\n' :: rest) = true :=
      List.isPrefixOf_iff_prefix.mpr (hline.trans (List.prefix_append _ _))
    have hlength : word.length ≤ line.length := hline.length_le
    rw [if_pos h, if_pos hlong, Option.map_some, List.drop_append_of_le_length hlength]
  · have hlong : ¬word.toList.isPrefixOf (line ++ '\n' :: rest) = true := by
      intro hmatch
      exact h (List.isPrefixOf_iff_prefix.mpr
        (prefix_of_append hword (List.isPrefixOf_iff_prefix.mp hmatch)))
    rw [if_neg h, if_neg hlong, Option.map_none]

theorem afterWord_of_append (word : String) (rest : Text) :
    afterWord word (word.toList ++ rest) = some rest := by
  unfold afterWord
  have hmatch : word.toList.isPrefixOf (word.toList ++ rest) = true :=
    List.isPrefixOf_iff_prefix.mpr (List.prefix_append _ _)
  rw [if_pos hmatch, ← String.length_toList, List.drop_left]

-- A line that the patterns take for one with this option: ^\s*word(\s|$)
def readsAs (word : String) (line : Text) : Bool :=
  (afterWord word (line.dropWhile pySpace)).any fun rest => rest.head?.all pySpace

-- A pattern that starts with \s* goes on to the next line from a blank one only.
theorem dropWhile_blank (h : ∀ c ∈ line, pySpace c = true) (rest : Text) :
    (line ++ '\n' :: rest).dropWhile pySpace = rest.dropWhile pySpace := by
  rw [List.dropWhile_append_of_pos h, List.dropWhile_cons_of_pos (by decide)]

theorem dropWhile_not_blank (h : ¬∀ c ∈ line, pySpace c = true) (rest : Text) :
    (line ++ '\n' :: rest).dropWhile pySpace = line.dropWhile pySpace ++ '\n' :: rest := by
  rw [List.dropWhile_append, if_neg]
  rw [List.isEmpty_iff, List.dropWhile_eq_nil_iff]
  exact h

section Skip

variable {α : Type} {word : String} {found : Text → Option α}

theorem searchLines_skip (hword : '\n' ∉ word.toList) (hline : '\n' ∉ line)
    (hreads : readsAs word line = false) (rest : Text) :
    searchLines (fun start => (afterOption word start).bind found) (line ++ '\n' :: rest) =
      searchLines (fun start => (afterOption word start).bind found) rest := by
  rw [searchLines_append hline]
  by_cases hblank : ∀ c ∈ line, pySpace c = true
  · have hsame : afterOption word (line ++ '\n' :: rest) = afterOption word rest := by
      unfold afterOption
      rw [dropWhile_blank hblank]
    rw [hsame]
    unfold searchLines
    rw [List.findSome?_cons]
    cases (afterOption word rest).bind found <;> simp
  · have hnone : afterOption word (line ++ '\n' :: rest) = none := by
      unfold afterOption
      rw [dropWhile_not_blank hblank, afterWord_append _ _ hword]
      unfold readsAs at hreads
      cases hafter : afterWord word (line.dropWhile pySpace) with
      | none => rfl
      | some after =>
          rw [hafter, Option.any_some] at hreads
          cases after with
          | nil => simp at hreads
          | cons c more =>
              rw [List.head?_cons, Option.all_some] at hreads
              simp [afterSpaces, hreads]
    rw [hnone, Option.bind_none, Option.none_or]

theorem searchLines_unlines (hword : '\n' ∉ word.toList)
    (hkept : ∀ line ∈ kept, '\n' ∉ line ∧ readsAs word line = false) (added : List Text) :
    searchLines (fun start => (afterOption word start).bind found) (unlines (kept ++ added)) =
      searchLines (fun start => (afterOption word start).bind found) (unlines added) := by
  induction kept with
  | nil => rfl
  | cons line kept ih =>
      obtain ⟨hline, hreads⟩ := hkept line List.mem_cons_self
      rw [List.cons_append, unlines_cons, searchLines_skip hword hline hreads]
      exact ih fun other hother => hkept other (List.mem_cons_of_mem _ hother)

end Skip

end Search

section Numbers

variable {wide : Char → Bool}

theorem numberAt_append {number : Text} (hne : number ≠ [])
    (hnumber : ∀ c ∈ number, numberChar wide c = true)
    (hrest : ∀ c ∈ rest.head?, numberChar wide c = false) :
    numberAt wide (number ++ rest) = some (number, rest) := by
  obtain ⟨htake, hdrop⟩ := span_append hnumber hrest
  unfold numberAt
  rw [htake, hdrop, if_neg hne]

theorem pySpace_of_numberChar (hdigit : c = '.' ∨ c.isDigit = true) :
    pySpace c = false := by
  rcases hdigit with rfl | hdigit
  · decide
  · have hrange := isDigit_iff.mp hdigit
    simp only [pySpace, List.mem_cons, List.not_mem_nil, or_false, Bool.or_eq_false_iff,
      Bool.and_eq_false_iff, decide_eq_false_iff_not]
    omega

def Dotted (text : Text) : Prop := text ≠ [] ∧ ∀ c ∈ text, c = '.' ∨ c.isDigit = true

theorem dotted_dotted (n : Nat) : Dotted (dotted n) := by
  refine ⟨by simp [dotted, joinWith], fun c hc => ?_⟩
  rcases mem_joinWith hc with rfl | ⟨part, hpart, hmem⟩
  · exact .inl rfl
  · simp only [List.mem_cons, List.not_mem_nil, or_false] at hpart
    rcases hpart with rfl | rfl | rfl | rfl <;> exact .inr (isDigit_of_mem_decimal hmem)

theorem Dotted.numberChar (h : Dotted text) :
    ∀ c ∈ text, Network.numberChar wide c = true := by
  intro c hc
  rcases h.2 c hc with rfl | hdigit
  · simp [Network.numberChar]
  · simp [Network.numberChar, hdigit]

theorem Dotted.afterSpaces (h : Dotted text) (rest : Text) :
    Network.afterSpaces (' ' :: (text ++ rest)) = some (text ++ rest) := by
  obtain ⟨hne, hchars⟩ := h
  cases text with
  | nil => exact absurd rfl hne
  | cons c more =>
      have hc := pySpace_of_numberChar (hchars c List.mem_cons_self)
      rw [Network.afterSpaces, if_pos (by decide), List.cons_append,
        List.dropWhile_cons_of_neg (by simp [hc])]

theorem twoNumbers_line (hword : word.toList.head?.any (! pySpace ·) = true)
    {first second : Text} (hfirst : Dotted first)
    (hsecond : Dotted second) (hrest : ∀ c ∈ rest.head?, numberChar wide c = false) :
    twoNumbers wide word (word.toList ++ ' ' :: (first ++ ' ' :: (second ++ rest))) =
      some (first, second, rest) := by
  have hdrop : (word.toList ++ ' ' :: (first ++ ' ' :: (second ++ rest))).dropWhile pySpace =
      word.toList ++ ' ' :: (first ++ ' ' :: (second ++ rest)) := by
    cases hchars : word.toList with
    | nil =>
        rw [hchars] at hword
        cases hword
    | cons c more =>
        rw [hchars, List.head?_cons, Option.any_some, Bool.not_eq_true'] at hword
        rw [List.cons_append, List.dropWhile_cons_of_neg (by simp [hword])]
  have hspace : ∀ (text : Text), ∀ c ∈ (' ' :: text).head?, numberChar wide c = false := by
    intro text c hc
    rw [List.head?_cons, Option.mem_some_iff] at hc
    subst hc
    simp [numberChar]
  unfold twoNumbers afterOption
  rw [hdrop, afterWord_of_append]
  simp only [Option.bind_eq_bind, Option.bind_some, hfirst.afterSpaces,
    numberAt_append hfirst.1 hfirst.numberChar (hspace _), hsecond.afterSpaces,
    numberAt_append hsecond.1 hsecond.numberChar hrest, Option.pure_def]

end Numbers

section Written

theorem lineBreak_of_mem_pyLines (h : line ∈ pyLines text) :
    ∀ c ∈ line, lineBreak c = false := not_of_mem_splitOnP (mem_splitlines h)

theorem keptLines_spec (h : keptLines lines = some kept) :
    ∀ line ∈ kept, line ∈ lines ∧ replacedLine line = some false := by
  induction lines generalizing kept with
  | nil =>
      cases h
      simp
  | cons first rest ih =>
      unfold keptLines at h
      cases hfirst : replacedLine first with
      | none =>
          rw [hfirst] at h
          cases h
      | some replaced =>
          rw [hfirst] at h
          obtain ⟨more, hmore, heq⟩ := Option.map_eq_some_iff.mp h
          have hrest := ih hmore
          intro line hline
          cases replaced with
          | true =>
              subst heq
              exact ⟨List.mem_cons_of_mem _ (hrest line hline).1, (hrest line hline).2⟩
          | false =>
              subst heq
              rcases List.mem_cons.mp hline with rfl | hmem
              · exact ⟨List.mem_cons_self, hfirst⟩
              · exact ⟨List.mem_cons_of_mem _ (hrest line hmem).1, (hrest line hmem).2⟩

-- Every line that the patterns of `vpn_subnet` take for an option has it as the
-- first word by which a save finds it.
def optionsAgree (conf : Text) : Prop :=
  ∀ line ∈ pyLines (universalNewlines conf), ∀ word ∈ ["server", "ifconfig-pool"],
    readsAs word line = true →
      (shlexSplit true line).all (fun words => words.head? = some word.toList) = true

instance (conf : Text) : Decidable (optionsAgree conf) := by
  unfold optionsAgree
  infer_instance

theorem readsAs_of_kept (hagree : optionsAgree conf)
    (hkept : keptLines (pyLines (universalNewlines conf)) = some kept)
    (hword : word ∈ ["server", "ifconfig-pool"]) :
    ∀ line ∈ kept, '\n' ∉ line ∧ readsAs word line = false := by
  intro line hline
  obtain ⟨hmem, hreplaced⟩ := keptLines_spec hkept line hline
  refine ⟨fun hnewline => ?_, ?_⟩
  · exact absurd (lineBreak_of_mem_pyLines hmem '\n' hnewline) (by decide)
  · by_contra hreads
    rw [Bool.not_eq_false] at hreads
    have hfirst := hagree line hmem word hword hreads
    unfold replacedLine at hreplaced
    cases hwords : shlexSplit true line with
    | none =>
        rw [hwords] at hreplaced
        cases hreplaced
    | some words =>
        rw [hwords, Option.all_some, decide_eq_true_eq] at hfirst
        rw [hwords] at hreplaced
        simp only [List.mem_cons, List.not_mem_nil, or_false] at hword
        rcases hword with rfl | rfl <;> simp [hfirst] at hreplaced

theorem joinWith_unlines (h : lines ≠ []) :
    joinWith '\n' lines ++ ['\n'] = unlines lines := by
  induction lines with
  | nil => exact absurd rfl h
  | cons line rest ih =>
      cases rest with
      | nil => simp [joinWith, unlines]
      | cons next more =>
          rw [joinWith_cons_cons, List.append_assoc, List.cons_append, ih (List.cons_ne_nil _ _),
            unlines_cons line]

theorem replaceCrLf_of_not_mem (h : '\r' ∉ text) : replaceCrLf text = text := by
  fun_induction replaceCrLf text with
  | case1 rest ih => simp at h
  | case2 c rest hcrlf ih =>
      rw [List.mem_cons, not_or] at h
      rw [ih h.2]
  | case3 => rfl

theorem not_mem_unlines (hc : c ≠ '\n')
    (h : ∀ line ∈ lines, c ∉ line) : c ∉ unlines lines := by
  intro hmem
  obtain ⟨line, hline, hin⟩ := List.mem_flatMap.mp hmem
  rw [List.mem_append, List.mem_singleton] at hin
  rcases hin with hin | heq
  · exact h line hline hin
  · exact hc heq

theorem serverConfText_unlines (hne : lines ≠ [])
    (hlines : ∀ line ∈ lines, '\r' ∉ line)
    (h : serverConfText (joinWith '\n' lines ++ ['\n']) = .ok conf) : conf = unlines lines := by
  have hcr := not_mem_unlines (c := '\r') (by decide) hlines
  have hlast : (joinWith '\n' lines ++ ['\n']).getLast? = some '\n' := by simp
  rw [joinWith_unlines hne] at h hlast
  unfold serverConfText at h
  rw [replaceCrLf_of_not_mem hcr] at h
  have hend : endLine (unlines lines) = unlines lines := by
    unfold endLine
    rw [if_pos hlast]
  rw [hend] at h
  split at h
  · cases h
  · split at h
    · cases h
    · cases h
      rfl

theorem nopoolAt_nopool (rest : Text) : nopoolAt (" nopool".toList ++ rest) = true := by
  have hspaces : afterSpaces (" nopool".toList ++ rest) = some ("nopool".toList ++ rest) := by
    simp [afterSpaces, pySpace]
  unfold nopoolAt
  rw [hspaces, Option.bind_some, afterWord_of_append, Option.isSome_some]

theorem twoNumbers_eq (wide : Char → Bool) : ∃ found, ∀ word,
    twoNumbers wide word = fun start => (afterOption word start).bind found :=
  ⟨_, fun _ => rfl⟩

def NoControl (text : Text) : Prop := ∀ c ∈ text, 32 ≤ c.toNat

theorem noControl_of_all (h : text.all (fun c => 32 ≤ c.toNat) = true) :
    NoControl text := by
  intro c hc
  simpa using List.all_eq_true.mp h c hc

theorem noControl_blank : NoControl [' '] := noControl_of_all (by decide)

theorem NoControl.append {other : Text} (h : NoControl text) (hother : NoControl other) :
    NoControl (text ++ other) := by
  intro c hc
  rcases List.mem_append.mp hc with hc | hc
  · exact h c hc
  · exact hother c hc

theorem NoControl.not_mem (h : NoControl text) (hc : c.toNat < 32) :
    c ∉ text := by
  intro hmem
  have hle := h c hmem
  omega

theorem noControl_dotted (n : Nat) : NoControl (dotted n) := by
  intro c hc
  rcases mem_dotted hc with hhex | rfl
  · have hrange := netChar_range (c := c) (by simp [netChar, hhex])
    omega
  · decide

theorem noControl_serverLine (net : Network 32) : NoControl (serverLine net) :=
  (((noControl_of_all (by decide)).append (noControl_dotted _)).append
    (noControl_blank.append (noControl_dotted _))).append
      (noControl_of_all (by decide))

theorem noControl_poolLine (first last : Nat) :
    NoControl (poolLine (dotted first) (dotted last)) :=
  ((noControl_of_all (by decide)).append (noControl_dotted _)).append
    (noControl_blank.append (noControl_dotted _))

theorem serverLine_append (net : Network 32) (rest : Text) :
    serverLine net ++ rest = "server".toList ++ ' ' :: (dotted net.address.toNat ++
      ' ' :: (dotted (netmask net) ++ (" nopool".toList ++ rest))) := by
  change ("server".toList ++ [' ']) ++ dotted net.address.toNat ++ ' ' :: dotted (netmask net) ++
    " nopool".toList ++ rest = _
  simp only [List.append_assoc, List.cons_append, List.nil_append]

theorem poolLine_append (first last rest : Text) :
    poolLine first last ++ rest =
      "ifconfig-pool".toList ++ ' ' :: (first ++ ' ' :: (last ++ rest)) := by
  change ("ifconfig-pool".toList ++ [' ']) ++ first ++ ' ' :: last ++ rest = _
  simp only [List.append_assoc, List.cons_append, List.nil_append]

theorem vpnSubnet_written (wide : Char → Bool) (hagree : optionsAgree conf)
    (hkept : keptLines (pyLines (universalNewlines conf)) = some kept)
    (net : Network 32) {first last : Nat} (hfirst : first < 2 ^ 32) (hlast : last < 2 ^ 32)
    {more : List Text} (hmore : ∀ line ∈ more, '\r' ∉ line) :
    vpnSubnet wide (unlines (kept ++ serverLine net ::
      poolLine (dotted first) (dotted last) :: more)) = some ⟨net, first, last⟩ := by
  obtain ⟨found, hfound⟩ := twoNumbers_eq wide
  have hcr : '\r' ∉ unlines (kept ++ serverLine net ::
      poolLine (dotted first) (dotted last) :: more) := by
    refine not_mem_unlines (by decide) fun line hline => ?_
    simp only [List.mem_append, List.mem_cons] at hline
    rcases hline with hline | rfl | rfl | hline
    · intro hmem
      exact absurd (lineBreak_of_mem_pyLines (keptLines_spec hkept line hline).1 '\r' hmem)
        (by decide)
    · exact (noControl_serverLine net).not_mem (by decide)
    · exact (noControl_poolLine first last).not_mem (by decide)
    · exact hmore line hline
  have hserver : searchLines (twoNumbers wide "server") (unlines (kept ++ serverLine net ::
      poolLine (dotted first) (dotted last) :: more)) =
        some (dotted net.address.toNat, dotted (netmask net), " nopool".toList ++
          '\n' :: unlines (poolLine (dotted first) (dotted last) :: more)) := by
    have hline : twoNumbers wide "server" (serverLine net ++
        '\n' :: unlines (poolLine (dotted first) (dotted last) :: more)) = some (
          dotted net.address.toNat, dotted (netmask net), " nopool".toList ++
            '\n' :: unlines (poolLine (dotted first) (dotted last) :: more)) := by
      rw [serverLine_append]
      exact twoNumbers_line (by decide) (dotted_dotted _) (dotted_dotted _) (by simp [numberChar])
    rw [hfound, searchLines_unlines (by decide) (readsAs_of_kept hagree hkept (by decide)),
      ← hfound, unlines_cons, searchLines, List.findSome?_cons, hline]
  have hpool : searchLines (twoNumbers wide "ifconfig-pool") (unlines (kept ++ serverLine net ::
      poolLine (dotted first) (dotted last) :: more)) =
        some (dotted first, dotted last, '\n' :: unlines more) := by
    have hline : twoNumbers wide "ifconfig-pool" (poolLine (dotted first) (dotted last) ++
        '\n' :: unlines more) = some (dotted first, dotted last, '\n' :: unlines more) := by
      rw [poolLine_append]
      exact twoNumbers_line (by decide) (dotted_dotted _) (dotted_dotted _) (by simp [numberChar])
    have hskip : readsAs "ifconfig-pool" (serverLine net) = false := rfl
    rw [hfound, searchLines_unlines (by decide) (readsAs_of_kept hagree hkept (by decide)),
      unlines_cons, searchLines_skip (by decide) ((noControl_serverLine net).not_mem (by decide)) hskip,
      ← hfound, unlines_cons, searchLines, List.findSome?_cons, hline]
  unfold vpnSubnet
  simp only [universalNewlines_of_not_mem hcr, hserver, hpool,
    ipv4NetworkOf_of_ipv4Network (ipv4Network_netmask net), nopoolAt_nopool, if_true,
    parseIPv4_dotted hfirst, parseIPv4_dotted hlast, BitVec.toNat_ofNat, Nat.mod_eq_of_lt hfirst,
    Nat.mod_eq_of_lt hlast]

end Written

end OpenvpnServer.Network
