import OpenvpnServer.Firewall.GuestRules
import OpenvpnServer.Lib.Shlex.Lemmas
import OpenvpnServer.Network.Saved

namespace OpenvpnServer.Firewall

open OpenvpnServer.Lib OpenvpnServer.Lib.Ipaddress OpenvpnServer.Lib.Netip OpenvpnServer.Network
open OpenvpnServer.Access (addressChar isSpace)
open OpenvpnServer.Config (afterWord eq_of_afterWord)

section Kept

theorem eq_of_afterBlanks {text rest : Text} (h : afterBlanks text = some rest) :
    ∃ c blanks, text = c :: (blanks ++ rest) ∧ isSpace c = true ∧
      ∀ d ∈ blanks, isSpace d = true := by
  cases text with
  | nil => cases h
  | cons c more =>
      rw [afterBlanks] at h
      split at h
      · rename_i hspace
        rw [Option.some.injEq] at h
        refine ⟨c, more.takeWhile isSpace, ?_, hspace, fun d hd => List.mem_takeWhile_imp hd⟩
        rw [← h, List.takeWhile_append_dropWhile]
      · cases h

theorem shlexSpace_of_isSpace {c : Char} (h : isSpace c = true) (hbreak : lineBreak c = false) :
    shlexSpace c = true := by
  simp only [isSpace, List.mem_cons, List.not_mem_nil, or_false, decide_eq_true_eq] at h
  rcases h with rfl | rfl | rfl | rfl | rfl | rfl
  · decide
  · decide
  all_goals exact absurd hbreak (by decide)

variable {line pushed : Text}

theorem eq_of_afterPush (h : afterPush line = some pushed) :
    ∃ spaces blank blanks, line = spaces ++ ("push".toList ++ blank :: (blanks ++ '"' :: pushed)) ∧
      ∀ c ∈ spaces ++ blank :: blanks, isSpace c = true := by
  unfold afterPush at h
  obtain ⟨quoted, hquoted, hpushed⟩ := Option.bind_eq_some_iff.mp h
  obtain ⟨rest, hrest, hblanks⟩ := Option.bind_eq_some_iff.mp hquoted
  obtain ⟨blank, blanks, rfl, hblank, hmore⟩ := eq_of_afterBlanks hblanks
  refine ⟨line.takeWhile isSpace, blank, blanks, ?_, fun c hc => ?_⟩
  · change line = _ ++ ("push".toList ++ blank :: (blanks ++ ("\"".toList ++ pushed)))
    rw [← eq_of_afterWord hpushed, ← eq_of_afterWord hrest, List.takeWhile_append_dropWhile]
  · rw [List.mem_append, List.mem_cons] at hc
    rcases hc with hspace | rfl | hc
    · exact List.mem_takeWhile_imp hspace
    · exact hblank
    · exact hmore c hc

theorem shlexSplit_afterPush (h : afterPush line = some pushed)
    (hbreak : ∀ c ∈ line, lineBreak c = false) :
    shlexSplit true line =
      (shlexWords true (.quoted '"') [] pushed).map ("push".toList :: ·) := by
  obtain ⟨spaces, blank, blanks, rfl, hspaces⟩ := eq_of_afterPush h
  have hall : ∀ c ∈ spaces ++ blank :: blanks, shlexSpace c = true := by
    intro c hc
    refine shlexSpace_of_isSpace (hspaces c hc) (hbreak c ?_)
    simp only [List.mem_append, List.mem_cons] at hc ⊢
    rcases hc with hc | hc | hc
    · exact .inl hc
    · exact .inr (.inr (.inl hc))
    · exact .inr (.inr (.inr (.inl hc)))
  have hfirst : shlexSpace blank = true := hall blank (by simp)
  rw [shlexSplit_spaces fun c hc => hall c (List.mem_append_left _ hc),
    shlexSplit_word (by decide) (List.all_eq_true.mp (by decide)) hfirst,
    shlexSplit_spaces fun c hc => hall c (by simp [hc])]
  rfl

theorem not_pushesNetwork_of_kept (h : afterPush line = some pushed)
    (hbreak : ∀ c ∈ line, lineBreak c = false) (hkept : replacedLine line = some false)
    {content rest : Text} (hpushed : pushed = content ++ rest)
    (hcontent : ∀ c ∈ content, c ≠ '"' ∧ c ≠ '\\') :
    ∃ more words, shlexSplit false (content ++ more) = some words ∧
      pushesNetwork words = false := by
  unfold replacedLine at hkept
  rw [shlexSplit_afterPush h hbreak, hpushed, shlexWords_quoted hcontent, List.nil_append] at hkept
  cases hwords : shlexWords true (.quoted '"') content rest with
  | none =>
      rw [hwords] at hkept
      cases hkept
  | some words =>
      obtain ⟨argument, others, rfl, more, rfl⟩ := prefix_of_shlexWords (by simp) hwords
      rw [hwords] at hkept
      simp only [Option.map_some, List.head?_cons, Option.some.injEq] at hkept
      rw [if_neg (by decide), if_pos trivial] at hkept
      obtain ⟨split, hsplit, hpushes⟩ := Option.map_eq_some_iff.mp hkept
      exact ⟨more, split, hsplit, hpushes⟩

theorem plain_of_all {content : Text} (h : content.all (fun c => c ≠ '"' && c ≠ '\\') = true) :
    ∀ c ∈ content, c ≠ '"' ∧ c ≠ '\\' := by
  simpa using h

theorem shlexSplit_content {word more : Text} (hne : word ≠ [])
    (h : word.all shlexPlain = true) {blank : Char} (hblank : shlexSpace blank = true)
    {words : List Text} (hsplit : shlexSplit false (word ++ blank :: more) = some words) :
    ∃ others, words = word :: others ∧ shlexSplit false more = some others := by
  rw [shlexSplit_word hne (List.all_eq_true.mp h) hblank] at hsplit
  obtain ⟨others, hothers, hwords⟩ := Option.map_eq_some_iff.mp hsplit
  exact ⟨others, hwords.symm, hothers⟩

section Line

variable (hbreak : ∀ c ∈ line, lineBreak c = false) (hkept : replacedLine line = some false)

include hbreak hkept

theorem pushedRoute_of_kept : pushedRoute line = none := by
  by_contra hsome
  obtain ⟨net, hnet⟩ := Option.ne_none_iff_exists'.mp hsome
  unfold pushedRoute at hnet
  simp only [Option.bind_eq_some_iff] at hnet
  obtain ⟨rest, ⟨route, ⟨pushed, hpush, hroute⟩, hblanks⟩, -⟩ := hnet
  obtain ⟨blank, blanks, rfl, hblank, -⟩ := eq_of_afterBlanks hblanks
  have hpushed : pushed = ("route".toList ++ [blank]) ++ (blanks ++ rest) := by
    rw [eq_of_afterWord hroute, List.append_assoc, List.singleton_append]
  have hspace : shlexSpace blank = true := by
    obtain ⟨spaces, first, blanks, hline, -⟩ := eq_of_afterPush hpush
    refine shlexSpace_of_isSpace hblank (hbreak blank ?_)
    rw [hline, hpushed]
    simp
  have hcontent : ∀ c ∈ "route".toList ++ [blank], c ≠ '"' ∧ c ≠ '\\' := by
    intro c hc
    rcases List.mem_append.mp hc with hword | hlast
    · exact plain_of_all (by decide) c hword
    · rw [List.mem_singleton.mp hlast]
      constructor <;> rintro rfl <;> exact absurd hspace (by decide)
  obtain ⟨more, words, hsplit, hpushes⟩ :=
    not_pushesNetwork_of_kept hpush hbreak hkept hpushed hcontent
  rw [List.append_assoc, List.singleton_append] at hsplit
  obtain ⟨others, rfl, -⟩ := shlexSplit_content (by decide) (by decide) hspace hsplit
  simp [pushesNetwork] at hpushes

theorem dnsLine_of_kept : dnsLine line = none := by
  cases hpush : afterPush line with
  | none => rw [dnsLine, hpush]
  | some pushed =>
      have hdhcp : dhcpOption pushed = none := by
        cases hword : afterWord "dhcp-option DNS " pushed with
        | none => rw [dhcpOption, hword, Option.bind_none]
        | some rest =>
            obtain ⟨more, words, hsplit, hpushes⟩ := not_pushesNetwork_of_kept hpush hbreak hkept
              (eq_of_afterWord hword) (plain_of_all (by decide))
            have hspell : "dhcp-option DNS ".toList ++ more =
                "dhcp-option".toList ++ ' ' :: ("DNS".toList ++ ' ' :: more) := rfl
            rw [hspell] at hsplit
            obtain ⟨others, rfl, hothers⟩ :=
              shlexSplit_content (by decide) (by decide) (by decide) hsplit
            obtain ⟨last, rfl, -⟩ :=
              shlexSplit_content (by decide) (by decide) (by decide) hothers
            simp [pushesNetwork] at hpushes
      have hserver : dnsServer pushed = none := by
        unfold dnsServer
        cases hword : afterWord "dns server " pushed with
        | none => rfl
        | some rest =>
            obtain ⟨more, words, hsplit, hpushes⟩ := not_pushesNetwork_of_kept hpush hbreak hkept
              (eq_of_afterWord hword) (plain_of_all (by decide))
            have hspell : "dns server ".toList ++ more =
                "dns".toList ++ ' ' :: ("server ".toList ++ more) := rfl
            rw [hspell] at hsplit
            obtain ⟨others, rfl, -⟩ :=
              shlexSplit_content (by decide) (by decide) (by decide) hsplit
            simp [pushesNetwork] at hpushes
      rw [dnsLine, hpush]
      simp only [hdhcp, hserver, Option.or_none]

end Line

end Kept

section Added

theorem afterPush_push (rest : Text) : afterPush ("push \"".toList ++ rest) = some rest := rfl

theorem addressChar_of_mem_dotted {n : Nat} {c : Char} (h : c ∈ dotted n) :
    addressChar c = true := by
  rcases (dotted_dotted n).2 c h with rfl | hdigit
  · decide
  · rw [addressChar, hdigit, Bool.true_or]

theorem not_isSpace_of_addressChar {c : Char} (h : addressChar c = true) : isSpace c = false := by
  rw [Bool.eq_false_iff]
  intro hspace
  simp only [isSpace, List.mem_cons, List.not_mem_nil, or_false, decide_eq_true_eq] at hspace
  rcases hspace with rfl | rfl | rfl | rfl | rfl | rfl <;> exact absurd h (by decide)

theorem addressAt_dotted (n : Nat) {c : Char} (hc : addressChar c = false) (rest : Text) :
    addressAt (dotted n ++ c :: rest) = some (dotted n, c :: rest) := by
  obtain ⟨htake, hdrop⟩ := span_append (fun d hd => addressChar_of_mem_dotted hd)
    fun d (hd : d ∈ (c :: rest).head?) => by cases hd; exact hc
  rw [addressAt, htake, hdrop, if_neg (dotted_dotted n).1]

theorem quotedAddress_dotted (n : Nat) : quotedAddress (dotted n ++ ['"']) = some (dotted n) := by
  rw [quotedAddress, addressAt_dotted n (by decide)]
  rfl

theorem dropWhile_dotted {p : Char → Bool} (hp : ∀ c, addressChar c = true → p c = false) (n : Nat)
    (rest : Text) : (dotted n ++ rest).dropWhile p = dotted n ++ rest := by
  cases htext : dotted n with
  | nil => exact absurd htext (dotted_dotted n).1
  | cons c more =>
      have hc : c ∈ dotted n := by rw [htext]; exact List.mem_cons_self
      rw [List.cons_append,
        List.dropWhile_cons_of_neg (by simp [hp c (addressChar_of_mem_dotted hc)])]

theorem dnsLine_dns (i n : Nat) :
    dnsLine ("push \"dns server ".toList ++ decimal i ++ " address ".toList ++ dotted n ++ ['"']) =
      some (dotted n) := by
  have hline : "push \"dns server ".toList ++ decimal i ++ " address ".toList ++ dotted n ++ ['"'] =
      "push \"".toList ++ ("dns server ".toList ++
        (decimal i ++ ' ' :: ("address ".toList ++ (dotted n ++ ['"'])))) := by
    simp only [List.append_assoc]
    rfl
  have hdigits : ∀ c ∈ decimal i, c.isDigit = true := fun c hc => isDigit_of_mem_decimal hc
  have hne : decimal i ≠ [] := Nat.toDigits_ne_nil
  have hserver : dnsServer ("dns server ".toList ++
      (decimal i ++ ' ' :: ("address ".toList ++ (dotted n ++ ['"'])))) = some (dotted n) := by
    unfold dnsServer
    rw [afterWord_of_append]
    dsimp only
    rw [List.takeWhile_append_of_pos hdigits, List.takeWhile_cons_of_neg (by decide),
      List.append_nil, if_neg hne, List.dropWhile_append_of_pos hdigits,
      List.dropWhile_cons_of_neg (by decide)]
    change (afterWord " address " (" address ".toList ++ _)).bind _ = _
    rw [afterWord_of_append, Option.bind_some, quotedAddress_dotted]
  rw [hline, dnsLine, afterPush_push]
  dsimp only
  rw [hserver]
  rfl

theorem dnsLine_dhcp (n : Nat) :
    dnsLine ("push \"dhcp-option DNS ".toList ++ dotted n ++ ['"']) = some (dotted n) := by
  have hline : "push \"dhcp-option DNS ".toList ++ dotted n ++ ['"'] =
      "push \"".toList ++ ("dhcp-option DNS ".toList ++ (dotted n ++ ['"'])) := by
    simp only [List.append_assoc]
    rfl
  rw [hline, dnsLine, afterPush_push]
  dsimp only
  rw [dhcpOption, afterWord_of_append, Option.bind_some, quotedAddress_dotted]
  rfl

theorem routeLine_shape (address mask : Text) :
    "push \"route ".toList ++ address ++ ' ' :: mask ++ ['"'] =
      "push \"".toList ++ ("route".toList ++ ' ' :: (address ++ ' ' :: (mask ++ ['"']))) := by
  simp only [List.append_assoc, List.cons_append]
  rfl

theorem pushedRoute_routeLine (route : Network 32) :
    pushedRoute (routeLine route) =
      some (dotted route.address.toNat ++ '/' :: dotted (netmask route)) := by
  have hline : routeLine route = "push \"".toList ++ ("route".toList ++ ' ' ::
      (dotted route.address.toNat ++ ' ' :: (dotted (netmask route) ++ ['"']))) :=
    routeLine_shape _ _
  have hspace : ∀ c, addressChar c = true → isSpace c = false :=
    fun c => not_isSpace_of_addressChar
  have hroute : ∀ c, addressChar c = true → routeBreak c = false := by
    intro c hc
    rw [routeBreak, hspace c hc, Bool.false_or, decide_eq_false_iff_not]
    rintro rfl
    exact absurd hc (by decide)
  have hmask : ((dotted (netmask route) ++ ['"']).dropWhile routeBreak).takeWhile addressChar =
      dotted (netmask route) := by
    rw [dropWhile_dotted hroute,
      List.takeWhile_append_of_pos fun d hd => addressChar_of_mem_dotted hd,
      List.takeWhile_cons_of_neg (by decide), List.append_nil]
  have hparts : routeAt (dotted route.address.toNat ++ ' ' :: (dotted (netmask route) ++ ['"'])) =
      some (dotted route.address.toNat ++ '/' :: dotted (netmask route)) := by
    rw [routeAt, addressAt_dotted _ (by decide)]
    dsimp only
    rw [List.head?_cons, if_pos (by decide), List.dropWhile_cons_of_pos (by decide), hmask]
  have hblanks : afterBlanks (' ' ::
      (dotted route.address.toNat ++ ' ' :: (dotted (netmask route) ++ ['"']))) =
      some (dotted route.address.toNat ++ ' ' :: (dotted (netmask route) ++ ['"'])) := by
    rw [afterBlanks, if_pos (by decide), dropWhile_dotted hspace]
  unfold pushedRoute
  rw [hline, afterPush_push, Option.bind_some, afterWord_of_append, Option.bind_some, hblanks,
    Option.bind_some, hparts]

end Added

section Masks

theorem and_highMask {x n k : Nat} (hx : x < 2 ^ (n + k)) :
    x &&& ((2 ^ n - 1) * 2 ^ k) = x / 2 ^ k * 2 ^ k := by
  apply Nat.eq_of_testBit_eq
  intro i
  rw [Nat.testBit_and, Nat.testBit_mul_two_pow, Nat.testBit_mul_two_pow,
    Nat.testBit_two_pow_sub_one, Nat.testBit_div_two_pow]
  by_cases hi : k ≤ i
  · by_cases hn : i - k < n
    · simp [hi, hn]
    · have hfalse : x.testBit i = false :=
        Nat.testBit_lt_two_pow (lt_of_lt_of_le hx (Nat.pow_le_pow_right (by decide) (by omega)))
      simp [hi, hn, hfalse]
  · simp [hi]

theorem maskValue_lt {bits : Nat} (h : bits ≤ 32) : (2 ^ bits - 1) * 2 ^ (32 - bits) < 2 ^ 32 := by
  have hsum : bits + (32 - bits) = 32 := by omega
  calc (2 ^ bits - 1) * 2 ^ (32 - bits) < 2 ^ bits * 2 ^ (32 - bits) :=
        Nat.mul_lt_mul_of_pos_right (Nat.sub_lt (Nat.two_pow_pos bits) (by decide))
          (Nat.two_pow_pos _)
    _ = 2 ^ 32 := by rw [← Nat.pow_add, hsum]

theorem matches_prefixMask {address ip : BitVec 32} {bits : Nat} (h : bits ≤ 32) :
    Destination.matches ⟨address, prefixMask bits⟩ ip = true ↔
      ip.toNat / 2 ^ (32 - bits) = address.toNat / 2 ^ (32 - bits) := by
  have hsum : bits + (32 - bits) = 32 := by omega
  have hand : ∀ x : BitVec 32, (x &&& prefixMask bits).toNat =
      x.toNat / 2 ^ (32 - bits) * 2 ^ (32 - bits) := by
    intro x
    rw [BitVec.toNat_and, prefixMask, BitVec.toNat_ofNat, Nat.mod_eq_of_lt (maskValue_lt h)]
    exact and_highMask (by rw [hsum]; exact x.isLt)
  unfold Destination.matches
  rw [decide_eq_true_eq, ← BitVec.toNat_inj, hand, hand]
  exact Nat.mul_left_inj (Nat.pos_iff_ne_zero.mp (Nat.two_pow_pos _))

def routeText (route : Network 32) : Text :=
  dotted route.address.toNat ++ '/' :: dotted (netmask route)

def routeDestination (route : Network 32) : Destination :=
  ⟨route.address, prefixMask route.prefixlen⟩

theorem ofNat_netmask (route : Network 32) :
    BitVec.ofNat 32 (netmask route) = prefixMask route.prefixlen := rfl

theorem netmask_lt (route : Network 32) : netmask route < 2 ^ 32 := maskValue_lt route.prefixlen_le

theorem parseDestination_dotted (ip : BitVec 32) :
    parseDestination (dotted ip.toNat) = some ⟨ip, prefixMask 32⟩ := by
  rw [parseDestination, cutFirst_of_not_mem (slash_not_mem_dotted _), parseIPv4_dotted ip.isLt,
    Option.map_some, BitVec.ofNat_toNat, BitVec.setWidth_eq]

theorem parseMask_dotted {n : Nat} (h : n < 2 ^ 32) :
    parseMask (dotted n) = some (BitVec.ofNat 32 n) := by
  have hdot : '.' ∈ dotted n := by simp [dotted, joinWith]
  have hnone : decimal? (dotted n) = none := by
    rw [decimal?, if_neg]
    intro hdigits
    exact absurd (List.all_eq_true.mp hdigits.2 '.' hdot) (by decide)
  rw [parseMask, hnone, parseIPv4_dotted h]

theorem parseDestination_route (route : Network 32) :
    parseDestination (routeText route) = some (routeDestination route) := by
  rw [parseDestination, routeText, cutFirst_append_cons (slash_not_mem_dotted _)]
  dsimp only
  rw [parseIPv4_dotted route.address.isLt, parseMask_dotted (netmask_lt route), ofNat_netmask,
    BitVec.ofNat_toNat, BitVec.setWidth_eq]
  rfl

theorem matches_route (route : Network 32) (ip : BitVec 32) :
    (routeDestination route).matches ip = true ↔
      ip.toNat / 2 ^ (32 - route.prefixlen) =
        route.address.toNat / 2 ^ (32 - route.prefixlen) :=
  matches_prefixMask route.prefixlen_le

theorem dotted_inj {n m : Nat} (hn : n < 2 ^ 32) (hm : m < 2 ^ 32) (h : dotted n = dotted m) :
    n = m := by
  have hread := parseIPv4_dotted hn
  rw [h, parseIPv4_dotted hm, Option.some.injEq] at hread
  have hvalue := congrArg BitVec.toNat hread
  rw [BitVec.toNat_ofNat, BitVec.toNat_ofNat, Nat.mod_eq_of_lt hm, Nat.mod_eq_of_lt hn] at hvalue
  exact hvalue.symm

theorem isSuffixOf_routeText (route : Network 32) {mask : Nat} (hmask : mask < 2 ^ 32) :
    ('/' :: dotted mask).isSuffixOf (routeText route) = true ↔ netmask route = mask := by
  rw [List.isSuffixOf_iff_suffix]
  constructor
  · rintro ⟨start, hstart⟩
    have hcut := cutLast_append_cons start (slash_not_mem_dotted mask)
    rw [hstart, routeText, cutLast_append_cons _ (slash_not_mem_dotted _)] at hcut
    simp only [Option.some.injEq, Prod.mk.injEq] at hcut
    exact dotted_inj (netmask_lt route) hmask hcut.2
  · rintro rfl
    exact List.suffix_append _ _

theorem isDefaultRoute_routeText (route : Network 32) :
    isDefaultRoute (routeText route) = true ↔ route.prefixlen ≤ 1 := by
  have hmasks : ∀ bits ≤ 32, ((2 ^ bits - 1) * 2 ^ (32 - bits) = 0 ∨
      (2 ^ bits - 1) * 2 ^ (32 - bits) = 0x80000000 ↔ bits ≤ 1) := by decide
  have hwhole : "/0.0.0.0".toList = '/' :: dotted 0 := by decide
  have hhalf : "/128.0.0.0".toList = '/' :: dotted 0x80000000 := by decide
  rw [isDefaultRoute, Bool.or_eq_true, hwhole, hhalf, isSuffixOf_routeText route (by decide),
    isSuffixOf_routeText route (by decide)]
  exact hmasks route.prefixlen route.prefixlen_le

theorem hostMask_routeText (route : Network 32) : hostMask (routeText route) = routeText route := by
  rw [hostMask, if_neg]
  intro hlast
  rw [routeText, List.getLast?_append_of_ne_nil _ (List.cons_ne_nil _ _),
    List.getLast?_cons_of_ne_nil (dotted_dotted _).1] at hlast
  exact slash_not_mem_dotted _ (List.mem_of_getLast? hlast)

end Masks

section Saved

theorem mem_sortUnique {text : Text} {lines : List Text} :
    text ∈ sortUnique lines ↔ text ∈ lines := by
  rw [sortUnique, List.mem_insertionSort, mem_fromKeys]

variable {a : Addressing} {dns : List (BitVec 32)} {routes : List (Network 32)}
  {conf : Text} {kept : List Text}

theorem afterPush_serverLine (net : Network 32) : afterPush (serverLine net) = none := rfl

theorem afterPush_poolLine (first last : Text) : afterPush (poolLine first last) = none := rfl

theorem pushedRoute_dns (number address : Text) :
    pushedRoute ("push \"dns server ".toList ++ number ++ " address ".toList ++ address ++ ['"']) =
      none := by
  simp only [List.append_assoc]
  rfl

theorem pushedRoute_dhcp (address : Text) :
    pushedRoute ("push \"dhcp-option DNS ".toList ++ address ++ ['"']) = none := by
  simp only [List.append_assoc]
  rfl

theorem dnsLine_route (address mask : Text) :
    dnsLine ("push \"route ".toList ++ address ++ ' ' :: mask ++ ['"']) = none := by
  rw [routeLine_shape, dnsLine, afterPush_push]
  rfl

theorem filterMap_dnsLines (i : Nat) (dns : List (BitVec 32)) :
    (dnsLines i (dns.map fun ip => dotted ip.toNat)).filterMap dnsLine =
        dns.flatMap (fun ip => [dotted ip.toNat, dotted ip.toNat]) ∧
      (dnsLines i (dns.map fun ip => dotted ip.toNat)).filterMap pushedRoute = [] := by
  induction dns generalizing i with
  | nil => exact ⟨rfl, rfl⟩
  | cons ip rest ih =>
      obtain ⟨hdns, hroutes⟩ := ih (i + 1)
      rw [List.map_cons, dnsLines]
      constructor
      · rw [List.filterMap_cons_some (dnsLine_dns i ip.toNat),
          List.filterMap_cons_some (dnsLine_dhcp ip.toNat), hdns]
        rfl
      · rw [List.filterMap_cons_none (pushedRoute_dns _ _),
          List.filterMap_cons_none (pushedRoute_dhcp _), hroutes]

theorem filterMap_routeLines (routes : List (Network 32)) :
    (routes.map routeLine).filterMap dnsLine = [] ∧
      (routes.map routeLine).filterMap pushedRoute = routes.map routeText := by
  induction routes with
  | nil => exact ⟨rfl, rfl⟩
  | cons route rest ih =>
      have hdns : dnsLine (routeLine route) = none := dnsLine_route _ _
      rw [List.map_cons]
      constructor
      · rw [List.filterMap_cons_none hdns, ih.1]
      · rw [List.filterMap_cons_some (pushedRoute_routeLine route), ih.2]
        rfl

theorem filterMap_addedLines :
    (addedLines a dns routes).filterMap dnsLine =
        dns.flatMap (fun ip => [dotted ip.toNat, dotted ip.toNat]) ∧
      (addedLines a dns routes).filterMap pushedRoute = routes.map routeText := by
  have hserver : dnsLine (serverLine a.net) = none ∧ pushedRoute (serverLine a.net) = none := by
    rw [dnsLine, pushedRoute, afterPush_serverLine]
    exact ⟨rfl, rfl⟩
  have hpool : dnsLine (poolLine (dotted a.first) (dotted a.last)) = none ∧
      pushedRoute (poolLine (dotted a.first) (dotted a.last)) = none := by
    rw [dnsLine, pushedRoute, afterPush_poolLine]
    exact ⟨rfl, rfl⟩
  obtain ⟨hdns, hdnsRoutes⟩ := filterMap_dnsLines 0 dns
  obtain ⟨hroutesDns, hroutes⟩ := filterMap_routeLines routes
  unfold addedLines
  constructor
  · rw [List.filterMap_cons_none hserver.1, List.filterMap_cons_none hpool.1,
      List.filterMap_append, hdns, hroutesDns, List.append_nil]
  · rw [List.filterMap_cons_none hserver.2, List.filterMap_cons_none hpool.2,
      List.filterMap_append, hdnsRoutes, hroutes, List.nil_append]

variable (hkept : keptLines (pyLines (universalNewlines conf)) = some kept)

include hkept

theorem filterMap_kept : kept.filterMap dnsLine = [] ∧ kept.filterMap pushedRoute = [] := by
  have hline : ∀ line ∈ kept, dnsLine line = none ∧ pushedRoute line = none := by
    intro line hline
    obtain ⟨hmem, hreplaced⟩ := keptLines_spec hkept line hline
    have hbreak := lineBreak_of_mem_pyLines hmem
    exact ⟨dnsLine_of_kept hbreak hreplaced, pushedRoute_of_kept hbreak hreplaced⟩
  constructor
  · exact List.filterMap_eq_nil_iff.mpr fun line h => (hline line h).1
  · exact List.filterMap_eq_nil_iff.mpr fun line h => (hline line h).2

theorem splitOn_saved :
    (unlines (kept ++ addedLines a dns routes)).splitOn '\n' =
      kept ++ addedLines a dns routes ++ [[]] := by
  apply splitOn_lines
  intro line hline
  rcases List.mem_append.mp hline with hline | hline
  · intro hmem
    exact absurd (lineBreak_of_mem_pyLines (keptLines_spec hkept line hline).1 '\n' hmem)
      (by decide)
  · exact (noControl_addedLines a dns routes line hline).not_mem (by decide)

theorem mem_pushedDns {text : Text} :
    text ∈ pushedDns (unlines (kept ++ addedLines a dns routes)) ↔
      ∃ ip ∈ dns, text = dotted ip.toNat := by
  have hempty : ([[]] : List Text).filterMap dnsLine = [] := rfl
  rw [pushedDns, splitOn_saved hkept, List.filterMap_append, List.filterMap_append,
    (filterMap_kept hkept).1, filterMap_addedLines.1, hempty, mem_sortUnique]
  simp

theorem pushedRoutes_saved :
    pushedRoutes (unlines (kept ++ addedLines a dns routes)) =
      (routes.filter fun route => 1 < route.prefixlen).map routeText := by
  have hempty : ([[]] : List Text).filterMap pushedRoute = [] := rfl
  have hmask : (routes.map routeText).map hostMask = routes.map routeText := by
    rw [List.map_map]
    exact List.map_congr_left fun route _ => hostMask_routeText route
  have hkeep : ∀ route ∈ routes,
      (!isDefaultRoute (routeText route)) = decide (1 < route.prefixlen) := by
    intro route _
    rw [Bool.eq_iff_iff, Bool.not_eq_true', Bool.eq_false_iff, ne_eq, isDefaultRoute_routeText,
      decide_eq_true_eq, not_le]
  rw [pushedRoutes, splitOn_saved hkept, List.filterMap_append, List.filterMap_append,
    (filterMap_kept hkept).2, filterMap_addedLines.2, hempty, List.nil_append, List.append_nil,
    hmask, List.filter_map]
  exact congrArg _ (List.filter_congr hkeep)

end Saved

end OpenvpnServer.Firewall
