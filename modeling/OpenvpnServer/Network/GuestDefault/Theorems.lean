import OpenvpnServer.Network.AddressPlan.Theorems
import OpenvpnServer.Network.GuestDefault

namespace OpenvpnServer.Network

open OpenvpnServer.Lib OpenvpnServer.Lib.Ipaddress OpenvpnServer.Lib.Netip

variable {net half : Network 32} {rest ip mask text : Text}
open OpenvpnServer.Config (afterWord eq_of_afterWord)

section Half

theorem upperHalf_spec {net : Network 32} (h : net.prefixlen ≤ 31) :
    ∃ half, upperHalf net = some half ∧ half.prefixlen = net.prefixlen + 1 ∧
      half.address.toNat = net.address.toNat + 2 ^ (31 - net.prefixlen) := by
  have hsize : 2 ^ (32 - net.prefixlen) = 2 * 2 ^ (31 - net.prefixlen) := by
    rw [show 32 - net.prefixlen = 31 - net.prefixlen + 1 by omega, Nat.pow_succ, Nat.mul_comm]
  have hwhole : 2 ^ net.prefixlen * 2 ^ (32 - net.prefixlen) = 2 ^ 32 := by
    rw [← Nat.pow_add, Nat.add_sub_cancel' net.prefixlen_le]
  have hstrict := net.strict
  unfold Prefix.clearHost at hstrict
  generalize hsub : net.address.toNat / 2 ^ (32 - net.prefixlen) = sub at hstrict
  -- the network is one of 2 ^ prefixlen, so that its second half is below 2 ^ 32
  have hlt : sub < 2 ^ net.prefixlen := by
    rw [← hsub]
    apply Nat.div_lt_of_lt_mul
    rw [Nat.mul_comm, hwhole]
    exact net.address.isLt
  have hfits : net.address.toNat + 2 ^ (31 - net.prefixlen) < 2 ^ 32 := by
    have hle : (sub + 1) * 2 ^ (32 - net.prefixlen) ≤ 2 ^ 32 := by
      rw [← hwhole]
      exact Nat.mul_le_mul_right _ hlt
    have hpos : 0 < 2 ^ (31 - net.prefixlen) := Nat.two_pow_pos _
    rw [Nat.add_mul, hstrict, Nat.one_mul] at hle
    omega
  have hhalf : (net.address + BitVec.ofNat 32 (2 ^ (31 - net.prefixlen))).toNat =
      net.address.toNat + 2 ^ (31 - net.prefixlen) := by
    rw [BitVec.toNat_add, BitVec.toNat_ofNat, Nat.add_mod_mod]
    exact Nat.mod_eq_of_lt hfits
  have haligned : Prefix.clearHost 32 (net.prefixlen + 1)
      (net.address + BitVec.ofNat 32 (2 ^ (31 - net.prefixlen))).toNat =
        (net.address + BitVec.ofNat 32 (2 ^ (31 - net.prefixlen))).toNat := by
    have hodd : net.address.toNat + 2 ^ (31 - net.prefixlen) =
        (2 * sub + 1) * 2 ^ (31 - net.prefixlen) := by
      rw [← hstrict, hsize, Nat.add_mul, Nat.one_mul, Nat.mul_comm 2 sub, Nat.mul_assoc]
    unfold Prefix.clearHost
    rw [hhalf, hodd, show 32 - (net.prefixlen + 1) = 31 - net.prefixlen by omega,
      Nat.mul_div_cancel _ (Nat.two_pow_pos _)]
  refine ⟨⟨_, net.prefixlen + 1, by omega, haligned⟩, ?_, rfl, hhalf⟩
  unfold upperHalf strictNetwork
  rw [dif_pos ⟨by omega, haligned⟩]

theorem upperHalf_of_single (h : net.prefixlen = 32) :
    upperHalf net = none := by
  unfold upperHalf strictNetwork
  rw [dif_neg]
  intro hfits
  omega

theorem prefixlen_of_upperHalf (h : upperHalf net = some half) :
    net.prefixlen ≤ 31 := by
  by_contra hlong
  have hle := net.prefixlen_le
  rw [upperHalf_of_single (by omega)] at h
  cases h

theorem upperHalf_injective {other : Network 32} (hnet : upperHalf net = some half)
    (hother : upperHalf other = some half) : net = other := by
  obtain ⟨first, hfirst, hbits, haddress⟩ := upperHalf_spec (prefixlen_of_upperHalf hnet)
  obtain ⟨second, hsecond, hbits', haddress'⟩ := upperHalf_spec (prefixlen_of_upperHalf hother)
  rw [hnet, Option.some.injEq] at hfirst
  rw [hother, Option.some.injEq] at hsecond
  rw [← hfirst] at hbits haddress
  rw [← hsecond] at hbits' haddress'
  have hlen : net.prefixlen = other.prefixlen := by omega
  rw [← hlen] at haddress'
  have hsame : net.address = other.address := BitVec.eq_of_toNat_eq (by omega)
  cases net
  cases other
  simp only [Network.mk.injEq]
  exact ⟨hsame, hlen⟩

theorem bootstrapText_eq_iff (h : upperHalf net = some half)
    (found : Option (Network 32)) :
    bootstrapText found = .ok (IpNetwork.v4 half).str ↔
      found = some net ∨ (found = none ∧ (IpNetwork.v4 half).str = "10.8.0.128/25".toList) := by
  cases found with
  | none =>
      simp only [bootstrapText, Except.ok.injEq, reduceCtorEq, false_or, true_and]
      exact eq_comm
  | some other =>
      simp only [Option.some.injEq, reduceCtorEq, false_and, or_false]
      constructor
      · intro hsame
        unfold bootstrapText at hsame
        dsimp only at hsame
        cases hother : upperHalf other with
        | none =>
            rw [hother] at hsame
            cases hsame
        | some part =>
            rw [hother] at hsame
            dsimp only at hsame
            rw [Except.ok.injEq] at hsame
            have hpart := str_injective rfl rfl hsame
            rw [IpNetwork.v4.injEq] at hpart
            rw [hpart] at hother
            exact upperHalf_injective hother h
      · intro hsame
        rw [hsame]
        unfold bootstrapText
        dsimp only
        rw [h]

end Half

section Shell

theorem ifsWords_dotted (n : Nat) :
    ifsWords (dotted n) = [decimal (n / 2 ^ 24 % 256), decimal (n / 2 ^ 16 % 256),
      decimal (n / 2 ^ 8 % 256), decimal (n % 256)] := by
  unfold ifsWords
  rw [splitOn_dotted, if_neg]
  intro hlast
  simp [decimal, Nat.toDigits_ne_nil] at hlast

theorem arithmeticWord_decimal (n : Nat) : arithmeticWord (decimal n) = some n := by
  unfold arithmeticWord
  rw [if_neg, decimal?_decimal]
  intro h
  rcases @decimal_zero_or n with hhead | hlength
  · exact hhead h.1
  · exact h.2 hlength

theorem addressNumber_dotted {n : Nat} (h : n < 2 ^ 32) : addressNumber (dotted n) = some n := by
  unfold addressNumber
  rw [ifsWords_dotted]
  simp only [List.foldlM_cons, List.foldlM_nil, arithmeticWord_decimal, Option.map_some,
    Option.bind_eq_bind, Option.bind_some, Option.pure_def, Option.some.injEq]
  omega

theorem maskBits_netmask (hhigh : net.prefixlen ≤ 28) :
    maskBits (dotted (netmask net)) = some net.prefixlen := by
  have hall : ∀ bits ≤ 28, maskBits (dotted ((2 ^ bits - 1) * 2 ^ (32 - bits))) = some bits := by
    decide
  exact hall net.prefixlen hhigh

theorem guestOfWords_upperHalf (hlow : 1 ≤ net.prefixlen)
    (hhigh : net.prefixlen ≤ 28) (hhalf : upperHalf net = some half) :
    guestOfWords (dotted net.address.toNat) (dotted (netmask net)) =
      some (IpNetwork.v4 half).str := by
  obtain ⟨other, hother, hbits, haddress⟩ := @upperHalf_spec net (by omega)
  rw [hhalf, Option.some.injEq] at hother
  rw [← hother] at hbits haddress
  unfold guestOfWords
  rw [maskBits_netmask hhigh, Option.bind_eq_bind, Option.bind_some, if_pos ⟨hlow, hhigh⟩,
    addressNumber_dotted net.address.isLt, Option.bind_some,
    IpNetwork.str, haddress, hbits]
  rfl

end Shell

-- What the pattern finds, where blanks, tabs and newlines are the only white space.
section Pattern

def PlainSpaces (text : Text) : Prop :=
  ∀ c ∈ text, pySpace c = true → c = ' ' ∨ c = '\t' ∨ c = '\n'

instance (text : Text) : Decidable (PlainSpaces text) :=
  List.decidableBAll (fun c => pySpace c = true → c = ' ' ∨ c = '\t' ∨ c = '\n') text

theorem pySpace_of_awkBlank {c : Char} (h : awkBlank c = true) : pySpace c = true := by
  simp only [awkBlank, Bool.or_eq_true, decide_eq_true_eq] at h
  rcases h with rfl | rfl <;> decide

theorem PlainSpaces.awkBlank_eq {line : Text} (h : PlainSpaces line) (hline : '\n' ∉ line) {c : Char}
    (hc : c ∈ line) : awkBlank c = pySpace c := by
  rw [Bool.eq_iff_iff]
  constructor
  · exact pySpace_of_awkBlank
  · intro hspace
    rcases h c hc hspace with rfl | rfl | rfl
    · rfl
    · rfl
    · exact absurd hc hline

theorem awkField_parts (line : Text) :
    ∃ blanks, line = blanks ++ ((awkField line).1 ++ (awkField line).2) ∧
      (∀ c ∈ blanks, awkBlank c = true) ∧ (∀ c ∈ (awkField line).1, awkBlank c = false) ∧
      ∀ c ∈ (awkField line).2.head?, awkBlank c = true := by
  refine ⟨line.takeWhile awkBlank, ?_, fun c hc => List.mem_takeWhile_imp hc, ?_, ?_⟩
  · unfold awkField
    dsimp only
    rw [List.takeWhile_append_dropWhile, List.takeWhile_append_dropWhile]
  · intro c hc
    have := List.mem_takeWhile_imp hc
    simpa using this
  · intro c hc
    unfold awkField at hc
    dsimp only at hc
    have hstop := List.head?_dropWhile_not (! awkBlank ·) (line.dropWhile awkBlank)
    rw [Option.mem_def.mp hc] at hstop
    simpa using hstop

theorem blanks_ne_nil {line blanks field : Text} (hline : line = blanks ++ (field ++ rest))
    (hfield : field ≠ []) (hplain : ∀ c ∈ field, awkBlank c = false)
    (hhead : ∀ c ∈ line.head?, awkBlank c = true) : blanks ≠ [] := by
  intro hnil
  obtain ⟨c, more, rfl⟩ := List.exists_cons_of_ne_nil hfield
  have hfirst := hhead c (by rw [hline, hnil]; rfl)
  rw [hplain c List.mem_cons_self] at hfirst
  cases hfirst

theorem afterSpaces_append {spaces : Text} (hne : spaces ≠ [])
    (hspaces : ∀ c ∈ spaces, pySpace c = true) (hrest : ∀ c ∈ rest.head?, pySpace c = false) :
    afterSpaces (spaces ++ rest) = some rest := by
  obtain ⟨c, more, rfl⟩ := List.exists_cons_of_ne_nil hne
  rw [List.cons_append, afterSpaces, if_pos (hspaces c List.mem_cons_self),
    List.dropWhile_append_of_pos fun d hd => hspaces d (List.mem_cons_of_mem _ hd)]
  cases rest with
  | nil => rfl
  | cons d rest => rw [List.dropWhile_cons_of_neg (by simp [hrest d rfl])]

theorem wordAt_append {word : Text} (hne : word ≠ [])
    (hword : ∀ c ∈ word, pySpace c = false) (hrest : ∀ c ∈ rest.head?, pySpace c = true) :
    wordAt (word ++ rest) = some (word, rest) := by
  have hplain : ∀ c ∈ word, (! pySpace c) = true := fun c hc => by simp [hword c hc]
  obtain ⟨htake, hdrop⟩ := span_append hplain fun c hc => by simp [hrest c hc]
  unfold wordAt
  rw [htake, hdrop, if_neg hne]

-- (\S+)\s+(\S+) behind the word
def wordsBehind (rest : Text) : Option (Text × Text) := do
  let (address, rest) ← wordAt rest
  let rest ← afterSpaces rest
  let (mask, _) ← wordAt rest
  pure (address, mask)

theorem serverWords_eq :
    serverWords = fun start => (afterOption "server" start).bind wordsBehind := rfl

theorem head?_append_of_ne_nil {word : Text} (hne : word ≠ []) {p : Char → Prop}
    (hword : ∀ c ∈ word, p c) : ∀ c ∈ (word ++ rest).head?, p c := by
  obtain ⟨c, more, rfl⟩ := List.exists_cons_of_ne_nil hne
  intro d hd
  cases hd
  exact hword c List.mem_cons_self

theorem serverWords_parts {before between blanks : Text}
    (hbefore : ∀ c ∈ before, pySpace c = true)
    (hblanks : blanks ≠ [] ∧ ∀ c ∈ blanks, pySpace c = true)
    (hip : ip ≠ [] ∧ ∀ c ∈ ip, pySpace c = false)
    (hbetween : between ≠ [] ∧ ∀ c ∈ between, pySpace c = true)
    (hmask : mask ≠ [] ∧ ∀ c ∈ mask, pySpace c = false)
    (hrest : ∀ c ∈ rest.head?, pySpace c = true) :
    serverWords (before ++ ("server".toList ++ (blanks ++ (ip ++ (between ++ (mask ++ rest)))))) =
      some (ip, mask) := by
  have hoption : afterOption "server"
      (before ++ ("server".toList ++ (blanks ++ (ip ++ (between ++ (mask ++ rest)))))) =
        some (ip ++ (between ++ (mask ++ rest))) := by
    unfold afterOption
    rw [List.dropWhile_append_of_pos hbefore, show "server".toList = 's' :: "erver".toList from rfl,
      List.cons_append, List.dropWhile_cons_of_neg (by decide), ← List.cons_append,
      show 's' :: "erver".toList = "server".toList from rfl, afterWord_of_append, Option.bind_some]
    exact afterSpaces_append hblanks.1 hblanks.2 (head?_append_of_ne_nil hip.1 hip.2)
  rw [serverWords_eq]
  dsimp only
  rw [hoption, Option.bind_some]
  unfold wordsBehind
  rw [wordAt_append hip.1 hip.2 (head?_append_of_ne_nil hbetween.1 hbetween.2),
    Option.bind_eq_bind, Option.bind_some]
  dsimp only
  rw [afterSpaces_append hbetween.1 hbetween.2 (head?_append_of_ne_nil hmask.1 hmask.2),
    Option.bind_eq_bind, Option.bind_some, wordAt_append hmask.1 hmask.2 hrest]
  rfl

section Line

variable {line : Text} (hplain : PlainSpaces line) (hline : '\n' ∉ line)

include hplain hline

theorem serverWords_of_fields {ip mask rest : Text} (h : serverFields line = some (ip, mask))
    (hip : ip ≠ []) (hmask : mask ≠ []) (hrest : ∀ c ∈ rest.head?, pySpace c = true) :
    serverWords (line ++ rest) = some (ip, mask) := by
  have hsame : ∀ {c : Char}, c ∈ line → awkBlank c = pySpace c := hplain.awkBlank_eq hline
  unfold serverFields at h
  dsimp only at h
  split at h
  · rename_i hserver
    simp only [Option.some.injEq, Prod.mk.injEq] at h
    obtain ⟨rfl, rfl⟩ := h
    obtain ⟨before, hfirst, hbefore, -, hnext⟩ := awkField_parts line
    obtain ⟨blanks, hsecond, hblanks, hword, hnext'⟩ := awkField_parts (awkField line).2
    obtain ⟨between, hthird, hbetween, hword', hend⟩ :=
      awkField_parts (awkField (awkField line).2).2
    generalize awkField line = first at *
    generalize awkField first.2 = second at *
    generalize awkField second.2 = third at *
    have hblanksNe := blanks_ne_nil hsecond hip hword hnext
    have hbetweenNe := blanks_ne_nil hthird hmask hword' hnext'
    have hwhole : line = before ++ ("server".toList ++
        (blanks ++ (second.1 ++ (between ++ (third.1 ++ third.2))))) := by
      rw [← hthird, ← hsecond, ← hserver, ← hfirst]
    have hmem : ∀ {c : Char}, c ∈ second.1 ∨ c ∈ third.1 → c ∈ line := by
      intro c hc
      rw [hwhole]
      rcases hc with hc | hc <;> simp [hc]
    have hbehind : ∀ c ∈ (third.2 ++ rest).head?, pySpace c = true := by
      cases hthird' : third.2 with
      | nil => exact hrest
      | cons d more =>
          intro c hc
          cases hc
          exact pySpace_of_awkBlank (hend d (by rw [hthird']; rfl))
    rw [hwhole]
    simp only [List.append_assoc]
    exact serverWords_parts (fun c hc => pySpace_of_awkBlank (hbefore c hc))
      ⟨hblanksNe, fun c hc => pySpace_of_awkBlank (hblanks c hc)⟩
      ⟨hip, fun c hc => (hsame (hmem (.inl hc))).symm.trans (hword c hc)⟩
      ⟨hbetweenNe, fun c hc => pySpace_of_awkBlank (hbetween c hc)⟩
      ⟨hmask, fun c hc => (hsame (hmem (.inr hc))).symm.trans (hword' c hc)⟩ hbehind
  · cases h

theorem readsAs_of_fields (h : serverFields line = none) : readsAs "server" line = false := by
  have hsame : ∀ {c : Char}, c ∈ line → awkBlank c = pySpace c := hplain.awkBlank_eq hline
  rw [← Bool.not_eq_true]
  intro hreads
  unfold readsAs at hreads
  obtain ⟨rest, hafter, hhead⟩ := (Option.any_eq_true _ _).mp hreads
  have hdrop : line.dropWhile awkBlank = "server".toList ++ rest := by
    rw [← eq_of_afterWord hafter]
    exact dropWhile_congr fun c hc => hsame hc
  have hfield : (awkField line).1 = "server".toList := by
    unfold awkField
    dsimp only
    rw [hdrop, List.takeWhile_append_of_pos (List.all_eq_true.mp (by decide))]
    cases rest with
    | nil => rfl
    | cons c more =>
        have hmem : c ∈ line := (List.dropWhile_sublist awkBlank).subset (by rw [hdrop]; simp)
        have hspace : pySpace c = true := by simpa using hhead
        rw [List.takeWhile_cons_of_neg (by simp [hsame hmem, hspace]), List.append_nil]
  unfold serverFields at h
  dsimp only at h
  rw [if_pos hfield] at h
  cases h

end Line

theorem searchLines_of_fields {lines : List Text}
    (hlines : ∀ line ∈ lines, PlainSpaces line ∧ '\n' ∉ line)
    (h : lines.findSome? serverFields = some (ip, mask)) (hip : ip ≠ []) (hmask : mask ≠ []) :
    searchLines serverWords (joinWith '\n' lines) = some (ip, mask) := by
  induction lines with
  | nil => cases h
  | cons line rest ih =>
      obtain ⟨hplain, hline⟩ := hlines line List.mem_cons_self
      rw [List.findSome?_cons] at h
      cases hfields : serverFields line with
      | some words =>
          rw [hfields] at h
          cases h
          have hfound : serverWords (joinWith '\n' (line :: rest)) = some (ip, mask) := by
            cases rest with
            | nil =>
                have halone := @serverWords_of_fields line hplain hline ip mask [] hfields hip hmask
                  (by simp)
                rwa [List.append_nil] at halone
            | cons next more =>
                rw [joinWith_cons_cons]
                exact serverWords_of_fields hplain hline hfields hip hmask (by simp; decide)
          unfold searchLines
          rw [List.findSome?_cons, hfound]
      | none =>
          rw [hfields] at h
          cases rest with
          | nil => cases h
          | cons next more =>
              rw [joinWith_cons_cons, serverWords_eq,
                searchLines_skip (by decide) hline (readsAs_of_fields hplain hline hfields),
                ← serverWords_eq]
              exact ih (fun other hother => hlines other (List.mem_cons_of_mem _ hother)) h

theorem ascii_of_awkBlank (c : Char) (h : awkBlank c = true) : c.toNat < 128 := by
  simp only [awkBlank, Bool.or_eq_true, decide_eq_true_eq] at h
  rcases h with rfl | rfl <;> decide

theorem awkField_octets (line : Text) :
    awkField (octets line) = (octets (awkField line).1, octets (awkField line).2) := by
  unfold awkField
  dsimp only
  rw [dropWhile_octets ascii_of_awkBlank, takeWhile_not_octets ascii_of_awkBlank,
    dropWhile_not_octets ascii_of_awkBlank]

theorem serverFields_octets (line : Text) :
    serverFields (octets line) =
      (serverFields line).map fun words => (octets words.1, octets words.2) := by
  unfold serverFields
  rw [awkField_octets]
  dsimp only
  rw [awkField_octets, awkField_octets]
  have hserver : octets "server".toList = "server".toList :=
    octets_ascii (List.all_iff_forall_prop.mp (by decide))
  by_cases h : (awkField line).1 = "server".toList
  · rw [if_pos h, if_pos (by rw [h, hserver]), Option.map_some]
  · rw [if_neg h, if_neg, Option.map_none]
    intro hbytes
    rw [← hserver] at hbytes
    exact h (octets_injective hbytes)

theorem Dotted.ascii (h : Dotted text) : ∀ c ∈ text, c.toNat < 128 := by
  intro c hc
  rcases h.2 c hc with rfl | hdigit
  · decide
  · have hrange := isDigit_iff.mp hdigit
    omega

theorem fields_of_octets (hip : Dotted ip) (hmask : Dotted mask)
    (h : ((octets text).splitOn '\n').findSome? serverFields = some (ip, mask)) :
    (text.splitOn '\n').findSome? serverFields = some (ip, mask) := by
  have hlines : (octets text).splitOn '\n' = (text.splitOn '\n').map octets :=
    splitOnP_octets (fun c hc => by rw [eq_of_beq hc]; decide) text
  rw [hlines, List.findSome?_map,
    show serverFields ∘ octets =
      Option.map (fun words => (octets words.1, octets words.2)) ∘ serverFields from
        funext serverFields_octets, ← List.map_findSome?] at h
  obtain ⟨words, hwords, hsame⟩ := Option.map_eq_some_iff.mp h
  rw [Prod.mk.injEq] at hsame
  have hfirst : words.1 = ip := octets_injective (hsame.1.trans (octets_ascii hip.ascii).symm)
  have hsecond : words.2 = mask := octets_injective (hsame.2.trans (octets_ascii hmask.ascii).symm)
  rw [hwords, ← hfirst, ← hsecond]

theorem PlainSpaces.lines (h : PlainSpaces text) :
    ∀ line ∈ text.splitOn '\n', PlainSpaces line ∧ '\n' ∉ line := by
  intro line hline
  constructor
  · intro c hc
    exact h c (mem_of_mem_splitOnP hline hc)
  · intro hmem
    have hkept := not_of_mem_splitOnP hline '\n' hmem
    simp at hkept

end Pattern

section Default

-- The first line with the first word `server` gives this network.
def ServerLineOf (conf : Bytes) (net : Network 32) : Prop :=
  awkServer (latin1 conf) = (dotted net.address.toNat, dotted (netmask net))

instance (conf : Bytes) (net : Network 32) : Decidable (ServerLineOf conf net) :=
  inferInstanceAs (Decidable (_ = _))

variable {conf : Bytes} {net : Network 32}

theorem patternNetwork_of_plain (hserver : ServerLineOf conf net)
    (hdecode : utf8Decode? conf = some text) (hplain : PlainSpaces text) :
    patternNetwork conf = some net := by
  have hip := dotted_dotted net.address.toNat
  have hmask := dotted_dotted (netmask net)
  have hfields : (text.splitOn '\n').findSome? serverFields =
      some (dotted net.address.toNat, dotted (netmask net)) := by
    apply fields_of_octets hip hmask
    unfold ServerLineOf awkServer at hserver
    rw [← utf8_of_decode hdecode] at hserver
    cases hfound : ((latin1 (utf8 text)).splitOn '\n').findSome? serverFields with
    | some words =>
        rw [hfound, Option.getD_some] at hserver
        rw [← hserver]
        exact hfound
    | none =>
        rw [hfound, Option.getD_none, Prod.mk.injEq] at hserver
        exact absurd hserver.1.symm hip.1
  have hcr : '\r' ∉ text := by
    intro hmem
    rcases hplain '\r' hmem (by decide) with h | h | h <;> cases h
  have hsearch := searchLines_of_fields hplain.lines hfields hip.1 hmask.1
  rw [joinWith_splitOn] at hsearch
  unfold patternNetwork
  rw [hdecode, Option.bind_some, universalNewlines_of_not_mem hcr, hsearch, Option.bind_some]
  exact ipv4Network_netmask net

theorem guestDefault_of_server (hserver : ServerLineOf conf net)
    (hlow : 1 ≤ net.prefixlen) (hhigh : net.prefixlen ≤ 28) (hhalf : upperHalf net = some half) :
    guestDefault conf = some (IpNetwork.v4 half).str := by
  unfold guestDefault
  rw [show awkServer (latin1 conf) = _ from hserver]
  exact guestOfWords_upperHalf hlow hhigh hhalf

theorem str_upperHalf_eq_iff (hhalf : upperHalf net = some half) :
    (IpNetwork.v4 half).str = "10.8.0.128/25".toList ↔
      (IpNetwork.v4 net).str = "10.8.0.0/24".toList := by
  have hbase : ((ipv4Network "10.8.0.0/24".toList).bind upperHalf).map (fun n => (IpNetwork.v4 n).str)
      = some "10.8.0.128/25".toList ∧
      (ipv4Network "10.8.0.0/24".toList).map (fun n => (IpNetwork.v4 n).str) =
        some "10.8.0.0/24".toList := by
    decide
  obtain ⟨base, hparse, hbaseStr⟩ := Option.map_eq_some_iff.mp hbase.2
  rw [hparse, Option.bind_some] at hbase
  obtain ⟨baseHalf, hbaseHalf, hhalfStr⟩ := Option.map_eq_some_iff.mp hbase.1
  rw [← hbaseStr, ← hhalfStr]
  constructor
  · intro h
    have hsame := str_injective rfl rfl h
    rw [IpNetwork.v4.injEq] at hsame
    rw [upperHalf_injective hhalf (hsame ▸ hbaseHalf)]
  · intro h
    have hsame := str_injective rfl rfl h
    rw [IpNetwork.v4.injEq] at hsame
    rw [hsame, hbaseHalf, Option.some.injEq] at hhalf
    rw [hhalf]

def bareHost : Host := { plainHost with guestSub := [], vars := ⟨[], [], []⟩ }

def branchNet : Network 32 := ⟨0x0a090000, 24, Nat.le_add_right 24 8, by decide⟩

def plainConf : Bytes := utf8 "port 1194\nserver 10.9.0.0 255.255.255.0\n".toList

-- A comment in Latin-1: the whole file is no text for the UI.
def latinConf : Bytes :=
  utf8 "# r".toList ++ 0xe9 :: utf8 "seau\nserver 10.9.0.0 255.255.255.0\n".toList

end Default

end OpenvpnServer.Network
