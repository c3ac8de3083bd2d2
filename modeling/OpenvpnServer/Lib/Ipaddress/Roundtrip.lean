import OpenvpnServer.Lib.Ipaddress.Lemmas
import OpenvpnServer.Lib.Table

-- A network without a scope is read back by Go's `netip` from what Python prints.
namespace OpenvpnServer.Lib.Ipaddress

open OpenvpnServer.Lib.Netip

variable {groups : List Nat} {parts : List Text} {mask : Option Text} {text : Text} {n : Nat}
  {c : Char} {net : IpNetwork}

section Groups

theorem expandGroups_gap (hi lo : List Nat) (h : hi.length + lo.length < 8) :
    expandGroups (hi ++ lo) (some hi.length) =
      some (hi ++ List.replicate (8 - (hi.length + lo.length)) 0 ++ lo) := by
  unfold expandGroups
  rw [List.length_append]
  simp [h]

theorem parseIPv6Groups_of_head (h : text.head? ≠ some ':')
    {ellipsis : Option Nat} (hparse : parseGroups 8 [] none text = some (groups, ellipsis, [])) :
    parseIPv6Groups text = expandGroups groups ellipsis := by
  unfold parseIPv6Groups
  split
  · simp at h
  · simp at h
  · simp only [hparse]

theorem parseIPv6Groups_compress (hlen : parts.length = 8)
    (h : ∀ part ∈ parts, HexPart part) :
    parseIPv6Groups (joinWith ':' (compressHextets parts)) = some (parts.map hexValue) := by
  rcases joinWith_compressHextets parts with hall | ⟨hi, lo, k, hk, hparts, hjoin⟩
  · have hne : parts ≠ [] := by
      rintro rfl
      cases hlen
    have hparse := parseGroups_joinWith hne h (Nat.le_of_eq hlen) [] none
    rw [hall, parseIPv6Groups_of_head (head?_joinWith h) hparse]
    simp [expandGroups, hlen]
  · rw [hjoin]
    subst hparts
    have hhi : ∀ part ∈ hi, HexPart part := fun part hp => h part (by simp [hp])
    have hlo : ∀ part ∈ lo, HexPart part := fun part hp => h part (by simp [hp])
    simp only [List.length_append, List.length_replicate] at hlen
    have hzero : hexValue ['0'] = 0 := by decide
    have hexpand : expandGroups (hi.map hexValue ++ lo.map hexValue) (some hi.length) =
        some ((hi ++ List.replicate k ['0'] ++ lo).map hexValue) := by
      have hgap := expandGroups_gap (hi.map hexValue) (lo.map hexValue)
        (by simp only [List.length_map]; omega)
      simp only [List.length_map] at hgap
      rw [hgap, List.map_append, List.map_append, List.map_replicate, hzero]
      have hcount : 8 - (hi.length + lo.length) = k := by omega
      rw [hcount]
    by_cases hnil : hi = []
    · subst hnil
      by_cases hlast : lo = []
      · subst hlast
        exact hexpand
      · have hparse := parseGroups_joinWith hlast hlo (by omega : lo.length ≤ 8) [] (some 0)
        obtain ⟨c, more, hc⟩ := List.exists_cons_of_ne_nil (joinWith_ne_nil hlast hlo)
        rw [hc] at hparse ⊢
        simp only [joinWith, List.nil_append, parseIPv6Groups, hparse]
        simpa using hexpand
    · have hparse := parseGroups_gap hnil hhi hlo (by omega : hi.length + lo.length ≤ 8) []
      have hhead : (joinWith ':' hi ++ ':' :: ':' :: joinWith ':' lo).head? ≠ some ':' := by
        rw [List.head?_append_of_ne_nil _ (joinWith_ne_nil hnil hhi)]
        exact head?_joinWith hhi
      rw [parseIPv6Groups_of_head hhead hparse]
      simpa using hexpand

theorem ofGroups_hextetValues (h : n < 2 ^ 128) : ofGroups (hextetValues n) = n := by
  have hvalues : hextetValues n = [n / 2 ^ 112 % 2 ^ 16, n / 2 ^ 96 % 2 ^ 16, n / 2 ^ 80 % 2 ^ 16,
      n / 2 ^ 64 % 2 ^ 16, n / 2 ^ 48 % 2 ^ 16, n / 2 ^ 32 % 2 ^ 16, n / 2 ^ 16 % 2 ^ 16,
      n / 2 ^ 0 % 2 ^ 16] := rfl
  rw [hvalues]
  simp only [ofGroups, List.foldl_cons, List.foldl_nil]
  omega

theorem hexPart_of_mem_hextets {part : Text} (h : part ∈ (hextetValues n).map hex) :
    HexPart part := by
  obtain ⟨value, hvalue, rfl⟩ := List.mem_map.mp h
  obtain ⟨i, -, rfl⟩ := List.mem_map.mp hvalue
  exact hexPart_hex (Nat.mod_lt _ (by decide))

theorem parseIPv6Groups_stringFromInt (n : Nat) :
    parseIPv6Groups (stringFromInt n) = some (hextetValues n) := by
  unfold stringFromInt
  rw [parseIPv6Groups_compress (by simp [hextetValues]) fun _ hp => hexPart_of_mem_hextets hp,
    List.map_map]
  have hback : hexValue ∘ hex = id := funext hexValue_hex
  rw [hback, List.map_id]

theorem isHexDigit_of_isDigit (h : c.isDigit = true) : isHexDigit c = true := by
  have hle : '0' ≤ c ∧ c ≤ '9' := by
    simpa [Char.isDigit, Char.le_def, and_comm] using h
  simp [isHexDigit, hexDigit?, hle.1, hle.2]

theorem hexPart_decimal (h : n < 256) : HexPart (decimal n) := by
  refine ⟨Nat.toDigits_ne_nil, ?_, fun c hc => isHexDigit_of_isDigit (isDigit_of_mem_decimal hc)⟩
  exact (Nat.length_toDigits_le_iff (by decide) (by decide)).mpr (by omega)

theorem parseGroups_dotted (fuel : Nat) (hgroups : groups.length ≤ 6)
    (gap : Nat) {m : Nat} (hm : m < 2 ^ 32) :
    parseGroups (fuel + 1) groups (some gap) (dotted m) =
      some (groups ++ [m / 2 ^ 16, m % 2 ^ 16], some gap, []) := by
  have hfirst : HexPart (decimal (m / 2 ^ 24 % 256)) := hexPart_decimal (Nat.mod_lt _ (by decide))
  have hspan := span_hexPart hfirst ('.' :: joinWith '.' [decimal (m / 2 ^ 16 % 256),
    decimal (m / 2 ^ 8 % 256), decimal (m % 256)]) (by simp; decide)
  have htext : decimal (m / 2 ^ 24 % 256) ++ '.' :: joinWith '.' [decimal (m / 2 ^ 16 % 256),
      decimal (m / 2 ^ 8 % 256), decimal (m % 256)] = dotted m := rfl
  rw [htext] at hspan
  have hfew : ¬((some gap = none ∧ groups.length ≠ 6) ∨ 8 < groups.length + 2) := by
    rintro (⟨hnone, -⟩ | hmany)
    · cases hnone
    · omega
  have hvalue : (BitVec.ofNat 32 m).toNat = m := by
    rw [BitVec.toNat_ofNat]
    exact Nat.mod_eq_of_lt hm
  rw [parseGroups]
  simp only [hspan.1, hspan.2, if_neg (not_badLength hfirst), if_neg hfew, parseIPv4_dotted hm,
    Option.map_some, hvalue]

theorem parseIPv6Groups_mapped {m : Nat} (hm : m < 2 ^ 32) :
    parseIPv6Groups (stringFromInt 0xffff ++ ':' :: dotted m) =
      some ([0, 0, 0, 0, 0, 0xffff] ++ [m / 2 ^ 16, m % 2 ^ 16]) := by
  have hstring : stringFromInt 0xffff = "::ffff".toList := by decide
  have hpart : HexPart "ffff".toList := ⟨by decide, by decide, List.all_eq_true.mp (by decide)⟩
  have hne : dotted m ≠ [] := by
    unfold dotted
    rw [joinWith_cons_cons]
    simp
  have hhead : (dotted m).head? ≠ some ':' := by
    have hfirst : HexPart (decimal (m / 2 ^ 24 % 256)) := hexPart_decimal (Nat.mod_lt _ (by decide))
    unfold dotted
    rw [joinWith_cons_cons, List.head?_append_of_ne_nil _ hfirst.1]
    intro hcolon
    have hdigit := isDigit_of_mem_decimal (List.mem_of_mem_head? hcolon)
    exact absurd hdigit (by decide)
  have hgroups := parseGroups_colon hpart 7 [] (some 0) hne hhead
  rw [parseGroups_dotted 6 (by simp) 0 hm] at hgroups
  have hstart : stringFromInt 0xffff ++ ':' :: dotted m =
      ':' :: ':' :: ("ffff".toList ++ ':' :: dotted m) := by
    rw [hstring]
    rfl
  rw [hstart]
  have hcons : "ffff".toList ++ ':' :: dotted m = 'f' :: 'f' :: 'f' :: 'f' :: ':' :: dotted m := rfl
  have hvalue : hexValue "ffff".toList = 65535 := by decide
  rw [hcons, hvalue] at hgroups
  rw [hcons]
  simp [parseIPv6Groups, hgroups, expandGroups]

end Groups

section Characters

def netChar (c : Char) : Bool := isHexDigit c || c = '.' || c = ':' || c = '/'

theorem netChar_range (h : netChar c = true) : 46 ≤ c.toNat ∧ c.toNat ≤ 102 := by
  simp only [netChar, isHexDigit, hexDigit?, Bool.or_eq_true, decide_eq_true_eq] at h
  rcases h with ((hhex | rfl) | rfl) | rfl
  · simp only [Char.le_def, UInt32.le_iff_toNat_le] at hhex
    have hzero : ('0' : Char).val.toNat = 48 := rfl
    have hnine : ('9' : Char).val.toNat = 57 := rfl
    have hA : ('A' : Char).val.toNat = 65 := rfl
    have hF : ('F' : Char).val.toNat = 70 := rfl
    have ha : ('a' : Char).val.toNat = 97 := rfl
    have hf : ('f' : Char).val.toNat = 102 := rfl
    have hc : c.toNat = c.val.toNat := rfl
    repeat' split at hhex
    all_goals first
      | omega
      | cases hhex
  · decide
  · decide
  · decide

theorem mem_joinWith {sep : Char} (h : c ∈ joinWith sep parts) :
    c = sep ∨ ∃ part ∈ parts, c ∈ part := by
  induction parts with
  | nil => cases h
  | cons first rest ih =>
      cases rest with
      | nil => exact .inr ⟨first, List.mem_cons_self, h⟩
      | cons next more =>
          rw [joinWith_cons_cons, List.mem_append, List.mem_cons] at h
          rcases h with hfirst | hsep | hrest
          · exact .inr ⟨first, List.mem_cons_self, hfirst⟩
          · exact .inl hsep
          · rcases ih hrest with hsep | ⟨part, hpart, hc⟩
            · exact .inl hsep
            · exact .inr ⟨part, List.mem_cons_of_mem _ hpart, hc⟩

theorem mem_decimal (h : c ∈ decimal n) : isHexDigit c = true :=
  isHexDigit_of_isDigit (isDigit_of_mem_decimal h)

theorem mem_dotted (h : c ∈ dotted n) : isHexDigit c = true ∨ c = '.' := by
  rcases mem_joinWith h with hsep | ⟨part, hpart, hc⟩
  · exact .inr hsep
  · left
    simp only [List.mem_cons, List.not_mem_nil, or_false] at hpart
    rcases hpart with rfl | rfl | rfl | rfl <;> exact mem_decimal hc

theorem mem_stringFromInt (h : c ∈ stringFromInt n) :
    isHexDigit c = true ∨ c = ':' := by
  have hparts : ∀ part ∈ (hextetValues n).map hex, c ∈ part → isHexDigit c = true := by
    intro part hpart hc
    exact (hexPart_of_mem_hextets hpart).2.2 c hc
  unfold stringFromInt at h
  rcases joinWith_compressHextets ((hextetValues n).map hex) with hall | ⟨hi, lo, k, -, heq, hjoin⟩
  · rw [hall] at h
    rcases mem_joinWith h with hsep | ⟨part, hpart, hc⟩
    · exact .inr hsep
    · exact .inl (hparts part hpart hc)
  · rw [hjoin, List.mem_append, List.mem_cons, List.mem_cons] at h
    rcases h with hhi | hsep | hsep | hlo
    · rcases mem_joinWith hhi with hsep | ⟨part, hpart, hc⟩
      · exact .inr hsep
      · exact .inl (hparts part (by rw [heq]; simp [hpart]) hc)
    · exact .inr hsep
    · exact .inr hsep
    · rcases mem_joinWith hlo with hsep | ⟨part, hpart, hc⟩
      · exact .inr hsep
      · exact .inl (hparts part (by rw [heq]; simp [hpart]) hc)

theorem mem_ipv6String (h : c ∈ ipv6String n) :
    isHexDigit c = true ∨ c = ':' ∨ c = '.' := by
  unfold ipv6String at h
  split at h
  · rw [List.mem_append, List.mem_cons] at h
    rcases h with hhigh | hsep | hlow
    · exact (mem_stringFromInt hhigh).imp id .inl
    · exact .inr (.inl hsep)
    · exact (mem_dotted hlow).imp id .inr
  · exact (mem_stringFromInt h).imp id .inl

theorem colon_mem_stringFromInt (n : Nat) : ':' ∈ stringFromInt n := by
  unfold stringFromInt
  rcases joinWith_compressHextets ((hextetValues n).map hex) with hall | ⟨hi, lo, k, -, -, hjoin⟩
  · rw [hall]
    exact List.mem_append_right _ List.mem_cons_self
  · rw [hjoin]
    simp

end Characters

section Addresses

theorem parseAddr_dotted (h : n < 2 ^ 32) :
    parseAddr (dotted n) = some (.v4 (BitVec.ofNat 32 n)) := by
  have hfind : (dotted n).find? (fun c => c = '.' ∨ c = ':' ∨ c = '%') = some '.' := by
    have hdigits : ∀ c ∈ decimal (n / 2 ^ 24 % 256), ¬(c = '.' ∨ c = ':' ∨ c = '%') := by
      intro c hc
      have hdigit := isDigit_of_mem_decimal hc
      rintro (rfl | rfl | rfl) <;> exact absurd hdigit (by decide)
    unfold dotted
    rw [joinWith_cons_cons, List.find?_append]
    have hnone : (decimal (n / 2 ^ 24 % 256)).find? (fun c => c = '.' ∨ c = ':' ∨ c = '%') =
        none := by
      rw [List.find?_eq_none]
      simpa using hdigits
    rw [hnone]
    rfl
  unfold parseAddr
  rw [hfind]
  simp only [parseIPv4_dotted h, Option.map_some]

theorem find?_stringFromInt_append (n : Nat) (more : Text) :
    (stringFromInt n ++ more).find? (fun c => c = '.' ∨ c = ':' ∨ c = '%') = some ':' := by
  rw [List.find?_append]
  cases hfind : (stringFromInt n).find? (fun c => c = '.' ∨ c = ':' ∨ c = '%') with
  | none =>
      rw [List.find?_eq_none] at hfind
      exact absurd (by simp) (hfind ':' (colon_mem_stringFromInt n))
  | some c =>
      have hc : c = '.' ∨ c = ':' ∨ c = '%' := by simpa using List.find?_some hfind
      rcases mem_stringFromInt (List.mem_of_find?_eq_some hfind) with hhex | rfl
      · rcases hc with rfl | rfl | rfl <;> exact absurd hhex (by decide)
      · rfl

theorem find?_ipv6String (n : Nat) :
    (ipv6String n).find? (fun c => c = '.' ∨ c = ':' ∨ c = '%') = some ':' := by
  unfold ipv6String
  split
  · exact find?_stringFromInt_append _ _
  · have hself := find?_stringFromInt_append n []
    rwa [List.append_nil] at hself

theorem percent_not_mem_ipv6String (n : Nat) : '%' ∉ ipv6String n := by
  intro h
  rcases mem_ipv6String h with hhex | hcolon | hdot
  · exact absurd hhex (by decide)
  · cases hcolon
  · cases hdot

theorem parseIPv6Groups_ipv6String (h : n < 2 ^ 128) :
    (parseIPv6Groups (ipv6String n)).map ofGroups = some n := by
  unfold ipv6String
  by_cases hmapped : n / 2 ^ 32 = 0xffff
  · have hlow : n % 2 ^ 32 < 2 ^ 32 := Nat.mod_lt _ (by decide)
    rw [if_pos hmapped, hmapped, parseIPv6Groups_mapped hlow, Option.map_some]
    simp only [ofGroups, List.foldl_append, List.foldl_cons, List.foldl_nil]
    congr 1
    omega
  · rw [if_neg hmapped, parseIPv6Groups_stringFromInt, Option.map_some, ofGroups_hextetValues h]

theorem parseAddr_ipv6String (h : n < 2 ^ 128) :
    parseAddr (ipv6String n) = some (.v6 (BitVec.ofNat 128 n) []) := by
  have hgroups := parseIPv6Groups_ipv6String h
  obtain ⟨groups, hparse, hvalue⟩ := Option.map_eq_some_iff.mp hgroups
  unfold parseAddr
  rw [find?_ipv6String]
  simp only [parseIPv6, cutFirst_of_not_mem (percent_not_mem_ipv6String n), hparse, Option.map_some,
    hvalue]

end Addresses

section Networks

theorem parsePrefix_append {a : Addr} (ha : parseAddr text = some a)
    (hzone : a.zone = []) {bits : Nat} (hbits : bits ≤ a.bitLen) :
    parsePrefix (text ++ '/' :: decimal bits) = some ⟨a, bits, hbits, hzone⟩ := by
  have hslash : '/' ∉ decimal bits := not_mem_decimal (by decide) bits
  unfold parsePrefix
  rw [cutLast_append_cons text hslash]
  simp only [ha, parseBits_decimal]
  rw [dif_pos ⟨hzone, hbits⟩]

def IpNetwork.scope : IpNetwork → Text
  | .v4 _ => []
  | .v6 _ scope => scope

theorem parsePrefix_str (h : net.scope = []) :
    parsePrefix net.str = some net.toPrefix := by
  cases net with
  | v4 net =>
      have haddr := parseAddr_dotted net.address.isLt
      rw [BitVec.ofNat_toNat, BitVec.setWidth_eq] at haddr
      exact parsePrefix_append haddr rfl net.prefixlen_le
  | v6 net scope =>
      change scope = [] at h
      have haddr := parseAddr_ipv6String net.address.isLt
      rw [BitVec.ofNat_toNat, BitVec.setWidth_eq] at haddr
      have hstr : (IpNetwork.v6 net scope).str =
          ipv6String net.address.toNat ++ '/' :: decimal net.prefixlen := by
        rw [IpNetwork.str, withScope, if_pos h]
      rw [hstr]
      exact parsePrefix_append haddr rfl net.prefixlen_le

theorem masked_toPrefix (net : IpNetwork) : net.toPrefix.masked = net.toPrefix := by
  cases net with
  | v4 net =>
      have hstrict := net.strict
      simp only [IpNetwork.toPrefix, Prefix.masked, hstrict, BitVec.ofNat_toNat,
        BitVec.setWidth_eq]
  | v6 net scope =>
      have hstrict := net.strict
      simp only [IpNetwork.toPrefix, Prefix.masked, hstrict, BitVec.ofNat_toNat,
        BitVec.setWidth_eq]

theorem str_scoped (h : net.scope ≠ []) :
    ∃ before after, net.str = before ++ '%' :: after ∧ ∀ c ∈ before, netChar c = true := by
  cases net with
  | v4 net => exact absurd rfl h
  | v6 net scope =>
      change scope ≠ [] at h
      refine ⟨ipv6String net.address.toNat, scope ++ '/' :: decimal net.prefixlen, ?_, ?_⟩
      · rw [IpNetwork.str, withScope, if_neg h, List.append_assoc, List.cons_append]
      · intro c hc
        rcases mem_ipv6String hc with hhex | rfl | rfl
        · simp [netChar, hhex]
        · decide
        · decide

theorem netChar_of_mem_str (h : net.scope = []) (hc : c ∈ net.str) :
    netChar c = true := by
  have htail : ∀ bits, c ∈ '/' :: decimal bits → netChar c = true := by
    intro bits hmem
    rcases List.mem_cons.mp hmem with rfl | hdigit
    · decide
    · simp [netChar, mem_decimal hdigit]
  cases net with
  | v4 net =>
      rw [IpNetwork.str, List.mem_append] at hc
      rcases hc with haddr | hbits
      · rcases mem_dotted haddr with hhex | rfl
        · simp [netChar, hhex]
        · decide
      · exact htail _ hbits
  | v6 net scope =>
      change scope = [] at h
      rw [IpNetwork.str, withScope, if_pos h, List.mem_append] at hc
      rcases hc with haddr | hbits
      · rcases mem_ipv6String haddr with hhex | rfl | rfl
        · simp [netChar, hhex]
        · decide
        · decide
      · exact htail _ hbits

theorem percent_not_mem_of_decimal? (h : decimal? text = some n) :
    '%' ∉ text := by
  unfold decimal? at h
  split at h
  · rename_i hdigits
    intro hmem
    exact absurd (List.all_eq_true.mp hdigits.2 '%' hmem) (by decide)
  · cases h

theorem percent_not_mem_of_parseIPv4 {b : BitVec 32} (h : parseIPv4 text = some b) :
    '%' ∉ text := by
  intro hmem
  have hjoin : ['.'].intercalate (text.splitOn '.') = text := List.intercalate_splitOn '.'
  rw [← joinWith_eq_intercalate] at hjoin
  rw [← hjoin] at hmem
  rcases mem_joinWith hmem with hsep | ⟨part, hpart, hc⟩
  · cases hsep
  · have hsome : ∃ octets, (text.splitOn '.').mapM parseOctet = some octets := by
      unfold parseIPv4 at h
      split at h
      · rename_i hoctets
        exact ⟨_, hoctets⟩
      · cases h
    obtain ⟨octets, hoctets⟩ := hsome
    obtain ⟨n, -, hn⟩ := exists_of_mapM hoctets hpart
    unfold parseOctet at hn
    cases hdecimal : decimal? part with
    | none => simp [hdecimal] at hn
    | some m => exact percent_not_mem_of_decimal? hdecimal hc

theorem percent_not_mem_of_parseAddr {a : Addr} (h : parseAddr text = some a)
    (hzone : a.zone = []) : '%' ∉ text := by
  unfold parseAddr at h
  split at h
  · obtain ⟨b, hb, -⟩ := Option.map_eq_some_iff.mp h
    exact percent_not_mem_of_parseIPv4 hb
  · unfold parseIPv6 at h
    split at h
    · cases h
    · rename_i address zone hne hcut
      obtain ⟨groups, -, ha⟩ := Option.map_eq_some_iff.mp h
      subst ha
      exact absurd hzone hne
    · rename_i hcut
      exact not_mem_of_cutFirst hcut
  · cases h

theorem percent_not_mem_of_parsePrefix {p : Prefix} (h : parsePrefix text = some p) :
    '%' ∉ text := by
  unfold parsePrefix at h
  cases hcut : cutLast '/' text with
  | none => simp [hcut] at h
  | some parts =>
      obtain ⟨address, bitsText⟩ := parts
      simp only [hcut] at h
      cases haddr : parseAddr address with
      | none => simp [haddr] at h
      | some a =>
          cases hbits : parseBits bitsText with
          | none => simp [haddr, hbits] at h
          | some bits =>
              simp only [haddr, hbits] at h
              split at h
              · rename_i hvalid
                rw [eq_of_cutLast hcut, List.mem_append, List.mem_cons]
                rintro (haddress | hslash | htail)
                · exact percent_not_mem_of_parseAddr haddr hvalid.1 haddress
                · cases hslash
                · unfold parseBits at hbits
                  split at hbits
                  · cases hbits
                  · exact percent_not_mem_of_decimal? hbits htail
              · cases h

theorem percent_mem_of_splitOptionalNetmask {address : Text}
    (h : splitOptionalNetmask text = some (address, mask)) (hmask : ∀ m ∈ mask, '%' ∉ m) :
    '%' ∈ text ↔ '%' ∈ address := by
  have hjoin : ['/'].intercalate (text.splitOn '/') = text := List.intercalate_splitOn '/'
  rw [← joinWith_eq_intercalate] at hjoin
  unfold splitOptionalNetmask at h
  split at h
  · rename_i hsplit
    cases h
    rw [← hjoin, hsplit]
    rfl
  · rename_i hsplit
    cases h
    rw [← hjoin, hsplit, joinWith_cons_cons, List.mem_append, List.mem_cons]
    refine ⟨?_, .inl⟩
    rintro (haddress | hslash | htail)
    · exact haddress
    · cases hslash
    · exact absurd htail (hmask _ rfl)
  · cases h

theorem percent_not_mem_of_prefixFromString {max : Nat}
    (h : prefixFromString max text = some n) : '%' ∉ text := by
  unfold prefixFromString at h
  split at h
  · rename_i hdecimal
    exact percent_not_mem_of_decimal? hdecimal
  · cases h

theorem percent_not_mem_of_makeNetmask4 (h : makeNetmask4 text = some n) :
    '%' ∉ text := by
  unfold makeNetmask4 at h
  split at h
  · rename_i hprefix
    exact percent_not_mem_of_prefixFromString hprefix
  · split at h
    · cases h
    · rename_i hmask
      exact percent_not_mem_of_parseIPv4 hmask

theorem percent_not_mem_of_elim {read : Text → Option Nat} {bits : Nat}
    (hread : ∀ m, read m = some n → '%' ∉ m) (h : mask.elim (some bits) read = some n) :
    ∀ m ∈ mask, '%' ∉ m := by
  rintro m rfl
  exact hread m h

theorem scope_eq_nil_iff_of_splitScope {address scope : Text}
    (h : splitScope text = some (address, scope)) : scope = [] ↔ '%' ∉ text := by
  unfold splitScope at h
  split at h
  · rename_i hcut
    cases h
    exact iff_of_true rfl (not_mem_of_cutFirst hcut)
  · rename_i hcut
    split at h
    · cases h
    · rename_i hscope
      cases h
      rw [not_or] at hscope
      refine iff_of_false hscope.1 ?_
      rw [(cutFirst_eq_some hcut).2]
      simp

theorem percent_not_mem_of_ipv4Network {net : Network 32}
    (h : ipv4Network text = some net) : '%' ∉ text := by
  unfold ipv4Network at h
  split at h
  · cases h
  · rename_i hsplit
    split at h
    · rename_i haddress hmask
      rw [percent_mem_of_splitOptionalNetmask hsplit
        (percent_not_mem_of_elim (fun _ => percent_not_mem_of_makeNetmask4) hmask)]
      exact percent_not_mem_of_parseIPv4 haddress
    · cases h

theorem scope_eq_nil_iff_of_ipv6Network
    (h : ipv6Network text = some net) : net.scope = [] ↔ '%' ∉ text := by
  unfold ipv6Network at h
  split at h
  · cases h
  · rename_i address mask hsplit
    split at h
    · rename_i haddress hmask
      rw [percent_mem_of_splitOptionalNetmask hsplit
        (percent_not_mem_of_elim (fun _ => percent_not_mem_of_prefixFromString) hmask)]
      obtain ⟨strict, -, rfl⟩ := Option.map_eq_some_iff.mp h
      unfold ipv6Address at haddress
      split at haddress
      · cases haddress
      · rename_i hscope
        split at haddress
        · cases haddress
          exact scope_eq_nil_iff_of_splitScope hscope
        · cases haddress
    · cases h

theorem scope_eq_nil_iff (h : ipNetwork text = some net) :
    net.scope = [] ↔ '%' ∉ text := by
  unfold ipNetwork at h
  split at h
  · rename_i hnet
    cases h
    exact iff_of_true rfl (percent_not_mem_of_ipv4Network hnet)
  · exact scope_eq_nil_iff_of_ipv6Network h

end Networks

end OpenvpnServer.Lib.Ipaddress
