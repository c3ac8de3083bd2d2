import OpenvpnServer.Lib.Ipaddress.Roundtrip

-- IPv4 addresses and networks have one text: what is accepted is what is printed.
namespace OpenvpnServer.Lib.Ipaddress

open OpenvpnServer.Lib.Netip

variable {text address : Text}

section Addresses

theorem digitChar_of_isDigit {c : Char} (h : c.isDigit = true) :
    c.toNat - '0'.toNat < 10 ∧ Nat.digitChar (c.toNat - '0'.toNat) = c := by
  have hrange := isDigit_iff.mp h
  have hall : ∀ n < 10, Nat.digitChar n = Char.ofNat (n + 48) := by decide
  have hzero : '0'.toNat = 48 := rfl
  rw [hzero]
  refine ⟨by omega, ?_⟩
  rw [hall _ (by omega), Nat.sub_add_cancel hrange.1, Char.ofNat_toNat]

theorem decimal_ofDigitChars {digits : Text} (hne : digits ≠ [])
    (hdigits : ∀ c ∈ digits, c.isDigit = true)
    (hzero : digits.head? ≠ some '0' ∨ digits.length = 1) :
    decimal (Nat.ofDigitChars 10 digits 0) = digits := by
  unfold decimal
  induction digits using List.reverseRecOn with
  | nil => exact absurd rfl hne
  | append_singleton digits c ih =>
      obtain ⟨hlt, hchar⟩ := digitChar_of_isDigit (hdigits c (by simp))
      rw [Nat.ofDigitChars_append, Nat.ofDigitChars_cons, Nat.ofDigitChars_nil]
      by_cases hempty : digits = []
      · subst hempty
        rw [Nat.ofDigitChars_nil, Nat.mul_zero, Nat.zero_add, Nat.toDigits_of_lt_base hlt, hchar]
        rfl
      · have hhead : digits.head? ≠ some '0' := by
          rcases hzero with hzero | hone
          · rwa [List.head?_append_of_ne_nil _ hempty] at hzero
          · have hpos := List.length_pos_of_ne_nil hempty
            rw [List.length_append, List.length_singleton] at hone
            omega
        have hread := ih hempty (fun d hd => hdigits d (List.mem_append_left _ hd)) (.inl hhead)
        -- the first digits are not those of zero
        have hpos : Nat.ofDigitChars 10 digits 0 ≠ 0 := by
          intro hvalue
          rw [hvalue] at hread
          rw [← hread] at hhead
          exact hhead rfl
        rw [Nat.toDigits_of_base_le (by decide) (by omega), Nat.mul_add_div (by decide),
          Nat.div_eq_of_lt hlt, Nat.add_zero, hread, Nat.mul_add_mod, Nat.mod_eq_of_lt hlt, hchar]

theorem decimal_of_parseOctet {field : Text} {n : Nat} (h : parseOctet field = some n) :
    n < 256 ∧ decimal n = field := by
  unfold parseOctet decimal? at h
  by_cases hdigits : field ≠ [] ∧ field.all Char.isDigit = true
  · rw [if_pos hdigits] at h
    simp only [Option.ite_none_right_eq_some, Option.some.injEq] at h
    obtain ⟨⟨hle, hzero⟩, rfl⟩ := h
    exact ⟨by omega,
      decimal_ofDigitChars hdigits.1 (fun c hc => List.all_eq_true.mp hdigits.2 c hc) hzero⟩
  · rw [if_neg hdigits] at h
    cases h

theorem joinWith_splitOn (sep : Char) (text : Text) : joinWith sep (text.splitOn sep) = text := by
  rw [joinWith_eq_intercalate]
  exact List.intercalate_splitOn sep

theorem dotted_of_parseIPv4 {address : BitVec 32}
    (h : parseIPv4 text = some address) : dotted address.toNat = text := by
  unfold parseIPv4 at h
  split at h
  · rename_i a b c d hparts
    cases h
    obtain ⟨w, x, y, z, hsplit, ha, hb, hc, hd⟩ : ∃ w x y z, text.splitOn '.' = [w, x, y, z] ∧
        parseOctet w = some a ∧ parseOctet x = some b ∧ parseOctet y = some c ∧
        parseOctet z = some d := by
      match hsplit : text.splitOn '.' with
      | [] | [_] | [_, _] | [_, _, _] | _ :: _ :: _ :: _ :: _ :: _ =>
          rw [hsplit] at hparts
          simp [List.mapM_cons, Option.bind_eq_some_iff] at hparts
      | [w, x, y, z] =>
          rw [hsplit] at hparts
          simp only [List.mapM_cons, List.mapM_nil, Option.pure_def, Option.bind_eq_bind,
            Option.bind_eq_some_iff, Option.some.injEq, List.cons.injEq] at hparts
          obtain ⟨a', ha, b', hb, c', hc, d', hd, heq⟩ := hparts
          exact ⟨w, x, y, z, rfl, by simp_all⟩
    obtain ⟨halt, ha⟩ := decimal_of_parseOctet ha
    obtain ⟨hblt, hb⟩ := decimal_of_parseOctet hb
    obtain ⟨hclt, hc⟩ := decimal_of_parseOctet hc
    obtain ⟨hdlt, hd⟩ := decimal_of_parseOctet hd
    have hmod : (a * 2 ^ 24 + b * 2 ^ 16 + c * 2 ^ 8 + d) % 2 ^ 32 =
        a * 2 ^ 24 + b * 2 ^ 16 + c * 2 ^ 8 + d := by
      omega
    have hfirst : (a * 2 ^ 24 + b * 2 ^ 16 + c * 2 ^ 8 + d) / 2 ^ 24 % 256 = a := by omega
    have hsecond : (a * 2 ^ 24 + b * 2 ^ 16 + c * 2 ^ 8 + d) / 2 ^ 16 % 256 = b := by omega
    have hthird : (a * 2 ^ 24 + b * 2 ^ 16 + c * 2 ^ 8 + d) / 2 ^ 8 % 256 = c := by omega
    have hfourth : (a * 2 ^ 24 + b * 2 ^ 16 + c * 2 ^ 8 + d) % 256 = d := by omega
    rw [← joinWith_splitOn '.' text, hsplit, ← ha, ← hb, ← hc, ← hd, BitVec.toNat_ofNat, dotted,
      hmod, hfirst, hsecond, hthird, hfourth]
  · cases h

theorem parseIPv4_injective {other : Text} {address : BitVec 32}
    (h : parseIPv4 text = some address) (hother : parseIPv4 other = some address) :
    text = other := by
  rw [← dotted_of_parseIPv4 h, dotted_of_parseIPv4 hother]

end Addresses

section Networks

theorem strictNetwork_of_strict (net : Network 32) :
    strictNetwork net.address net.prefixlen = some net := by
  unfold strictNetwork
  rw [dif_pos ⟨net.prefixlen_le, net.strict⟩]

theorem splitOptionalNetmask_append {mask : Text} (haddress : '/' ∉ address)
    (hmask : '/' ∉ mask) :
    splitOptionalNetmask (address ++ '/' :: mask) = some (address, some mask) := by
  have hsplit : (address ++ '/' :: mask).splitOn '/' = [address, mask] :=
    @splitOn_joinWith '/' [address, mask] (by simp) (by simp [haddress, hmask])
  unfold splitOptionalNetmask
  rw [hsplit]

theorem slash_not_mem_dotted (n : Nat) : '/' ∉ dotted n := by
  intro hmem
  rcases mem_dotted hmem with hhex | hdot
  · exact absurd hhex (by decide)
  · cases hdot

theorem makeNetmask4_decimal {n : Nat} (h : n ≤ 32) : makeNetmask4 (decimal n) = some n := by
  unfold makeNetmask4 prefixFromString
  rw [decimal?_decimal]
  simp [h]

theorem makeNetmask4_netmask (net : Network 32) :
    makeNetmask4 (dotted (netmask net)) = some net.prefixlen := by
  have hall : ∀ n ≤ 32, (2 ^ n - 1) * 2 ^ (32 - n) < 2 ^ 32 ∧
      prefixFromInt ((2 ^ n - 1) * 2 ^ (32 - n)) = some n := by
    decide
  obtain ⟨hlt, hones⟩ := hall net.prefixlen net.prefixlen_le
  change netmask net < 2 ^ 32 at hlt
  change prefixFromInt (netmask net) = some net.prefixlen at hones
  have hnumber : decimal? (dotted (netmask net)) = none := by
    unfold decimal?
    rw [if_neg]
    rintro ⟨-, hdigits⟩
    have hdot : '.' ∈ dotted (netmask net) := by simp [dotted, joinWith]
    exact absurd (List.all_eq_true.mp hdigits '.' hdot) (by decide)
  unfold makeNetmask4 prefixFromString
  rw [hnumber]
  dsimp only
  rw [parseIPv4_dotted hlt]
  dsimp only
  rw [BitVec.toNat_ofNat, Nat.mod_eq_of_lt hlt, hones]

theorem ipv4NetworkOf_of_ipv4Network {net : Network 32}
    (h : ipv4Network text = some net) : ipv4NetworkOf text = some net := by
  unfold ipv4Network at h
  unfold ipv4NetworkOf
  split at h
  · cases h
  · split at h
    · rename_i address prefixlen haddress hmask
      unfold strictNetwork at h
      split at h
      · rename_i hstrict
        cases h
        rw [hstrict.2, BitVec.ofNat_toNat, BitVec.setWidth_eq]
        unfold strictNetwork
        rw [dif_pos hstrict]
      · cases h
    · cases h

theorem ipv4Network_append (net : Network 32) {mask : Text} (hslash : '/' ∉ mask)
    (hmask : makeNetmask4 mask = some net.prefixlen) :
    ipv4Network (dotted net.address.toNat ++ '/' :: mask) = some net := by
  unfold ipv4Network
  rw [splitOptionalNetmask_append (slash_not_mem_dotted _) hslash]
  dsimp only
  rw [parseIPv4_dotted net.address.isLt, Option.elim_some, hmask]
  dsimp only
  rw [BitVec.ofNat_toNat, BitVec.setWidth_eq]
  exact strictNetwork_of_strict net

theorem ipv4Network_str (net : Network 32) : ipv4Network (IpNetwork.v4 net).str = some net :=
  ipv4Network_append net (not_mem_decimal (by decide) _) (makeNetmask4_decimal net.prefixlen_le)

theorem ipv4Network_netmask (net : Network 32) :
    ipv4Network (dotted net.address.toNat ++ '/' :: dotted (netmask net)) = some net :=
  ipv4Network_append net (slash_not_mem_dotted _) (makeNetmask4_netmask net)

end Networks

section Scopes

theorem prefix_of_splitOptionalNetmask {mask : Option Text}
    (h : splitOptionalNetmask text = some (address, mask)) : address <+: text := by
  rw [← joinWith_splitOn '/' text]
  unfold splitOptionalNetmask at h
  split at h
  · rename_i hsplit
    cases h
    rw [hsplit]
    exact List.prefix_refl _
  · rename_i hsplit
    cases h
    rw [hsplit]
    exact List.prefix_append _ _
  · cases h

theorem suffix_of_splitScope {scope : Text}
    (h : splitScope text = some (address, scope)) : scope <:+ text := by
  unfold splitScope at h
  split at h
  · cases h
    exact List.nil_suffix
  · rename_i hcut
    split at h
    · cases h
    · cases h
      rw [(cutFirst_eq_some hcut).2]
      exact (List.suffix_cons _ _).trans (List.suffix_append _ _)

theorem scope_inside {net : IpNetwork} (h : ipNetwork text = some net) :
    net.scope <:+: text := by
  unfold ipNetwork at h
  split at h
  · cases h
    exact List.nil_infix
  · unfold ipv6Network at h
    split at h
    · cases h
    · rename_i hsplit
      split at h
      · rename_i haddress hmask
        obtain ⟨strict, -, rfl⟩ := Option.map_eq_some_iff.mp h
        unfold ipv6Address at haddress
        split at haddress
        · cases haddress
        · rename_i hscope
          split at haddress
          · cases haddress
            exact (suffix_of_splitScope hscope).isInfix.trans
              (prefix_of_splitOptionalNetmask hsplit).isInfix
          · cases haddress
      · cases h

theorem mem_of_mem_scope {net : IpNetwork} {c : Char}
    (h : ipNetwork text = some net) (hc : c ∈ net.scope) : c ∈ text :=
  (scope_inside h).subset hc

end Scopes

end OpenvpnServer.Lib.Ipaddress
