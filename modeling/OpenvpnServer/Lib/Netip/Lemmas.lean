import OpenvpnServer.Lib.Netip

namespace OpenvpnServer.Lib.Netip

def net4 (value bits : Nat) (h : bits ≤ 32) : Prefix := ⟨.v4 (BitVec.ofNat 32 value), bits, h, rfl⟩

def net6 (value bits : Nat) (h : bits ≤ 128) : Prefix :=
  ⟨.v6 (BitVec.ofNat 128 value) [], bits, h, rfl⟩

-- The special-purpose networks: loopback, unspecified, multicast, link-local
-- and private, of either family.
def specialNetworks : List Prefix :=
  [net4 0x7f000000 8 (by decide), net4 0 32 (by decide), net4 0xe0000000 4 (by decide),
    net4 0xa9fe0000 16 (by decide), net4 0x0a000000 8 (by decide), net4 0xac100000 12 (by decide),
    net4 0xc0a80000 16 (by decide),
    net6 1 128 (by decide), net6 0 128 (by decide), net6 (0xff * 2 ^ 120) 8 (by decide),
    net6 (0xfe80 * 2 ^ 112) 10 (by decide), net6 (0xfc * 2 ^ 120) 7 (by decide)]

theorem unmap_of_is4In6 (b : BitVec 128) (z : Text) (h : (Addr.v6 b z).is4In6 = true) :
    (Addr.v6 b z).unmap = .v4 (BitVec.ofNat 32 b.toNat) := by
  rw [Addr.unmap, if_pos h]

theorem unmap_of_not_is4In6 (b : BitVec 128) (z : Text) (h : (Addr.v6 b z).is4In6 = false) :
    (Addr.v6 b z).unmap = .v6 b z := by
  rw [Addr.unmap, if_neg (by simp [h])]

theorem unmap_cases (a : Addr) :
    (∃ b, a.unmap = .v4 b) ∨ ∃ b z, a.unmap = .v6 b z ∧ (Addr.v6 b z).is4In6 = false := by
  cases a with
  | v4 b => exact .inl ⟨b, rfl⟩
  | v6 b z =>
      cases h : (Addr.v6 b z).is4In6 with
      | true => exact .inl ⟨_, unmap_of_is4In6 b z h⟩
      | false => exact .inr ⟨b, z, unmap_of_not_is4In6 b z h, h⟩

@[simp] theorem unmap_unmap (a : Addr) : a.unmap.unmap = a.unmap := by
  rcases unmap_cases a with ⟨b, h⟩ | ⟨b, z, h, hm⟩
  · rw [h]
    rfl
  · rw [h, unmap_of_not_is4In6 b z hm]

theorem contains_iff (p : Prefix) (a : Addr) :
    p.contains a = true ↔ a.zone = [] ∧ p.addr.bitLen = a.bitLen ∧
      p.addr.toNat / 2 ^ (p.addr.bitLen - p.bits) = a.toNat / 2 ^ (p.addr.bitLen - p.bits) := by
  simp [Prefix.contains, Addr.hasZone]

theorem contains_net4 (value bits : Nat) (h : bits ≤ 32) (hv : value < 2 ^ 32) (a : Addr) :
    (net4 value bits h).contains a = true ↔
      ∃ b, a = .v4 b ∧ value / 2 ^ (32 - bits) = b.toNat / 2 ^ (32 - bits) := by
  rw [contains_iff]
  have hb : value % 4294967296 = value := Nat.mod_eq_of_lt hv
  cases a with
  | v4 b => simp [hb, Addr.zone, Addr.bitLen, Addr.toNat, net4]
  | v6 b z => simp [Addr.bitLen, net4]

theorem contains_net6 (value bits : Nat) (h : bits ≤ 128) (hv : value < 2 ^ 128) (a : Addr) :
    (net6 value bits h).contains a = true ↔
      ∃ b, a = .v6 b [] ∧ value / 2 ^ (128 - bits) = b.toNat / 2 ^ (128 - bits) := by
  rw [contains_iff]
  have hb : value % 340282366920938463463374607431768211456 = value := Nat.mod_eq_of_lt hv
  cases a with
  | v4 b => simp [Addr.bitLen, net6]
  | v6 b z => simp [hb, Addr.zone, Addr.bitLen, Addr.toNat, net6]

theorem contains_masked (p : Prefix) (a : Addr) : p.masked.contains a = p.contains a := by
  obtain ⟨addr, bits, hbits, hzone⟩ := p
  have hdiv : ∀ width value : Nat,
      Prefix.clearHost width bits value / 2 ^ (width - bits) = value / 2 ^ (width - bits) := by
    intro width value
    exact Nat.mul_div_cancel _ (Nat.two_pow_pos _)
  have hle : ∀ width value : Nat, Prefix.clearHost width bits value ≤ value := by
    intro width value
    exact Nat.div_mul_le_self _ _
  cases addr with
  | v4 b =>
      have hlt := (hle 32 b.toNat).trans_lt b.isLt
      rw [Bool.eq_iff_iff, contains_iff, contains_iff]
      simp [Prefix.masked, Addr.bitLen, Addr.toNat, Nat.mod_eq_of_lt hlt, hdiv]
  | v6 b z =>
      have hlt := (hle 128 b.toNat).trans_lt b.isLt
      rw [Bool.eq_iff_iff, contains_iff, contains_iff]
      simp [Prefix.masked, Addr.bitLen, Addr.toNat, Nat.mod_eq_of_lt hlt, hdiv]

theorem byte_lt (a : Addr) (i : Nat) : a.byte i < 256 := Nat.mod_lt _ (by decide)

theorem and_high (x : Nat) (hx : x < 256) :
    x &&& 0xf0 = x / 16 * 16 ∧ x &&& 0xfe = x / 2 * 2 ∧ x &&& 0xc0 = x / 64 * 64 := by
  have h : ∀ x : Fin 256, x.val &&& 0xf0 = x.val / 16 * 16 ∧ x.val &&& 0xfe = x.val / 2 * 2 ∧
      x.val &&& 0xc0 = x.val / 64 * 64 := by decide +kernel
  exact h ⟨x, hx⟩

theorem classes_v4 (b : BitVec 32) :
    ((Addr.v4 b).isLoopback = true ↔ b.toNat / 2 ^ 24 = 127) ∧
    ((Addr.v4 b).isUnspecified = true ↔ b.toNat = 0) ∧
    ((Addr.v4 b).isMulticast = true ↔ b.toNat / 2 ^ 28 = 14) ∧
    ((Addr.v4 b).isLinkLocalUnicast = true ↔ b.toNat / 2 ^ 16 = 0xa9fe) ∧
    ((Addr.v4 b).isPrivate = true ↔
      b.toNat / 2 ^ 24 = 10 ∨ b.toNat / 2 ^ 20 = 0xac1 ∨ b.toNat / 2 ^ 16 = 0xc0a8) := by
  have hb := b.isLt
  have h0 := and_high ((Addr.v4 b).byte 0) (byte_lt _ _)
  have h1 := and_high ((Addr.v4 b).byte 1) (byte_lt _ _)
  refine ⟨?_, ?_, ?_, ?_, ?_⟩
  · simp only [Addr.isLoopback, Addr.unmap, decide_eq_true_eq]
    simp only [Addr.byte, Addr.toNat, Addr.bitLen]
    omega
  · simp [Addr.isUnspecified, BitVec.toNat_eq]
  · simp only [Addr.isMulticast, Addr.unmap, h0.1, decide_eq_true_eq]
    simp only [Addr.byte, Addr.toNat, Addr.bitLen]
    omega
  · simp only [Addr.isLinkLocalUnicast, Addr.unmap, decide_eq_true_eq]
    simp only [Addr.byte, Addr.toNat, Addr.bitLen]
    omega
  · simp only [Addr.isPrivate, Addr.unmap, h1.1, decide_eq_true_eq]
    simp only [Addr.byte, Addr.toNat, Addr.bitLen]
    omega

theorem classes_v6 (b : BitVec 128) (h : (Addr.v6 b []).is4In6 = false) :
    ((Addr.v6 b []).isLoopback = true ↔ b.toNat = 1) ∧
    ((Addr.v6 b []).isUnspecified = true ↔ b.toNat = 0) ∧
    ((Addr.v6 b []).isMulticast = true ↔ b.toNat / 2 ^ 120 = 0xff) ∧
    ((Addr.v6 b []).isLinkLocalUnicast = true ↔ b.toNat / 2 ^ 118 = 0x3fa) ∧
    ((Addr.v6 b []).isPrivate = true ↔ b.toNat / 2 ^ 121 = 0x7e) := by
  have hb := b.isLt
  have hu := unmap_of_not_is4In6 b [] h
  have h0 := and_high ((Addr.v6 b []).byte 0) (byte_lt _ _)
  have h1 := and_high ((Addr.v6 b []).byte 1) (byte_lt _ _)
  refine ⟨?_, ?_, ?_, ?_, ?_⟩
  · simp only [Addr.isLoopback, hu, decide_eq_true_eq]
  · simp [Addr.isUnspecified, BitVec.toNat_eq]
  · simp only [Addr.isMulticast, hu, decide_eq_true_eq]
    simp only [Addr.byte, Addr.toNat, Addr.bitLen]
    omega
  · simp only [Addr.isLinkLocalUnicast, hu, h1.2.2, decide_eq_true_eq]
    simp only [Addr.byte, Addr.toNat, Addr.bitLen]
    omega
  · simp only [Addr.isPrivate, hu, h0.2.1, decide_eq_true_eq]
    simp only [Addr.byte, Addr.toNat, Addr.bitLen]
    omega

theorem classified_of_special (a : Addr) (n : Prefix) (hn : n ∈ specialNetworks)
    (h : n.contains a.unmap = true) :
    a.unmap.isLoopback = true ∨ a.unmap.isUnspecified = true ∨ a.unmap.isMulticast = true ∨
      a.unmap.isLinkLocalUnicast = true ∨ a.unmap.isPrivate = true := by
  rcases unmap_cases a with ⟨b, hu⟩ | ⟨b, z, hu, hm⟩
  · rw [hu] at h ⊢
    obtain ⟨hl, hz, hc, hk, hp⟩ := classes_v4 b
    rw [hl, hz, hc, hk, hp]
    simp only [specialNetworks, List.mem_cons, List.not_mem_nil, or_false] at hn
    rcases hn with rfl | rfl | rfl | rfl | rfl | rfl | rfl | rfl | rfl | rfl | rfl | rfl
    all_goals
      first
      | rw [contains_net4 _ _ _ (by decide)] at h
        obtain ⟨_, he, h⟩ := h
        cases he
        omega
      | rw [contains_net6 _ _ _ (by decide)] at h
        obtain ⟨_, he, _⟩ := h
        cases he
  · rw [hu] at h ⊢
    have hzone : z = [] := (contains_iff _ _ |>.mp h).1
    subst hzone
    obtain ⟨hl, hz, hc, hk, hp⟩ := classes_v6 b hm
    rw [hl, hz, hc, hk, hp]
    simp only [specialNetworks, List.mem_cons, List.not_mem_nil, or_false] at hn
    rcases hn with rfl | rfl | rfl | rfl | rfl | rfl | rfl | rfl | rfl | rfl | rfl | rfl
    all_goals
      first
      | rw [contains_net4 _ _ _ (by decide)] at h
        obtain ⟨_, he, _⟩ := h
        cases he
      | rw [contains_net6 _ _ _ (by decide)] at h
        obtain ⟨_, he, h⟩ := h
        cases he
        omega

end OpenvpnServer.Lib.Netip
