import Mathlib.Data.List.Basic
import OpenvpnServer.Lib.Ipaddress

-- What Python's `ipaddress` prints, Go's `netip` reads.
namespace OpenvpnServer.Lib.Ipaddress

open OpenvpnServer.Lib.Netip

variable {n : Nat} {c : Char} {parts : List Text} {run : ZeroRun}

section Digits

theorem hexValue_concat (digits : Text) (c : Char) :
    hexValue (digits ++ [c]) = hexValue digits * 16 + (hexDigit? c).getD 0 := by
  unfold hexValue
  rw [List.foldl_append, List.foldl_cons, List.foldl_nil]

theorem hexValue_hex (n : Nat) : hexValue (hex n) = n := by
  unfold hex
  induction n using Nat.strong_induction_on with
  | h n ih =>
      by_cases hlt : n < 16
      · rw [Nat.toDigits_of_lt_base hlt]
        simp [hexValue, hexDigit?_digitChar hlt]
      · rw [Nat.toDigits_of_base_le (by decide) (Nat.le_of_not_lt hlt), hexValue_concat,
          ih (n / 16) (by omega), hexDigit?_digitChar (Nat.mod_lt _ (by decide)),
          Option.getD_some]
        omega

theorem isHexDigit_of_mem_hex (h : c ∈ hex n) : isHexDigit c = true := by
  unfold hex at h
  induction n using Nat.strong_induction_on with
  | h n ih =>
      have hdigit : ∀ d < 16, isHexDigit (Nat.digitChar d) = true := by decide
      by_cases hlt : n < 16
      · rw [Nat.toDigits_of_lt_base hlt, List.mem_singleton] at h
        rw [h]
        exact hdigit n hlt
      · rw [Nat.toDigits_of_base_le (by decide) (Nat.le_of_not_lt hlt), List.mem_append,
          List.mem_singleton] at h
        rcases h with hmem | rfl
        · exact ih (n / 16) (by omega) hmem
        · exact hdigit _ (Nat.mod_lt _ (by decide))

theorem hex_ne_nil (n : Nat) : hex n ≠ [] := Nat.toDigits_ne_nil

theorem length_hex_le (h : n < 2 ^ 16) : (hex n).length ≤ 4 :=
  (Nat.length_toDigits_le_iff (by decide) (by decide)).mpr h

theorem isDigit_of_mem_decimal (h : c ∈ decimal n) : c.isDigit = true :=
  Nat.isDigit_of_mem_toDigits (by decide) (by decide) h

theorem decimal?_decimal (n : Nat) : decimal? (decimal n) = some n := by
  unfold decimal?
  rw [if_pos, decimal, Nat.ofDigitChars_ten_toDigits]
  exact ⟨Nat.toDigits_ne_nil, List.all_eq_true.mpr fun c hc => isDigit_of_mem_decimal hc⟩

theorem head?_decimal (h : (decimal n).head? = some '0') : n = 0 := by
  unfold decimal at h
  induction n using Nat.strong_induction_on with
  | h n ih =>
      by_cases hlt : n < 10
      · rw [Nat.toDigits_of_lt_base hlt, List.head?_cons, Option.some.injEq] at h
        exact (by decide : ∀ d < 10, Nat.digitChar d = '0' → d = 0) n hlt h
      · rw [Nat.toDigits_of_base_le (by decide) (Nat.le_of_not_lt hlt),
          List.head?_append_of_ne_nil _ Nat.toDigits_ne_nil] at h
        have hzero := ih (n / 10) (by omega) h
        omega

theorem decimal_zero_or {n : Nat} : (decimal n).head? ≠ some '0' ∨ (decimal n).length = 1 := by
  by_cases h : (decimal n).head? = some '0'
  · right
    rw [head?_decimal h]
    rfl
  · exact .inl h

theorem parseOctet_decimal (h : n < 256) : parseOctet (decimal n) = some n := by
  unfold parseOctet
  rw [decimal?_decimal]
  exact if_pos ⟨by omega, decimal_zero_or⟩

theorem parseBits_decimal (n : Nat) : parseBits (decimal n) = some n := by
  unfold parseBits
  rw [if_neg, decimal?_decimal]
  rintro ⟨hlen, hhead⟩
  rcases decimal_zero_or (n := n) with hne | hone
  · exact hne hhead
  · omega

end Digits

section Dotted

attribute [local simp] joinWith

theorem joinWith_eq_intercalate (sep : Char) (parts : List Text) :
    joinWith sep parts = [sep].intercalate parts := by
  induction parts with
  | nil => rfl
  | cons part rest ih =>
      cases rest with
      | nil => simp
      | cons next more =>
          rw [joinWith_cons_cons, ih]
          simp [List.intercalate]

theorem splitOn_joinWith {sep : Char} {parts : List Text} (hne : parts ≠ [])
    (h : ∀ part ∈ parts, sep ∉ part) : (joinWith sep parts).splitOn sep = parts := by
  rw [joinWith_eq_intercalate]
  exact List.splitOn_intercalate sep h hne

theorem not_mem_decimal (hc : c.isDigit = false) (n : Nat) : c ∉ decimal n := by
  intro hmem
  rw [isDigit_of_mem_decimal hmem] at hc
  cases hc

theorem splitOn_dotted (n : Nat) :
    (dotted n).splitOn '.' = [decimal (n / 2 ^ 24 % 256), decimal (n / 2 ^ 16 % 256),
      decimal (n / 2 ^ 8 % 256), decimal (n % 256)] := by
  unfold dotted
  refine splitOn_joinWith (by simp) ?_
  intro part hpart
  simp only [List.mem_cons, List.not_mem_nil, or_false] at hpart
  rcases hpart with rfl | rfl | rfl | rfl <;> exact not_mem_decimal (by decide) _

theorem parseIPv4_dotted (h : n < 2 ^ 32) :
    parseIPv4 (dotted n) = some (BitVec.ofNat 32 n) := by
  unfold parseIPv4
  rw [splitOn_dotted]
  have hsum : n / 2 ^ 24 % 256 * 2 ^ 24 + n / 2 ^ 16 % 256 * 2 ^ 16 + n / 2 ^ 8 % 256 * 2 ^ 8 +
      n % 256 = n := by
    omega
  have hmod : ∀ m, m % 256 < 256 := fun m => Nat.mod_lt m (by decide)
  simp only [List.mapM_cons, List.mapM_nil, parseOctet_decimal (hmod _), Option.pure_def,
    Option.bind_eq_bind, Option.bind_some, hsum]

end Dotted

section Groups

def HexPart (part : Text) : Prop :=
  part ≠ [] ∧ part.length ≤ 4 ∧ ∀ c ∈ part, isHexDigit c = true

theorem hexPart_hex (h : n < 2 ^ 16) : HexPart (hex n) :=
  ⟨hex_ne_nil n, length_hex_le h, fun _ hc => isHexDigit_of_mem_hex hc⟩

attribute [local simp] parseGroups

variable {part : Text} (hpart : HexPart part)

include hpart

theorem span_hexPart (rest : Text) (hrest : ∀ c ∈ rest.head?, isHexDigit c = false) :
    (part ++ rest).takeWhile isHexDigit = part ∧ (part ++ rest).dropWhile isHexDigit = rest :=
  span_append hpart.2.2 hrest

theorem not_badLength : ¬(part.length = 0 ∨ 4 < part.length) := by
  have hpos := List.length_pos_of_ne_nil hpart.1
  have hle := hpart.2.1
  omega

theorem parseGroups_last (fuel : Nat) (groups : List Nat) (ellipsis : Option Nat) :
    parseGroups (fuel + 1) groups ellipsis part =
      some (groups ++ [hexValue part], ellipsis, []) := by
  have hspan := span_hexPart hpart [] (by simp)
  rw [List.append_nil] at hspan
  unfold parseGroups
  simp only [hspan.1, hspan.2, if_neg (not_badLength hpart)]

theorem parseGroups_colon (fuel : Nat) (groups : List Nat) (ellipsis : Option Nat) {rest : Text}
    (hne : rest ≠ []) (hcolon : rest.head? ≠ some ':') :
    parseGroups (fuel + 1) groups ellipsis (part ++ ':' :: rest) =
      parseGroups fuel (groups ++ [hexValue part]) ellipsis rest := by
  have hspan := span_hexPart hpart (':' :: rest) (by simp; decide)
  obtain ⟨c, more, rfl⟩ := List.exists_cons_of_ne_nil hne
  have hc : c ≠ ':' := by simpa using hcolon
  rw [parseGroups]
  simp only [hspan.1, hspan.2, if_neg (not_badLength hpart)]
  split <;> simp_all

theorem parseGroups_ellipsis_end (fuel : Nat) (groups : List Nat) :
    parseGroups (fuel + 1) groups none (part ++ [':', ':']) =
      some (groups ++ [hexValue part], some (groups.length + 1), []) := by
  have hspan := span_hexPart hpart [':', ':'] (by simp; decide)
  rw [parseGroups]
  simp only [hspan.1, hspan.2, if_neg (not_badLength hpart)]
  simp

theorem parseGroups_ellipsis (fuel : Nat) (groups : List Nat) {rest : Text} (hne : rest ≠ []) :
    parseGroups (fuel + 1) groups none (part ++ ':' :: ':' :: rest) =
      parseGroups fuel (groups ++ [hexValue part]) (some (groups.length + 1)) rest := by
  have hspan := span_hexPart hpart (':' :: ':' :: rest) (by simp; decide)
  rw [parseGroups]
  simp only [hspan.1, hspan.2, if_neg (not_badLength hpart)]
  simp [hne]

omit hpart in
theorem joinWith_ne_nil (hne : parts ≠ []) (h : ∀ part ∈ parts, HexPart part) :
    joinWith ':' parts ≠ [] := by
  obtain ⟨first, rest, rfl⟩ := List.exists_cons_of_ne_nil hne
  have hfirst := (h first List.mem_cons_self).1
  cases rest with
  | nil => exact hfirst
  | cons next more =>
      rw [joinWith_cons_cons]
      exact fun hnil => hfirst (List.append_eq_nil_iff.mp hnil).1

omit hpart in
theorem head?_joinWith (h : ∀ part ∈ parts, HexPart part) :
    (joinWith ':' parts).head? ≠ some ':' := by
  cases parts with
  | nil => simp [joinWith]
  | cons first rest =>
      have hfirst := h first List.mem_cons_self
      obtain ⟨c, more, rfl⟩ := List.exists_cons_of_ne_nil hfirst.1
      have hc : c ≠ ':' := by
        rintro rfl
        exact absurd (hfirst.2.2 ':' List.mem_cons_self) (by decide)
      cases rest with
      | nil => simpa [joinWith] using hc
      | cons next rest =>
          rw [joinWith_cons_cons, List.cons_append, List.head?_cons]
          simpa using hc

omit hpart in
theorem parseGroups_joinWith (hne : parts ≠ [])
    (h : ∀ part ∈ parts, HexPart part) {fuel : Nat} (hfuel : parts.length ≤ fuel)
    (groups : List Nat) (ellipsis : Option Nat) :
    parseGroups fuel groups ellipsis (joinWith ':' parts) =
      some (groups ++ parts.map hexValue, ellipsis, []) := by
  induction parts generalizing fuel groups with
  | nil => exact absurd rfl hne
  | cons first rest ih =>
      obtain ⟨k, rfl⟩ : ∃ k, fuel = k + 1 := ⟨fuel - 1, by simp at hfuel; omega⟩
      have hfirst := h first List.mem_cons_self
      have hrest : ∀ part ∈ rest, HexPart part := fun part hp => h part (List.mem_cons_of_mem _ hp)
      cases rest with
      | nil => exact parseGroups_last hfirst k groups ellipsis
      | cons next more =>
          have hsome := List.cons_ne_nil next more
          rw [joinWith_cons_cons, parseGroups_colon hfirst _ _ _ (joinWith_ne_nil hsome hrest)
            (head?_joinWith hrest), ih hsome hrest (by simpa using hfuel)]
          simp

omit hpart in
theorem parseGroups_gap {hi lo : List Text} (hne : hi ≠ []) (hhi : ∀ part ∈ hi, HexPart part)
    (hlo : ∀ part ∈ lo, HexPart part) {fuel : Nat} (hfuel : hi.length + lo.length ≤ fuel)
    (groups : List Nat) :
    parseGroups fuel groups none (joinWith ':' hi ++ ':' :: ':' :: joinWith ':' lo) =
      some (groups ++ hi.map hexValue ++ lo.map hexValue, some (groups.length + hi.length), []) := by
  induction hi generalizing fuel groups with
  | nil => exact absurd rfl hne
  | cons first rest ih =>
      obtain ⟨k, rfl⟩ : ∃ k, fuel = k + 1 := ⟨fuel - 1, by simp at hfuel; omega⟩
      have hfirst := hhi first List.mem_cons_self
      have hrest : ∀ part ∈ rest, HexPart part := fun part hp =>
        hhi part (List.mem_cons_of_mem _ hp)
      simp only [List.length_cons] at hfuel
      cases rest with
      | nil =>
          rw [joinWith]
          by_cases hlast : lo = []
          · subst hlast
            rw [joinWith, parseGroups_ellipsis_end hfirst]
            simp
          · rw [parseGroups_ellipsis hfirst _ _ (joinWith_ne_nil hlast hlo),
              parseGroups_joinWith hlast hlo (by simp only [List.length_nil] at hfuel; omega)]
            simp
      | cons next more =>
          have hsome := List.cons_ne_nil next more
          have hjoin := joinWith_ne_nil hsome hrest
          have hhead : (joinWith ':' (next :: more) ++ ':' :: ':' :: joinWith ':' lo).head? ≠
              some ':' := by
            rw [List.head?_append_of_ne_nil _ hjoin]
            exact head?_joinWith hrest
          rw [joinWith_cons_cons, List.append_assoc, List.cons_append,
            parseGroups_colon hfirst _ _ _ (by simp) hhead, ih hsome hrest (by omega)]
          simp [Nat.add_comm, Nat.add_left_comm]

end Groups

section Compress

structure RunInv (parts : List Text) (index : Nat) (run : ZeroRun) : Prop where
  here : run.len = 0 ∨ run.start + run.len = index
  zeros : ∀ i, run.start ≤ i → i < run.start + run.len → parts[i]? = some ['0']
  best_le : run.bestStart + run.bestLen ≤ index
  bestZeros : ∀ i, run.bestStart ≤ i → i < run.bestStart + run.bestLen → parts[i]? = some ['0']

theorem RunInv.step {index : Nat} {part : Text}
    (h : RunInv parts index run) (hpart : parts[index]? = some part) :
    RunInv parts (index + 1) (run.step index part) := by
  have hhere := h.here
  have hbest := h.best_le
  unfold ZeroRun.step
  by_cases hzero : part = ['0']
  · rw [if_pos hzero]
    -- the run that ends here, one longer
    let start := if run.len = 0 then index else run.start
    have hstart : start + (run.len + 1) = index + 1 := by
      show (if run.len = 0 then index else run.start) + (run.len + 1) = index + 1
      split <;> omega
    have hzeros : ∀ i, start ≤ i → i < start + (run.len + 1) → parts[i]? = some ['0'] := by
      intro i hle hlt
      by_cases hi : i = index
      · rw [hi, hpart, hzero]
      · refine h.zeros i ?_ ?_
        · by_cases hlen : run.len = 0
          · have : start = index := if_pos hlen
            omega
          · have : start = run.start := if_neg hlen
            omega
        · omega
    dsimp only
    split
    · exact ⟨.inr hstart, hzeros, Nat.le_of_eq hstart, hzeros⟩
    · exact ⟨.inr hstart, hzeros, Nat.le_succ_of_le hbest, h.bestZeros⟩
  · rw [if_neg hzero]
    exact ⟨.inl rfl, fun i hle hlt => absurd hlt (by simp; omega), Nat.le_succ_of_le hbest,
      h.bestZeros⟩

theorem RunInv.zeroRuns {rest : List Text} {index : Nat}
    (h : RunInv parts index run) (hrest : parts.drop index = rest) :
    RunInv parts (index + rest.length) (zeroRuns rest index run) := by
  induction rest generalizing index run with
  | nil => exact h
  | cons part more ih =>
      have hpart : parts[index]? = some part := by
        rw [← List.head?_drop, hrest, List.head?_cons]
      have hmore : parts.drop (index + 1) = more := by
        rw [← List.tail_drop, hrest, List.tail_cons]
      have hnext := ih (h.step hpart) hmore
      rw [List.length_cons, Nat.add_comm more.length, ← Nat.add_assoc]
      exact hnext

theorem joinWith_append (sep : Char) {others : List Text} (h : parts ≠ [])
    (h' : others ≠ []) :
    joinWith sep (parts ++ others) = joinWith sep parts ++ sep :: joinWith sep others := by
  induction parts with
  | nil => exact absurd rfl h
  | cons first rest ih =>
      cases rest with
      | nil =>
          obtain ⟨next, more, rfl⟩ := List.exists_cons_of_ne_nil h'
          exact joinWith_cons_cons sep first next more
      | cons next more =>
          rw [List.cons_append, List.cons_append, joinWith_cons_cons, ← List.cons_append,
            ih (List.cons_ne_nil _ _), joinWith_cons_cons, List.append_assoc, List.cons_append]

theorem RunInv.split (h : RunInv parts parts.length run) :
    parts = parts.take run.bestStart ++ List.replicate run.bestLen ['0'] ++
      parts.drop (run.bestStart + run.bestLen) := by
  have hle := h.best_le
  have hmid : (parts.drop run.bestStart).take run.bestLen = List.replicate run.bestLen ['0'] := by
    rw [List.eq_replicate_iff]
    refine ⟨by rw [List.length_take, List.length_drop]; omega, ?_⟩
    intro part hmem
    obtain ⟨i, hi⟩ := List.mem_iff_getElem?.mp hmem
    rw [List.getElem?_take] at hi
    split at hi
    · rename_i hlt
      rw [List.getElem?_drop, h.bestZeros _ (Nat.le_add_right _ _) (by omega)] at hi
      exact (Option.some.inj hi).symm
    · cases hi
  rw [← hmid, ← List.drop_drop, List.append_assoc, List.take_append_drop, List.take_append_drop]

theorem joinWith_around (hi lo : List Text) :
    joinWith ':' ((if hi = [] then [[]] else []) ++ hi ++ [[]] ++ lo ++
      (if lo = [] then [[]] else [])) = joinWith ':' hi ++ ':' :: ':' :: joinWith ':' lo := by
  by_cases hhi : hi = [] <;> by_cases hlo : lo = []
  · subst hhi hlo
    rfl
  · subst hhi
    rw [if_pos rfl, if_neg hlo, List.append_nil, List.append_nil,
      joinWith_append ':' (by simp) hlo]
    rfl
  · subst hlo
    rw [if_neg hhi, if_pos rfl, List.nil_append, List.append_nil, List.append_assoc,
      joinWith_append ':' hhi (by simp)]
    rfl
  · rw [if_neg hhi, if_neg hlo, List.nil_append, List.append_nil,
      joinWith_append ':' (by simp) hlo, joinWith_append ':' hhi (by simp), List.append_assoc]
    rfl

theorem joinWith_compressHextets (parts : List Text) :
    joinWith ':' (compressHextets parts) = joinWith ':' parts ∨
    ∃ hi lo k, 1 < k ∧ parts = hi ++ List.replicate k ['0'] ++ lo ∧
      joinWith ':' (compressHextets parts) =
        joinWith ':' hi ++ ':' :: ':' :: joinWith ':' lo := by
  have hinit : RunInv parts 0 ⟨0, 0, 0, 0⟩ :=
    ⟨.inl rfl, fun i _ hlt => absurd hlt (by simp), Nat.le_refl _, fun i _ hlt => absurd hlt (by simp)⟩
  have hinv := hinit.zeroRuns (List.drop_zero (l := parts))
  rw [Nat.zero_add] at hinv
  unfold compressHextets
  generalize zeroRuns parts 0 ⟨0, 0, 0, 0⟩ = run at hinv
  dsimp only
  by_cases hlong : 1 < run.bestLen
  · right
    refine ⟨parts.take run.bestStart, parts.drop (run.bestStart + run.bestLen), run.bestLen, hlong,
      hinv.split, ?_⟩
    have hle := hinv.best_le
    have hhi : run.bestStart = 0 ↔ parts.take run.bestStart = [] := by
      rw [List.take_eq_nil_iff]
      refine ⟨.inl, ?_⟩
      rintro (hzero | rfl)
      · exact hzero
      · simp at hle
        omega
    have hlo : run.bestStart + run.bestLen = parts.length ↔
        parts.drop (run.bestStart + run.bestLen) = [] := by
      rw [List.drop_eq_nil_iff]
      omega
    rw [if_pos hlong, ← joinWith_around]
    simp only [hhi, hlo]
  · left
    rw [if_neg hlong]

end Compress

end OpenvpnServer.Lib.Ipaddress
