import Mathlib.Data.List.DropRight
import OpenvpnServer.Lib.Text

namespace OpenvpnServer.Lib

variable {text rest : Text} {c : Char}

abbrev Bytes := List UInt8

def utf8 (text : Text) : Bytes := text.flatMap String.utf8EncodeChar

-- Strict: no overlong forms and no surrogates.
def utf8Decode? (bytes : Bytes) : Option Text := bytes.toByteArray.utf8Decode?.map Array.toList

-- Bytes as the characters of the same numbers, so that a reader of bytes and a
-- reader of characters can be compared.
def latin1 (bytes : Bytes) : Text := bytes.map Char.ofUInt8

def octets (text : Text) : Text := latin1 (utf8 text)

section Codec

theorem utf8Decode?_utf8 (text : Text) : utf8Decode? (utf8 text) = some text := by
  have h := List.utf8Decode?_utf8Encode (l := text)
  rw [utf8Decode?, utf8]
  exact (congrArg (Option.map Array.toList) h).trans rfl

theorem utf8_of_decode {bytes : Bytes} (h : utf8Decode? bytes = some text) :
    utf8 text = bytes := by
  obtain ⟨chars, hchars, rfl⟩ := Option.map_eq_some_iff.mp h
  have hsome : bytes.toByteArray.utf8Decode?.isSome = true := by rw [hchars]; rfl
  have hback := ByteArray.utf8Encode_get_utf8Decode? (h := hsome)
  simp only [hchars, Option.get_some, List.utf8Encode] at hback
  have hdata := congrArg (fun b : ByteArray => b.data.toList) hback
  simpa [utf8] using hdata

theorem utf8_injective {other : Text} (h : utf8 text = utf8 other) : text = other := by
  have hdecode := utf8Decode?_utf8 text
  rw [h, utf8Decode?_utf8, Option.some.injEq] at hdecode
  exact hdecode.symm

theorem ofUInt8_injective {a b : UInt8} (h : Char.ofUInt8 a = Char.ofUInt8 b) : a = b := by
  have hval := congrArg Char.toNat h
  change a.toUInt32.toNat = b.toUInt32.toNat at hval
  simpa [UInt8.toNat_inj] using hval

theorem octets_injective {other : Text} (h : octets text = octets other) : text = other :=
  utf8_injective (List.map_injective_iff.mpr (fun _ _ => ofUInt8_injective) h)

end Codec

section Octets

@[simp] theorem octets_nil : octets [] = [] := rfl

theorem octets_append (text other : Text) :
    octets (text ++ other) = octets text ++ octets other := by
  simp [octets, utf8, latin1]

theorem octets_cons (c : Char) (text : Text) : octets (c :: text) = octets [c] ++ octets text :=
  octets_append [c] text

theorem octets_singleton (c : Char) :
    octets [c] = (String.utf8EncodeChar c).map Char.ofUInt8 := by
  simp [octets, utf8, latin1]

theorem toNat_ofUInt8 (n : Nat) : (Char.ofUInt8 (UInt8.ofNat n)).toNat = n % 256 := by
  change (UInt8.ofNat n).toUInt32.toNat = n % 256
  simp

theorem octets_singleton_ascii (h : c.toNat < 128) : octets [c] = [c] := by
  have hle : c.val.toNat ≤ 127 := Nat.le_of_lt_succ h
  have hbyte : Char.ofUInt8 (UInt8.ofNat c.val.toNat) = c := by
    apply Char.ext
    apply UInt32.toNat_inj.mp
    have hmod : c.val.toNat % 256 = c.val.toNat := Nat.mod_eq_of_lt (by omega)
    exact (toNat_ofUInt8 _).trans hmod
  rw [octets_singleton, String.utf8EncodeChar]
  simp only [if_pos hle, List.map_cons, List.map_nil, hbyte]

theorem octets_singleton_not_ascii {d : Char} (h : 128 ≤ c.toNat) (hd : d ∈ octets [c]) :
    128 ≤ d.toNat := by
  have hgt : ¬c.val.toNat ≤ 127 := Nat.not_le_of_lt h
  rw [octets_singleton, String.utf8EncodeChar] at hd
  simp only [if_neg hgt, List.mem_map] at hd
  obtain ⟨byte, hbyte, rfl⟩ := hd
  split at hbyte
  · simp only [List.mem_cons, List.not_mem_nil, or_false] at hbyte
    rcases hbyte with rfl | rfl <;> rw [toNat_ofUInt8] <;> omega
  · split at hbyte
    · simp only [List.mem_cons, List.not_mem_nil, or_false] at hbyte
      rcases hbyte with rfl | rfl | rfl <;> rw [toNat_ofUInt8] <;> omega
    · simp only [List.mem_cons, List.not_mem_nil, or_false] at hbyte
      rcases hbyte with rfl | rfl | rfl | rfl <;> rw [toNat_ofUInt8] <;> omega

theorem octets_cons_ascii (h : c.toNat < 128) (text : Text) :
    octets (c :: text) = c :: octets text := by
  rw [octets_cons, octets_singleton_ascii h, List.singleton_append]

theorem octets_ascii (h : ∀ c ∈ text, c.toNat < 128) : octets text = text := by
  induction text with
  | nil => rfl
  | cons c rest ih =>
      rw [octets_cons_ascii (h c List.mem_cons_self),
        ih fun d hd => h d (List.mem_cons_of_mem _ hd)]

theorem octets_singleton_ne_nil (c : Char) : octets [c] ≠ [] := by
  rw [← octets_nil]
  intro h
  exact absurd (octets_injective h) (List.cons_ne_nil c [])

theorem octets_eq_nil_iff : octets text = [] ↔ text = [] :=
  ⟨fun h => octets_injective (h.trans octets_nil.symm), fun h => by rw [h, octets_nil]⟩

theorem exists_cons_of_octets_eq
    (h : octets text = octets [c] ++ rest) : ∃ after, text = c :: after := by
  cases text with
  | nil => exact absurd (List.append_eq_nil_iff.mp h.symm).1 (octets_singleton_ne_nil c)
  | cons d after =>
      refine ⟨after, ?_⟩
      have hfirst : ∀ (x : Char) (bytes : Bytes),
          (String.utf8EncodeChar x ++ bytes).toByteArray.utf8DecodeChar? 0 = some x := by
        intro x bytes
        rw [List.toByteArray_append]
        exact ByteArray.utf8DecodeChar?_utf8EncodeChar_append
      obtain ⟨restBytes, hrest⟩ : ∃ bytes, utf8 (d :: after) = String.utf8EncodeChar c ++ bytes := by
        rw [octets_singleton] at h
        obtain ⟨l₁, l₂, hsplit, hl₁, -⟩ := List.map_eq_append_iff.mp h
        have : l₁ = String.utf8EncodeChar c :=
          List.map_injective_iff.mpr (fun _ _ => ofUInt8_injective) hl₁
        exact ⟨l₂, this ▸ hsplit⟩
      have hd := hfirst d (utf8 after)
      have hc := hfirst c restBytes
      rw [← hrest] at hc
      have hsame : utf8 (d :: after) = String.utf8EncodeChar d ++ utf8 after := by simp [utf8]
      rw [hsame, hd, Option.some.injEq] at hc
      rw [hc]

theorem octets_eq_cons_ascii {a : Char} (ha : a.toNat < 128)
    (h : octets text = a :: rest) : ∃ after, text = a :: after ∧ rest = octets after := by
  rw [← List.singleton_append, ← octets_singleton_ascii ha] at h
  obtain ⟨after, rfl⟩ := exists_cons_of_octets_eq h
  rw [octets_cons] at h
  exact ⟨after, rfl, (List.append_cancel_left h).symm⟩

theorem octets_eq_concat_ascii {a : Char} (ha : a.toNat < 128)
    (h : octets text = rest ++ [a]) : ∃ before, text = before ++ [a] ∧ rest = octets before := by
  cases text using List.reverseRecOn with
  | nil => simp at h
  | append_singleton before c =>
      by_cases hc : c.toNat < 128
      · rw [octets_append, octets_singleton_ascii hc] at h
        obtain ⟨hbefore, hlast⟩ := List.append_inj' h rfl
        exact ⟨before, by rw [hlast], hbefore.symm⟩
      · -- the last byte of `c` is no ASCII character
        have hlast := congrArg List.getLast? h
        rw [octets_append, List.getLast?_append_of_ne_nil _ (octets_singleton_ne_nil c),
          List.getLast?_concat] at hlast
        have hge := octets_singleton_not_ascii (Nat.le_of_not_lt hc) (List.mem_of_getLast? hlast)
        omega

end Octets

theorem splitOnP_append_of_not {p : Char → Bool} {start : Text} (rest : Text)
    (h : ∀ c ∈ start, p c = false) :
    (start ++ rest).splitOnP p = (rest.splitOnP p).modifyHead (start ++ ·) := by
  induction start with
  | nil => cases hrest : rest.splitOnP p <;> simp [hrest]
  | cons c more ih =>
      rw [List.cons_append, List.splitOnP_cons_eq_if_modifyHead,
        if_neg (by simp [h c List.mem_cons_self]),
        ih fun d hd => h d (List.mem_cons_of_mem _ hd), List.modifyHead_modifyHead]
      rfl

-- A reader that only looks at ASCII characters reads the bytes of a text as it
-- reads the text.
section Readers

variable {p : Char → Bool} (hp : ∀ c, p c = true → c.toNat < 128)

include hp

theorem octets_singleton_of_not (h : p c = false) : ∀ d ∈ octets [c], p d = false := by
  intro d hd
  by_cases hc : c.toNat < 128
  · rw [octets_singleton_ascii hc, List.mem_singleton] at hd
    rw [hd, h]
  · have hge := octets_singleton_not_ascii (Nat.le_of_not_lt hc) hd
    rw [← Bool.not_eq_true]
    intro hpd
    have hlt := hp d hpd
    omega

theorem dropWhile_octets (text : Text) : (octets text).dropWhile p = octets (text.dropWhile p) := by
  induction text with
  | nil => rfl
  | cons c rest ih =>
      by_cases hc : p c = true
      · rw [octets_cons_ascii (hp c hc), List.dropWhile_cons_of_pos hc,
          List.dropWhile_cons_of_pos hc, ih]
      · rw [List.dropWhile_cons_of_neg hc, octets_cons]
        have hnot := octets_singleton_of_not hp (Bool.eq_false_iff.mpr hc)
        obtain ⟨d, more, hd⟩ := List.exists_cons_of_ne_nil (octets_singleton_ne_nil c)
        have hdp : p d = false := hnot d (hd ▸ List.mem_cons_self)
        rw [hd, List.cons_append, List.dropWhile_cons_of_neg (by simp [hdp])]

theorem takeWhile_not_octets (text : Text) :
    (octets text).takeWhile (! p ·) = octets (text.takeWhile (! p ·)) := by
  induction text with
  | nil => rfl
  | cons c rest ih =>
      by_cases hc : p c = true
      · rw [octets_cons_ascii (hp c hc), List.takeWhile_cons_of_neg (by simp [hc]),
          List.takeWhile_cons_of_neg (by simp [hc]), octets_nil]
      · have hnot := octets_singleton_of_not hp (Bool.eq_false_iff.mpr hc)
        rw [octets_cons, List.takeWhile_append_of_pos (fun d hd => by simp [hnot d hd]), ih,
          List.takeWhile_cons_of_pos (by simp [hc]), ← octets_append, List.singleton_append]

theorem dropWhile_not_octets (text : Text) :
    (octets text).dropWhile (! p ·) = octets (text.dropWhile (! p ·)) := by
  have hwhole : octets (text.takeWhile (! p ·)) ++ (octets text).dropWhile (! p ·) =
      octets (text.takeWhile (! p ·)) ++ octets (text.dropWhile (! p ·)) := by
    rw [← takeWhile_not_octets hp, List.takeWhile_append_dropWhile, takeWhile_not_octets hp,
      ← octets_append, List.takeWhile_append_dropWhile]
  exact List.append_cancel_left hwhole

theorem rdropWhile_octets (text : Text) :
    (octets text).rdropWhile p = octets (text.rdropWhile p) := by
  induction text using List.reverseRecOn with
  | nil => rfl
  | append_singleton rest c ih =>
      by_cases hc : p c = true
      · rw [octets_append, octets_singleton_ascii (hp c hc), List.rdropWhile_concat_pos _ _ _ hc,
          List.rdropWhile_concat_pos _ _ _ hc, ih]
      · rw [List.rdropWhile_concat_neg _ _ _ hc, octets_append, List.rdropWhile_eq_self_iff]
        intro hne
        have hnot := octets_singleton_of_not hp (Bool.eq_false_iff.mpr hc)
        rw [List.getLast_append_of_ne_nil _ (octets_singleton_ne_nil c)]
        simpa using hnot _ (List.getLast_mem (octets_singleton_ne_nil c))

theorem splitOnP_octets (text : Text) :
    (octets text).splitOnP p = (text.splitOnP p).map octets := by
  induction text with
  | nil => rfl
  | cons c rest ih =>
      rw [List.splitOnP_cons_eq_if_modifyHead]
      by_cases hc : p c = true
      · rw [if_pos hc, octets_cons_ascii (hp c hc), List.splitOnP_cons_eq_if_modifyHead, if_pos hc,
          ih, List.map_cons, octets_nil]
      · rw [if_neg hc, octets_cons]
        have hnot := octets_singleton_of_not hp (Bool.eq_false_iff.mpr hc)
        rw [splitOnP_append_of_not _ hnot, ih]
        cases List.splitOnP p rest with
        | nil => rfl
        | cons line lines => simp [← octets_append]

end Readers

end OpenvpnServer.Lib
