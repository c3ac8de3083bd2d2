import OpenvpnServer.Config.Openvpn
import OpenvpnServer.Config.OptionName.Lemmas

namespace OpenvpnServer.Config

open OpenvpnServer.Lib

section Strip

theorem rstrip_append_space (line : Text) {space : Text} (h : ∀ c ∈ space, cSpace c = true) :
    rstrip (line ++ space) = rstrip line := by
  induction space using List.reverseRecOn with
  | nil => rw [List.append_nil]
  | append_singleton rest c ih =>
      have hc := h c (List.mem_append_right _ List.mem_cons_self)
      unfold rstrip at ih ⊢
      rw [← List.append_assoc, List.rdropWhile_concat_pos _ _ _ hc]
      exact ih fun d hd => h d (List.mem_append_left _ hd)

theorem rstrip_append_rtakeWhile (line : Text) : rstrip line ++ line.rtakeWhile cSpace = line :=
  List.rdropWhile_append_rtakeWhile

theorem space_of_mem_rtakeWhile (line : Text) : ∀ c ∈ line.rtakeWhile cSpace, cSpace c = true :=
  fun _ hc => List.mem_rtakeWhile_imp hc

theorem rstrip_cons_congr (c : Char) {line other : Text} (h : rstrip line = rstrip other) :
    rstrip (c :: line) = rstrip (c :: other) := by
  have hcons : ∀ l : Text, rstrip (c :: l) = rstrip (c :: rstrip l) := by
    intro l
    conv_lhs => rw [← rstrip_append_rtakeWhile l, ← List.cons_append]
    exact rstrip_append_space _ (space_of_mem_rtakeWhile l)
  rw [hcons, h, ← hcons]

theorem strip_congr {line other : Text} (h : rstrip line = rstrip other) :
    strip line = strip other := by
  unfold strip
  rw [h]

end Strip

section Pieces

theorem pieces_of_short {line : Text} (h : line.length ≤ maxLine) : pieces line = [line] := by
  have hone : (line.length - 1) / maxLine + 1 = 1 := by
    unfold maxLine at h ⊢
    omega
  unfold pieces
  rw [hone]
  simp [List.take_of_length_le h]

theorem rstrip_piece (start : Text) {space : Text} (h : ∀ c ∈ space, cSpace c = true) (k n : Nat) :
    rstrip (((start ++ space).drop k).take n) = rstrip ((start.drop k).take n) := by
  rw [List.drop_append, List.take_append]
  refine rstrip_append_space _ ?_
  intro c hc
  exact h c (List.mem_of_mem_drop (List.mem_of_mem_take hc))

theorem pieces_of_rstrip_eq {line other piece : Text} (h : rstrip line = rstrip other)
    (hpiece : piece ∈ pieces other) :
    strip piece = [] ∨ ∃ same ∈ pieces line, strip piece = strip same := by
  obtain ⟨i, hi, rfl⟩ := List.mem_map.mp hpiece
  have hother := rstrip_piece (rstrip other) (space_of_mem_rtakeWhile other)
    (maxLine * i) maxLine
  have hline := rstrip_piece (rstrip line) (space_of_mem_rtakeWhile line)
    (maxLine * i) maxLine
  rw [rstrip_append_rtakeWhile] at hother hline
  by_cases hrange : i ≤ (line.length - 1) / maxLine
  · right
    refine ⟨_, List.mem_map.mpr ⟨i, List.mem_range.mpr (Nat.lt_succ_of_le hrange), rfl⟩, ?_⟩
    apply strip_congr
    rw [hother, hline, h]
  · left
    have hlen : (rstrip line).length ≤ line.length := (List.rdropWhile_prefix cSpace line).length_le
    have hpast : (rstrip other).length ≤ maxLine * i := by
      rw [← h]
      unfold maxLine at hrange ⊢
      omega
    rw [List.drop_of_length_le hpast, List.take_nil] at hother
    unfold strip
    rw [hother]
    rfl

end Pieces

section Newlines

theorem crPaired_octets (text : Text) : crPaired (octets text) = crPaired text := by
  have hnewline : ('\n' : Char).toNat < 128 := by decide
  induction text with
  | nil => rfl
  | cons c rest ih =>
      by_cases hc : c.toNat < 128
      · have hhead : (octets rest).head? = some '\n' ↔ rest.head? = some '\n' := by
          rw [List.head?_eq_some_iff, List.head?_eq_some_iff]
          constructor
          · rintro ⟨bytes, hbytes⟩
            obtain ⟨after, rfl, -⟩ := octets_eq_cons_ascii hnewline hbytes
            exact ⟨after, rfl⟩
          · rintro ⟨after, rfl⟩
            exact ⟨octets after, octets_cons_ascii hnewline after⟩
        rw [octets_cons_ascii hc]
        simp only [crPaired, ih, hhead]
      · have hskip : ∀ bytes : Text, (∀ d ∈ bytes, 128 ≤ d.toNat) →
            crPaired (bytes ++ octets rest) = crPaired (octets rest) := by
          intro bytes hbytes
          induction bytes with
          | nil => rfl
          | cons d more ihd =>
              have hd : d ≠ '\r' := by
                rintro rfl
                exact absurd (hbytes _ List.mem_cons_self) (by decide)
              rw [List.cons_append, crPaired, ihd fun e he => hbytes e (List.mem_cons_of_mem _ he)]
              simp [hd]
        have hcr : c ≠ '\r' := by
          rintro rfl
          exact hc (by decide)
        rw [octets_cons, hskip _ fun d hd => octets_singleton_not_ascii (Nat.le_of_not_lt hc) hd, ih,
          crPaired]
        simp [hcr]

theorem map_rstrip_modifyHead (c : Char) {lines others : List Text}
    (h : lines.map rstrip = others.map rstrip) :
    (lines.modifyHead (c :: ·)).map rstrip = (others.modifyHead (c :: ·)).map rstrip := by
  cases lines with
  | nil =>
      rw [List.map_nil, eq_comm, List.map_eq_nil_iff] at h
      rw [h]
  | cons line rest =>
      cases others with
      | nil => simp at h
      | cons other more =>
          rw [List.map_cons, List.map_cons, List.cons.injEq] at h
          simp only [List.modifyHead_cons, List.map_cons, rstrip_cons_congr c h.1, h.2]

theorem rstrip_universalNewlines (text : Text) (h : crPaired text = true) :
    ((universalNewlines text).splitOn '\n').map rstrip = (text.splitOn '\n').map rstrip := by
  induction text using universalNewlines.induct with
  | case1 rest ih =>
      have hrest : crPaired rest = true := by simpa [crPaired] using h
      have hsplit : List.splitOn '\n' ('\r' :: '\n' :: rest) = ['\r'] :: rest.splitOn '\n' := by
        simp [List.splitOn_cons_eq_if_modifyHead]
      rw [universalNewlines, hsplit, List.splitOn_cons_eq_if_modifyHead, if_pos (by decide),
        List.map_cons, List.map_cons, ih hrest]
      rfl
  | case2 rest hne ih =>
      -- a carriage return on its own is ruled out
      simp only [crPaired, Bool.and_eq_true, Bool.or_eq_true, decide_eq_true_eq] at h
      rcases h.1 with hcr | hhead
      · exact absurd rfl hcr
      · obtain ⟨after, hafter⟩ := List.head?_eq_some_iff.mp hhead
        exact absurd hafter (hne after)
  | case3 c rest hcrlf hcr ih =>
      have hrest : crPaired rest = true := by
        simp only [crPaired, Bool.and_eq_true] at h
        exact h.2
      rw [universalNewlines.eq_3 c rest hcrlf hcr, List.splitOn_cons_eq_if_modifyHead,
        List.splitOn_cons_eq_if_modifyHead]
      split
      · rw [List.map_cons, List.map_cons, ih hrest]
      · exact map_rstrip_modifyHead c (ih hrest)
  | case4 => rfl

end Newlines

section Reading

theorem skipBom_octets (text : Text) : skipBom (octets text) = octets (removeBom text) := by
  unfold skipBom removeBom
  by_cases hbom : text.head? = some bom
  · obtain ⟨rest, rfl⟩ := List.head?_eq_some_iff.mp hbom
    rw [if_pos hbom, octets_cons bom rest, if_pos, List.drop_left, List.tail_cons]
    rw [List.isPrefixOf_iff_prefix]
    exact List.prefix_append _ _
  · rw [if_neg hbom, if_neg]
    rw [List.isPrefixOf_iff_prefix]
    rintro ⟨rest, hrest⟩
    obtain ⟨after, rfl⟩ := exists_cons_of_octets_eq hrest.symm
    exact hbom rfl

theorem splitOn_octets (text : Text) :
    (octets text).splitOn '\n' = (text.splitOn '\n').map octets := by
  rw [List.splitOn_eq_splitOnP, List.splitOn_eq_splitOnP]
  refine splitOnP_octets ?_ text
  intro c hc
  rw [beq_iff_eq] at hc
  subst hc
  decide

theorem physicalLines_utf8 (text : Text) :
    physicalLines (utf8 text) = ((removeBom text).splitOn '\n').map octets := by
  unfold physicalLines
  rw [← octets, skipBom_octets, splitOn_octets]

theorem mem_openvpnLines_of_short {disk : Bytes} {line : Text} (hline : line ∈ physicalLines disk)
    (h : line.length ≤ maxLine) : line ∈ openvpnLines disk :=
  List.mem_flatMap.mpr ⟨line, hline, by rw [pieces_of_short h]; exact List.mem_cons_self⟩

theorem strip_cons_bom (rest : Text) : ∃ after, strip (bom :: rest) = bom :: after := by
  have hbom : cSpace bom = false := by decide
  have hcons : ∃ after, rstrip (bom :: rest) = bom :: after := by
    have hne : rstrip (bom :: rest) ≠ [] := by
      intro hnil
      have hall := List.rdropWhile_eq_nil_iff.mp hnil bom List.mem_cons_self
      rw [hbom] at hall
      cases hall
    obtain ⟨c, after, hafter⟩ := List.exists_cons_of_ne_nil hne
    have hpre : c :: after <+: bom :: rest := hafter ▸ List.rdropWhile_prefix cSpace (bom :: rest)
    rw [(List.cons_prefix_cons.mp hpre).1] at hafter
    exact ⟨after, hafter⟩
  obtain ⟨after, hafter⟩ := hcons
  refine ⟨after, ?_⟩
  unfold strip
  rw [hafter, List.dropWhile_cons_of_neg (by simp [hbom])]

-- What the editor takes for a line on disk is one to OpenVPN too, unless it
-- begins with the byte order mark.
theorem physical_of_known {disk : Bytes} {current line : Text} (hcr : crPaired (latin1 disk) = true)
    (hread : readConfig disk = .ok current) (h : line ∈ (current.splitOn '\n').map strip) :
    octets line ∈ (physicalLines disk).map strip ∨ ∃ rest, line = bom :: rest := by
  unfold readConfig at hread
  cases hdecode : utf8Decode? disk with
  | none => simp [hdecode] at hread
  | some text =>
      simp only [hdecode, Except.ok.injEq] at hread
      subst hread
      have hdisk := utf8_of_decode hdecode
      subst hdisk
      have hcr' : crPaired text = true := by rw [← crPaired_octets]; exact hcr
      obtain ⟨translated, htranslated, rfl⟩ := List.mem_map.mp h
      -- the same line before text mode changed its end
      have hmem := List.mem_map_of_mem (f := rstrip) htranslated
      rw [rstrip_universalNewlines text hcr'] at hmem
      obtain ⟨original, horiginal, hsame⟩ := List.mem_map.mp hmem
      rw [← strip_congr hsame]
      have hphysical : original ∈ (removeBom text).splitOn '\n' →
          octets (strip original) ∈ (physicalLines (utf8 text)).map strip := by
        intro hline
        rw [physicalLines_utf8, List.map_map]
        exact List.mem_map.mpr ⟨original, hline, strip_octets original⟩
      by_cases hbom : text.head? = some bom
      · obtain ⟨rest, rfl⟩ := List.head?_eq_some_iff.mp hbom
        have hremove : removeBom (bom :: rest) = rest := by simp [removeBom]
        rw [hremove] at hphysical
        rw [List.splitOn_cons_eq_if_modifyHead, if_neg (by decide)] at horiginal
        cases hsplit : rest.splitOn '\n' with
        | nil => exact absurd hsplit (List.splitOn_ne_nil _ _)
        | cons first more =>
            rw [hsplit, List.modifyHead_cons, List.mem_cons] at horiginal
            rcases horiginal with rfl | hmore
            · exact .inr (strip_cons_bom first)
            · exact .inl (hphysical (hsplit ▸ List.mem_cons_of_mem _ hmore))
      · have hremove : removeBom text = text := by simp [removeBom, hbom]
        exact .inl (hphysical (hremove.symm ▸ horiginal))

end Reading

end OpenvpnServer.Config
