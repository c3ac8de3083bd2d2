import OpenvpnServer.Lib.Python

-- Where a word can stand at the beginning of a line: at the start of the text or
-- right after a line break.
namespace OpenvpnServer.Lib

variable {word text line : Text} {p : Char → Bool} {lines : List Text}

section Infix

variable {α : Type*} {l a b : List α} {c d : α}

theorem prefix_of_append_cons (h : l <+: a ++ d :: b) (hd : d ∉ l) : l <+: a := by
  induction a generalizing l with
  | nil =>
      cases l with
      | nil => exact List.nil_prefix
      | cons x rest =>
          rw [List.nil_append, List.cons_prefix_cons] at h
          exact absurd (h.1 ▸ List.mem_cons_self) hd
  | cons y more ih =>
      cases l with
      | nil => exact List.nil_prefix
      | cons x rest =>
          rw [List.cons_append, List.cons_prefix_cons] at h
          rw [List.mem_cons, not_or] at hd
          exact List.cons_prefix_cons.mpr ⟨h.1, ih h.2 hd.2⟩

theorem infix_of_append_cons (h : l <:+: a ++ d :: b) (hd : d ∉ l) : l <:+: a ∨ l <:+: b := by
  induction a with
  | nil =>
      rw [List.nil_append, List.infix_cons_iff] at h
      rcases h with hprefix | hinside
      · exact .inl (prefix_of_append_cons (a := []) hprefix hd).isInfix
      · exact .inr hinside
  | cons x rest ih =>
      rw [List.cons_append, List.infix_cons_iff] at h
      rcases h with hprefix | hinside
      · exact .inl (prefix_of_append_cons (a := x :: rest) hprefix hd).isInfix
      · exact (ih hinside).imp_left List.infix_cons

theorem infix_of_append (h : c :: l <:+: a ++ b) (hc : c ∉ a) : c :: l <:+: b := by
  induction a with
  | nil => exact h
  | cons x rest ih =>
      rw [List.mem_cons, not_or] at hc
      rw [List.cons_append, List.infix_cons_iff, List.cons_prefix_cons] at h
      rcases h with ⟨heq, -⟩ | hinside
      · exact absurd heq hc.1
      · exact ih hinside hc.2

end Infix

section Lines

def BeginsLine (word text : Text) : Prop := ∃ c, lineBreak c = true ∧ c :: word <:+: text

def beginsLine (word : Text) : Text → Bool
  | [] => false
  | c :: rest => (lineBreak c && word.isPrefixOf rest) || beginsLine word rest

theorem beginsLine_iff : beginsLine word text = true ↔ BeginsLine word text := by
  induction text with
  | nil => simp [beginsLine, BeginsLine]
  | cons d rest ih =>
      unfold beginsLine BeginsLine
      rw [Bool.or_eq_true, Bool.and_eq_true, List.isPrefixOf_iff_prefix, ih]
      constructor
      · rintro (⟨hbreak, hprefix⟩ | ⟨c, hbreak, hinside⟩)
        · exact ⟨d, hbreak, (List.cons_prefix_cons.mpr ⟨rfl, hprefix⟩).isInfix⟩
        · exact ⟨c, hbreak, List.infix_cons hinside⟩
      · rintro ⟨c, hbreak, hinside⟩
        rcases List.infix_cons_iff.mp hinside with hprefix | hinside
        · obtain ⟨rfl, hrest⟩ := List.cons_prefix_cons.mp hprefix
          exact .inl ⟨hbreak, hrest⟩
        · exact .inr ⟨c, hbreak, hinside⟩

instance (word text : Text) : Decidable (BeginsLine word text) :=
  decidable_of_iff _ beginsLine_iff

theorem BeginsLine.mono {whole : Text} (h : BeginsLine word text)
    (hinside : text <:+: whole) : BeginsLine word whole :=
  h.imp fun _ hc => ⟨hc.1, hc.2.trans hinside⟩

theorem not_beginsLine (h : ∀ c ∈ text, lineBreak c = false) :
    ¬BeginsLine word text := by
  rintro ⟨c, hbreak, hinside⟩
  rw [h c (hinside.subset List.mem_cons_self)] at hbreak
  cases hbreak

theorem BeginsLine.of_append_cons {before after : Text} {d : Char}
    (h : BeginsLine word (before ++ d :: after)) (hbreak : lineBreak d = false) (hd : d ∉ word) :
    BeginsLine word before ∨ BeginsLine word after := by
  obtain ⟨c, hc, hinside⟩ := h
  have hmem : d ∉ c :: word := by
    rw [List.mem_cons, not_or]
    refine ⟨?_, hd⟩
    rintro rfl
    rw [hc] at hbreak
    cases hbreak
  exact (infix_of_append_cons hinside hmem).imp (fun h => ⟨c, hc, h⟩) fun h => ⟨c, hc, h⟩

theorem BeginsLine.of_append {before after : Text} (h : BeginsLine word (before ++ after))
    (hbefore : ∀ c ∈ before, lineBreak c = false) : BeginsLine word after := by
  obtain ⟨c, hc, hinside⟩ := h
  refine ⟨c, hc, infix_of_append hinside fun hmem => ?_⟩
  rw [hbefore c hmem] at hc
  cases hc

theorem BeginsLine.of_joinWith {sep : Char} (hbreak : lineBreak sep = false)
    (hsep : sep ∉ word) {parts : List Text} (h : BeginsLine word (joinWith sep parts)) :
    ∃ part ∈ parts, BeginsLine word part := by
  induction parts with
  | nil => exact absurd h (not_beginsLine (by simp [joinWith]))
  | cons part rest ih =>
      cases rest with
      | nil => exact ⟨part, List.mem_cons_self, h⟩
      | cons next more =>
          rcases h.of_append_cons hbreak hsep with hpart | hrest
          · exact ⟨part, List.mem_cons_self, hpart⟩
          · obtain ⟨other, hother, hbegins⟩ := ih hrest
            exact ⟨other, List.mem_cons_of_mem _ hother, hbegins⟩

theorem splitOnP_places (p : Char → Bool) (text : Text) :
    (∀ line ∈ (text.splitOnP p).head?, line <+: text) ∧
      ∀ line ∈ (text.splitOnP p).tail, ∃ c, p c = true ∧ c :: line <:+: text := by
  induction text with
  | nil => simp
  | cons d rest ih =>
      rw [List.splitOnP_cons_eq_if_modifyHead]
      cases hsplit : rest.splitOnP p with
      | nil => exact absurd hsplit (List.splitOnP_ne_nil _ rest)
      | cons first more =>
          rw [hsplit] at ih
          have hfirst : first <+: rest := ih.1 first rfl
          by_cases hd : p d = true
          · rw [if_pos hd]
            refine ⟨by simp, fun line hline => ?_⟩
            rcases List.mem_cons.mp hline with rfl | hmore
            · exact ⟨d, hd, (List.cons_prefix_cons.mpr ⟨rfl, hfirst⟩).isInfix⟩
            · obtain ⟨c, hc, hinside⟩ := ih.2 line hmore
              exact ⟨c, hc, List.infix_cons hinside⟩
          · rw [if_neg hd, List.modifyHead_cons]
            refine ⟨fun line hline => ?_, fun line hline => ?_⟩
            · cases hline
              exact List.cons_prefix_cons.mpr ⟨rfl, hfirst⟩
            · obtain ⟨c, hc, hinside⟩ := ih.2 line hline
              exact ⟨c, hc, List.infix_cons hinside⟩

theorem mem_of_mem_splitOnP (h : line ∈ text.splitOnP p)
    {c : Char} (hc : c ∈ line) : c ∈ text := by
  obtain ⟨hhead, htail⟩ := splitOnP_places p text
  cases hsplit : text.splitOnP p with
  | nil => rw [hsplit] at h; cases h
  | cons first more =>
      rw [hsplit] at h hhead htail
      rcases List.mem_cons.mp h with rfl | hmore
      · exact (hhead line rfl).mem hc
      · obtain ⟨_, _, hinside⟩ := htail line hmore
        exact hinside.mem (List.mem_cons_of_mem _ hc)

theorem mem_splitlines (h : line ∈ pyLines text) : line ∈ splitlines text := by
  unfold pyLines at h
  split at h
  · exact (List.dropLast_sublist _).mem h
  · exact h

theorem prefix_or_beginsLine (hline : line ∈ splitlines text)
    (hword : word <+: line) : word <+: text ∨ BeginsLine word text := by
  unfold splitlines at hline
  obtain ⟨hhead, htail⟩ := splitOnP_places lineBreak text
  cases hsplit : text.splitOnP lineBreak with
  | nil => rw [hsplit] at hline; cases hline
  | cons first more =>
      rw [hsplit] at hline hhead htail
      rcases List.mem_cons.mp hline with rfl | hmore
      · exact .inl (hword.trans (hhead line rfl))
      · obtain ⟨c, hc, hinside⟩ := htail line hmore
        have hprefix : c :: word <+: c :: line := List.cons_prefix_cons.mpr ⟨rfl, hword⟩
        exact .inr ⟨c, hc, hprefix.isInfix.trans hinside⟩

end Lines

theorem dropWhile_congr {q : Char → Bool} (h : ∀ c ∈ text, p c = q c) :
    text.dropWhile p = text.dropWhile q := by
  induction text with
  | nil => rfl
  | cons c rest ih =>
      rw [List.dropWhile_cons, List.dropWhile_cons, h c List.mem_cons_self,
        ih fun d hd => h d (List.mem_cons_of_mem _ hd)]

theorem splitOnP_congr {q : Char → Bool} (h : ∀ c ∈ text, p c = q c) :
    text.splitOnP p = text.splitOnP q := by
  induction text with
  | nil => rfl
  | cons c rest ih =>
      rw [List.splitOnP_cons_eq_if_modifyHead, List.splitOnP_cons_eq_if_modifyHead,
        h c List.mem_cons_self, ih fun d hd => h d (List.mem_cons_of_mem _ hd)]

theorem splitOnP_lines (hp : p '\n' = true)
    (h : ∀ line ∈ lines, ∀ c ∈ line, p c = false) :
    (lines.flatMap fun line => line ++ ['\n']).splitOnP p = lines ++ [[]] := by
  induction lines with
  | nil => rfl
  | cons line rest ih =>
      rw [List.flatMap_cons, List.append_assoc, List.singleton_append,
        List.splitOnP_append_cons_of_forall_mem (h line List.mem_cons_self) '\n' hp,
        ih fun other ho => h other (List.mem_cons_of_mem _ ho)]
      rfl

theorem splitOn_lines (h : ∀ line ∈ lines, '\n' ∉ line) :
    (lines.flatMap fun line => line ++ ['\n']).splitOn '\n' = lines ++ [[]] := by
  rw [List.splitOn_eq_splitOnP]
  refine splitOnP_lines (by decide) fun line hline c hc => ?_
  rw [beq_eq_false_iff_ne]
  rintro rfl
  exact h line hline hc

theorem pyLines_lines (h : ∀ line ∈ lines, ∀ c ∈ line, lineBreak c = false) :
    pyLines (lines.flatMap fun line => line ++ ['\n']) = lines := by
  unfold pyLines splitlines
  rw [splitOnP_lines (by decide) h, List.getLast?_concat, if_pos rfl, List.dropLast_concat]

section TextMode

attribute [local simp] universalNewlines

variable {word : Text}

theorem prefix_of_universalNewlines (hword : '\n' ∉ word)
    (h : word <+: universalNewlines text) : word <+: text := by
  cases word with
  | nil => exact List.nil_prefix
  | cons x more =>
      rw [List.mem_cons, not_or] at hword
      induction text using universalNewlines.induct generalizing x more with
      | case1 rest ih => exact absurd (List.cons_prefix_cons.mp h).1.symm hword.1
      | case2 rest hne ih =>
          rw [universalNewlines.eq_2 rest hne, List.cons_prefix_cons] at h
          exact absurd h.1.symm hword.1
      | case3 c rest hcrlf hcr ih =>
          rw [universalNewlines.eq_3 c rest hcrlf hcr, List.cons_prefix_cons] at h
          refine List.cons_prefix_cons.mpr ⟨h.1, ?_⟩
          cases more with
          | nil => exact List.nil_prefix
          | cons y others =>
              rw [List.mem_cons, not_or] at hword
              exact ih y others hword.2 h.2
      | case4 => exact h

theorem BeginsLine.of_universalNewlines (hword : '\n' ∉ word)
    (h : BeginsLine word (universalNewlines text)) : BeginsLine word text := by
  obtain ⟨c, hc, hinside⟩ := h
  induction text using universalNewlines.induct with
  | case1 rest ih =>
      rw [universalNewlines, List.infix_cons_iff, List.cons_prefix_cons] at hinside
      rcases hinside with ⟨-, hprefix⟩ | hinside
      · have hrest := prefix_of_universalNewlines hword hprefix
        have hline : '\n' :: word <+: '\n' :: rest := List.cons_prefix_cons.mpr ⟨rfl, hrest⟩
        exact ⟨'\n', by decide, List.infix_cons hline.isInfix⟩
      · exact (ih hinside).mono (List.infix_cons (List.infix_cons (List.infix_refl rest)))
  | case2 rest hne ih =>
      rw [universalNewlines.eq_2 rest hne, List.infix_cons_iff, List.cons_prefix_cons] at hinside
      rcases hinside with ⟨-, hprefix⟩ | hinside
      · have hrest := prefix_of_universalNewlines hword hprefix
        exact ⟨'\r', by decide, (List.cons_prefix_cons.mpr ⟨rfl, hrest⟩).isInfix⟩
      · exact (ih hinside).mono (List.infix_cons (List.infix_refl rest))
  | case3 d rest hcrlf hcr ih =>
      rw [universalNewlines.eq_3 d rest hcrlf hcr, List.infix_cons_iff,
        List.cons_prefix_cons] at hinside
      rcases hinside with ⟨rfl, hprefix⟩ | hinside
      · have hrest := prefix_of_universalNewlines hword hprefix
        exact ⟨c, hc, (List.cons_prefix_cons.mpr ⟨rfl, hrest⟩).isInfix⟩
      · exact (ih hinside).mono (List.infix_cons (List.infix_refl rest))
  | case4 => exact ⟨c, hc, hinside⟩

theorem universalNewlines_append_newline (before after : Text) :
    ∃ lines, universalNewlines (before ++ '\n' :: after) =
        lines ++ '\n' :: universalNewlines after ∧
      (lines = universalNewlines before ∨ lines ++ ['\n'] = universalNewlines before) := by
  induction before using universalNewlines.induct with
  | case1 rest ih =>
      obtain ⟨lines, heq, hlines⟩ := ih
      refine ⟨'\n' :: lines, ?_, ?_⟩
      · rw [List.cons_append, List.cons_append, universalNewlines, heq, List.cons_append]
      · simpa using hlines
  | case2 rest hne ih =>
      cases rest with
      | nil => exact ⟨[], by simp, .inr (by simp)⟩
      | cons d more =>
          obtain ⟨lines, heq, hlines⟩ := ih
          have hd : d ≠ '\n' := fun h => hne more (by rw [h])
          have hafter : ∀ tail, d :: (more ++ '\n' :: after) = '\n' :: tail → False :=
            fun tail h => hd (List.cons.inj h).1
          rw [List.cons_append] at heq
          refine ⟨'\n' :: lines, ?_, ?_⟩
          · rw [List.cons_append, List.cons_append, universalNewlines.eq_2 _ hafter, heq,
              List.cons_append]
          · rw [universalNewlines.eq_2 _ hne]
            simpa using hlines
  | case3 d rest hcrlf hcr ih =>
      obtain ⟨lines, heq, hlines⟩ := ih
      have hd : d ≠ '\r' := fun h => hcr h
      refine ⟨d :: lines, ?_, ?_⟩
      · rw [List.cons_append, universalNewlines.eq_3 d _ (fun tail h => absurd h hd) hd, heq,
          List.cons_append]
      · rw [universalNewlines.eq_3 d rest hcrlf hcr]
        simpa using hlines
  | case4 => exact ⟨[], rfl, .inl rfl⟩

end TextMode

end OpenvpnServer.Lib
