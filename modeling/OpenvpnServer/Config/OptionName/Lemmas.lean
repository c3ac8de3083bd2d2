import OpenvpnServer.Config.OptionName

namespace OpenvpnServer.Config

open OpenvpnServer.Lib

theorem cSpace_ascii (c : Char) (h : cSpace c = true) : c.toNat < 128 := by
  simp only [cSpace, List.mem_cons, List.not_mem_nil, or_false, decide_eq_true_eq] at h
  rcases h with rfl | rfl | rfl | rfl | rfl | rfl <;> decide

theorem rstrip_octets (line : Text) : rstrip (octets line) = octets (rstrip line) :=
  rdropWhile_octets cSpace_ascii line

theorem strip_octets (line : Text) : strip (octets line) = octets (strip line) := by
  unfold strip
  rw [rstrip_octets, dropWhile_octets cSpace_ascii]

section Octets

attribute [local simp] firstWord

def ParseState.opened : ParseState → ParseState
  | .start => .plain
  | state => state

theorem firstWord_cons_not_ascii {c : Char} (h : 128 ≤ c.toNat) (state : ParseState)
    (backslash : Bool) (rest : Text) :
    firstWord state backslash (c :: rest) = c :: firstWord state.opened false rest := by
  have hne : ∀ d : Char, d.toNat < 128 → c ≠ d := by
    rintro d hd rfl
    omega
  have hspace : cSpace c = false := by
    rw [← Bool.not_eq_true]
    intro hs
    have := cSpace_ascii c hs
    omega
  have hnul := hne '\x00' (by decide)
  have hbackslash := hne '\\' (by decide)
  have hdouble := hne '"' (by decide)
  have hsingle := hne '\'' (by decide)
  have hsemicolon := hne ';' (by decide)
  have hhash := hne '#' (by decide)
  cases state <;>
    simp [ParseState.opened, ParseState.closes, hspace, hnul, hbackslash, hdouble,
      hsingle, hsemicolon, hhash]

theorem firstWord_append_not_ascii {bytes : Text} (h : ∀ c ∈ bytes, 128 ≤ c.toNat)
    (hne : bytes ≠ []) (state : ParseState) (backslash : Bool) (rest : Text) :
    firstWord state backslash (bytes ++ rest) = bytes ++ firstWord state.opened false rest := by
  induction bytes generalizing state backslash with
  | nil => exact absurd rfl hne
  | cons c more ih =>
      rw [List.cons_append, firstWord_cons_not_ascii (h c List.mem_cons_self)]
      by_cases hmore : more = []
      · rw [hmore, List.nil_append, List.cons_append, List.nil_append]
      · rw [ih (fun d hd => h d (List.mem_cons_of_mem _ hd)) hmore]
        cases state <;> rfl

theorem firstWord_octets (state : ParseState) (backslash : Bool) (text : Text) :
    firstWord state backslash (octets text) = octets (firstWord state backslash text) := by
  induction text generalizing state backslash with
  | nil => rfl
  | cons c rest ih =>
      by_cases hc : c.toNat < 128
      · rw [octets_cons_ascii hc]
        unfold firstWord
        repeat' split
        all_goals first
          | rfl
          | exact ih _ _
          | rw [ih, octets_cons_ascii hc]
      · have hge := Nat.le_of_not_lt hc
        rw [octets_cons, firstWord_append_not_ascii (fun d hd => octets_singleton_not_ascii hge hd)
          (octets_singleton_ne_nil c), firstWord_cons_not_ascii hge, ih, ← octets_append]
        rfl

theorem dropDashes_octets (word : Text) : dropDashes (octets word) = octets (dropDashes word) := by
  have hdash : ('-' : Char).toNat < 128 := by decide
  by_cases hword : ∃ rest, word = '-' :: '-' :: rest
  · obtain ⟨rest, rfl⟩ := hword
    rw [octets_cons_ascii hdash, octets_cons_ascii hdash]
    by_cases hrest : rest = []
    · subst hrest
      rfl
    · have hlen : 0 < rest.length := List.length_pos_of_ne_nil hrest
      have hlen' : 0 < (octets rest).length :=
        List.length_pos_of_ne_nil (fun h => hrest (octets_eq_nil_iff.mp h))
      unfold dropDashes
      rw [if_pos ⟨by simp only [List.length_cons]; omega, rfl⟩,
        if_pos ⟨by simp only [List.length_cons]; omega, rfl⟩]
      rfl
  · have hleft : ¬['-', '-'].isPrefixOf word = true := by
      rw [List.isPrefixOf_iff_prefix]
      rintro ⟨rest, hrest⟩
      exact hword ⟨rest, hrest.symm⟩
    have hright : ¬['-', '-'].isPrefixOf (octets word) = true := by
      rw [List.isPrefixOf_iff_prefix]
      rintro ⟨rest, hrest⟩
      obtain ⟨after, rfl, hafter⟩ := octets_eq_cons_ascii hdash hrest.symm
      obtain ⟨more, rfl, -⟩ := octets_eq_cons_ascii hdash hafter.symm
      exact hword ⟨more, rfl⟩
    unfold dropDashes
    rw [if_neg (fun h => hright h.2), if_neg (fun h => hleft h.2)]

theorem dropBrackets_of_not {word : Text} (h : ¬∃ inner, word = '<' :: inner ++ ['>']) :
    dropBrackets word = word := by
  unfold dropBrackets
  rw [if_neg]
  rintro ⟨hhead, hlast⟩
  obtain ⟨rest, rfl⟩ := List.head?_eq_some_iff.mp hhead
  obtain ⟨inner, hinner⟩ := List.getLast?_eq_some_iff.mp hlast
  cases inner with
  | nil => simp at hinner
  | cons c inner =>
      obtain ⟨rfl, rfl⟩ := List.cons.inj hinner
      exact h ⟨inner, rfl⟩

theorem dropBrackets_bracketed (inner : Text) : dropBrackets ('<' :: inner ++ ['>']) = inner := by
  unfold dropBrackets
  rw [if_pos ⟨rfl, List.getLast?_concat⟩]
  simp

theorem dropBrackets_octets (word : Text) :
    dropBrackets (octets word) = octets (dropBrackets word) := by
  have hopen : ('<' : Char).toNat < 128 := by decide
  have hclose : ('>' : Char).toNat < 128 := by decide
  by_cases hword : ∃ inner, word = '<' :: inner ++ ['>']
  · obtain ⟨inner, rfl⟩ := hword
    rw [octets_append, octets_cons_ascii hopen, octets_singleton_ascii hclose,
      dropBrackets_bracketed, dropBrackets_bracketed]
  · rw [dropBrackets_of_not hword, dropBrackets_of_not]
    rintro ⟨inner, hinner⟩
    obtain ⟨before, rfl, hbefore⟩ := octets_eq_concat_ascii hclose hinner
    obtain ⟨after, rfl, -⟩ := octets_eq_cons_ascii hopen hbefore.symm
    exact hword ⟨after, rfl⟩

theorem optionName_octets (line : Text) : optionName (octets line) = octets (optionName line) := by
  have hnul : octets line ++ ['\x00'] = octets (line ++ ['\x00']) := by
    rw [octets_append, octets_singleton_ascii (by decide)]
  unfold optionName
  rw [hnul, firstWord_octets, dropDashes_octets, dropBrackets_octets]

theorem privileged_ascii : ∀ name ∈ privileged, ∀ c ∈ name, c.toNat < 128 := by
  have hall : ∀ name ∈ privileged, (name.all fun c => decide (c.toNat < 128)) = true := by
    decide +kernel
  intro name hname
  exact List.all_iff_forall_prop.mp (hall name hname)

theorem privileged_of_octets {word : Text} (h : octets word ∈ privileged) : word ∈ privileged := by
  have hself := octets_ascii (privileged_ascii _ h)
  rwa [octets_injective hself] at h

end Octets

section Whitespace

theorem firstWord_start_dropWhile (text : Text) :
    firstWord .start false (text.dropWhile cSpace ++ ['\x00']) =
      firstWord .start false (text ++ ['\x00']) := by
  induction text with
  | nil => rfl
  | cons c rest ih =>
      by_cases hc : cSpace c = true
      · have hbackslash : c ≠ '\\' := by
          rintro rfl
          exact absurd hc (by decide)
        rw [List.dropWhile_cons_of_pos hc, ih, List.cons_append]
        simp [firstWord, hc, hbackslash]
      · rw [List.dropWhile_cons_of_neg hc]

theorem firstWord_append_space {space : Text} (hspace : ∀ c ∈ space, cSpace c = true)
    (state : ParseState) (backslash : Bool) :
    firstWord state backslash (space ++ ['\x00']) = [] ∨
      ∃ word c, cSpace c = true ∧ firstWord state backslash (space ++ ['\x00']) = word ++ [c] := by
  induction space generalizing state backslash with
  | nil =>
      left
      cases state <;> cases backslash <;> decide
  | cons c rest ih =>
      have hc := hspace c List.mem_cons_self
      have hrest := ih fun d hd => hspace d (List.mem_cons_of_mem _ hd)
      have hne : ∀ d : Char, cSpace d = false → c ≠ d := by
        rintro d hd rfl
        simp [hc] at hd
      have hbackslash := hne '\\' (by decide)
      have hnul := hne '\x00' (by decide)
      have hcons : ∀ state, firstWord state backslash (c :: rest ++ ['\x00']) =
            c :: firstWord state false (rest ++ ['\x00']) →
          ∃ word d, cSpace d = true ∧
            firstWord state backslash (c :: rest ++ ['\x00']) = word ++ [d] := by
        intro state hword
        rcases hrest state false with hnil | ⟨word, d, hd, hword'⟩
        · exact ⟨[], c, hc, by rw [hword, hnil]; rfl⟩
        · exact ⟨c :: word, d, hd, by rw [hword, hword']; rfl⟩
      cases state with
      | start =>
          have hskip : firstWord .start backslash (c :: rest ++ ['\x00']) =
              firstWord .start false (rest ++ ['\x00']) := by
            simp [firstWord, hc, hbackslash]
          rw [hskip]
          exact hrest .start false
      | plain =>
          cases backslash with
          | false =>
              left
              simp [firstWord, ParseState.closes, hc, hbackslash]
          | true =>
              right
              apply hcons
              simp [firstWord, ParseState.closes, hbackslash, hnul]
      | double =>
          right
          apply hcons
          simp [firstWord, ParseState.closes, hbackslash, hnul, hne '"' (by decide)]
      | single =>
          right
          apply hcons
          simp [firstWord, ParseState.closes, hbackslash, hnul, hne '\'' (by decide)]

theorem firstWord_nul (state : ParseState) (backslash : Bool) :
    firstWord state backslash ['\x00'] = [] := by
  cases state <;> cases backslash <;> decide

theorem firstWord_append_space_or {space : Text} (hspace : ∀ c ∈ space, cSpace c = true)
    (line : Text) (state : ParseState) (backslash : Bool) :
    firstWord state backslash (line ++ space ++ ['\x00']) =
        firstWord state backslash (line ++ ['\x00']) ∨
      ∃ word c, cSpace c = true ∧
        firstWord state backslash (line ++ space ++ ['\x00']) = word ++ [c] := by
  induction line generalizing state backslash with
  | nil =>
      rw [List.nil_append, List.nil_append, firstWord_nul]
      exact firstWord_append_space hspace state backslash
  | cons c rest ih =>
      have hcons : ∀ state,
          c :: firstWord state false (rest ++ space ++ ['\x00']) =
            c :: firstWord state false (rest ++ ['\x00']) ∨
          ∃ word d, cSpace d = true ∧
            c :: firstWord state false (rest ++ space ++ ['\x00']) = word ++ [d] := by
        intro state
        rcases ih state false with hsame | ⟨word, d, hd, hword⟩
        · exact .inl (by rw [hsame])
        · exact .inr ⟨c :: word, d, hd, by rw [hword]; rfl⟩
      simp only [List.cons_append]
      unfold firstWord
      repeat' split
      all_goals first
        | exact ih _ _
        | exact hcons _
        | exact .inl rfl

theorem privileged_no_space : ∀ name ∈ privileged, ∀ c ∈ name, cSpace c = false := by
  have hall : ∀ name ∈ privileged, (name.all fun c => decide (cSpace c = false)) = true := by
    decide +kernel
  intro name hname
  exact List.all_iff_forall_prop.mp (hall name hname)

theorem dropBrackets_dropDashes_concat (word : Text) {c : Char} (h : c ≠ '>') :
    ∃ start, dropBrackets (dropDashes (word ++ [c])) = start ++ [c] := by
  obtain ⟨start, hstart⟩ : ∃ start, dropDashes (word ++ [c]) = start ++ [c] := by
    unfold dropDashes
    split
    · rename_i hdashes
      rw [List.length_append, List.length_singleton] at hdashes
      exact ⟨word.drop 2, List.drop_append_of_le_length (by omega)⟩
    · exact ⟨word, rfl⟩
  refine ⟨start, ?_⟩
  rw [hstart, dropBrackets_of_not]
  rintro ⟨inner, hinner⟩
  exact h (List.singleton_inj.mp (List.append_inj' hinner rfl).2)

theorem optionName_strip {line : Text} (h : optionName line ∈ privileged) :
    optionName (strip line) ∈ privileged := by
  have hspace : ∀ c ∈ line.rtakeWhile cSpace, cSpace c = true := fun c hc =>
    List.mem_rtakeWhile_imp hc
  have hline : line = rstrip line ++ line.rtakeWhile cSpace :=
    List.rdropWhile_append_rtakeWhile.symm
  have hstrip : firstWord .start false (strip line ++ ['\x00']) =
      firstWord .start false (rstrip line ++ ['\x00']) :=
    firstWord_start_dropWhile (rstrip line)
  rcases firstWord_append_space_or hspace (rstrip line) .start false with hsame |
    ⟨word, c, hc, hword⟩
  · unfold optionName at h ⊢
    rwa [hstrip, ← hsame, ← hline]
  · -- a name that ends with white space is no option's
    have hbracket : c ≠ '>' := by
      rintro rfl
      exact absurd hc (by decide)
    obtain ⟨start, hstart⟩ := dropBrackets_dropDashes_concat word hbracket
    unfold optionName at h
    rw [hline, hword, hstart] at h
    have hno := privileged_no_space _ h c (List.mem_append_right _ List.mem_cons_self)
    rw [hc] at hno
    cases hno

end Whitespace

theorem optionName_cons_not_ascii {c : Char} (hc : 128 ≤ c.toNat) (rest : Text) :
    optionName (c :: rest) ∉ privileged := by
  have hdash : c ≠ '-' := by
    rintro rfl
    exact absurd hc (by decide)
  have hopen : c ≠ '<' := by
    rintro rfl
    exact absurd hc (by decide)
  unfold optionName
  rw [List.cons_append, firstWord_cons_not_ascii hc]
  have hdashes : ∀ word, dropDashes (c :: word) = c :: word := by
    intro word
    unfold dropDashes
    rw [if_neg]
    rintro ⟨-, hpre⟩
    rw [List.isPrefixOf_iff_prefix] at hpre
    exact hdash (List.cons_prefix_cons.mp hpre).1.symm
  rw [hdashes, dropBrackets_of_not]
  · intro h
    have hlt := privileged_ascii _ h c List.mem_cons_self
    omega
  · rintro ⟨inner, hinner⟩
    exact hopen (List.cons.inj hinner).1

end OpenvpnServer.Config
