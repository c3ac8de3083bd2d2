import OpenvpnServer.Lib.Python

-- Texts read word by word, and `re.findall` in mode re.M for patterns that start with ^.
namespace OpenvpnServer.Lib

variable {rest text word : Text} {start : Bool}

section FindAll

variable {α : Type}

-- A pattern gives its match at the start of a text and what follows it. The first `skip`
-- characters belong to the match before, and ^ matches here if `start` is set.
def findAllFrom (pattern : Text → Option (α × Text)) : Nat → Bool → Text → List α
  | _, _, [] => []
  | skip + 1, _, c :: rest => findAllFrom pattern skip (c = '\n') rest
  | 0, false, c :: rest => findAllFrom pattern 0 (c = '\n') rest
  | 0, true, c :: rest =>
      match pattern (c :: rest) with
      | none => findAllFrom pattern 0 (c = '\n') rest
      | some (found, after) =>
          found :: findAllFrom pattern (rest.length - after.length) (c = '\n') rest

def findAllLines (pattern : Text → Option (α × Text)) (text : Text) : List α :=
  findAllFrom pattern 0 true text

variable {pattern : Text → Option (α × Text)}

theorem findAllFrom_skip {line : Text} (h : '\n' ∉ line) (rest : Text) :
    findAllFrom pattern line.length false (line ++ '\n' :: rest) = findAllLines pattern rest := by
  induction line with
  | nil => rfl
  | cons c more ih =>
      rw [List.mem_cons, not_or] at h
      have hc : decide (c = '\n') = false := decide_eq_false (Ne.symm h.1)
      rw [List.length_cons, List.cons_append, findAllFrom, hc, ih h.2]

theorem findAllLines_line {line : Text} {found : α} (hne : line ≠ []) (h : '\n' ∉ line)
    (hmatch : pattern (line ++ '\n' :: rest) = some (found, '\n' :: rest)) :
    findAllLines pattern (line ++ '\n' :: rest) = found :: findAllLines pattern rest := by
  cases line with
  | nil => exact absurd rfl hne
  | cons c more =>
      rw [List.mem_cons, not_or] at h
      have hc : decide (c = '\n') = false := decide_eq_false (Ne.symm h.1)
      have hskip : (more ++ '\n' :: rest).length - ('\n' :: rest).length = more.length := by
        rw [List.length_append, Nat.add_sub_cancel]
      rw [List.cons_append] at hmatch
      rw [List.cons_append, findAllLines, findAllFrom, hmatch]
      dsimp only
      rw [hskip, hc, findAllFrom_skip h.2]

-- What follows `text` changes no match that starts a line of it.
def Settled (pattern : Text → Option (α × Text)) (start : Bool) (text more : Text) : Prop :=
  ∀ before after, text = before ++ after → after ≠ [] → (before = [] → start = true) →
    (before ≠ [] → before.getLast? = some '\n') →
    pattern (after ++ more) = (pattern after).map fun found => (found.1, found.2 ++ more)

theorem Settled.tail {c : Char} {more : Text}
    (h : Settled pattern start (c :: text) more) : Settled pattern (c = '\n') text more := by
  intro before after htext hne hstart hlast
  refine h (c :: before) after (by rw [htext, List.cons_append]) hne (fun hnil => by cases hnil) ?_
  intro _
  by_cases hbefore : before = []
  · rw [hbefore, List.getLast?_singleton]
    exact congrArg some (of_decide_eq_true (hstart hbefore))
  · obtain ⟨front, hfront⟩ := List.getLast?_eq_some_iff.mp (hlast hbefore)
    rw [hfront, ← List.cons_append, List.getLast?_concat]

theorem findAllFrom_append {more : Text} {skip : Nat}
    (hsettled : Settled pattern start text more)
    (hshort : ∀ after found rest, pattern after = some (found, rest) → rest.length < after.length)
    (hskip : skip ≤ text.length) (hstart : text = [] → start = true)
    (hlast : text ≠ [] → text.getLast? = some '\n') :
    findAllFrom pattern skip start (text ++ more) =
      findAllFrom pattern skip start text ++ findAllLines pattern more := by
  induction text generalizing skip start with
  | nil =>
      have hzero : skip = 0 := Nat.le_zero.mp hskip
      rw [hzero, hstart rfl]
      cases more <;> rfl
  | cons c rest ih =>
      have hrest {skip : Nat} (hskip : skip ≤ rest.length) :=
        ih hsettled.tail hskip (fun hnil => by
          have hc := hlast (List.cons_ne_nil c rest)
          rw [hnil, List.getLast?_singleton] at hc
          exact decide_eq_true (Option.some.inj hc)) (fun hne => by
          have hc := hlast (List.cons_ne_nil c rest)
          rwa [List.getLast?_cons_of_ne_nil hne] at hc)
      cases skip with
      | succ skip =>
          rw [List.cons_append, findAllFrom, findAllFrom, hrest (Nat.le_of_succ_le_succ hskip)]
      | zero =>
          cases start with
          | false => rw [List.cons_append, findAllFrom, findAllFrom, hrest (Nat.zero_le _)]
          | true =>
              have hsame := hsettled [] (c :: rest) rfl (List.cons_ne_nil _ _) (fun _ => rfl)
                (fun hne => absurd rfl hne)
              rw [List.cons_append] at hsame
              rw [List.cons_append, findAllFrom, findAllFrom, hsame]
              cases hpattern : pattern (c :: rest) with
              | none => exact hrest (Nat.zero_le _)
              | some found =>
                  have hlen := hshort _ found.1 found.2 hpattern
                  have hdrop : (rest ++ more).length - (found.2 ++ more).length =
                      rest.length - found.2.length := by
                    rw [List.length_append, List.length_append]
                    omega
                  simp only [Option.map_some, hdrop, List.cons_append]
                  rw [hrest (Nat.sub_le _ _)]

end FindAll

section Words

-- \s*(\S+) and what follows
def nextWord (text : Text) : Option (Text × Text) :=
  let text := text.dropWhile pySpace
  if text = [] then none
  else some (text.takeWhile (! pySpace ·), text.dropWhile (! pySpace ·))

def Blank (text : Text) : Prop := ∀ c ∈ text, pySpace c = true

def IsWord (word : Text) : Prop := word ≠ [] ∧ ∀ c ∈ word, pySpace c = false

theorem nextWord_blank (h : Blank text) (more : Text) :
    nextWord (text ++ more) = nextWord more := by
  unfold nextWord
  rw [List.dropWhile_append_of_pos h]

theorem nextWord_of_blank (h : Blank text) : nextWord text = none := by
  unfold nextWord
  rw [List.dropWhile_eq_nil_iff.mpr h]
  rfl

theorem nextWord_word (hword : IsWord word)
    (hrest : ∀ c ∈ rest.head?, pySpace c = true) :
    nextWord (word ++ rest) = some (word, rest) := by
  obtain ⟨c, more, rfl⟩ := List.exists_cons_of_ne_nil hword.1
  have hdrop : (c :: more ++ rest).dropWhile pySpace = c :: more ++ rest :=
    List.dropWhile_cons_of_neg (by simp [hword.2 c List.mem_cons_self])
  have hall : ∀ d ∈ c :: more, (! pySpace d) = true := fun d hd => by simp [hword.2 d hd]
  obtain ⟨htake, hrest⟩ := span_append hall fun d hd => by simp [hrest d hd]
  unfold nextWord
  rw [hdrop, if_neg (by simp), htake, hrest]

theorem getLast?_dropWhile {p : Char → Bool} (h : text.dropWhile p ≠ []) :
    (text.dropWhile p).getLast? = text.getLast? := by
  conv_rhs => rw [← List.takeWhile_append_dropWhile (p := p) (l := text),
    List.getLast?_append_of_ne_nil _ h]

def EndsWith (word text : Text) : Prop :=
  ∃ front blanks, text = front ++ word ++ blanks ∧ blanks ≠ [] ∧ Blank blanks ∧
    (front = [] ∨ ∃ c, front.getLast? = some c ∧ pySpace c = true)

theorem EndsWith.nextWord {last : Text} (hlast : IsWord last) (h : EndsWith last text) :
    ∃ word rest, (∀ more, Lib.nextWord (text ++ more) = some (word, rest ++ more)) ∧
      (∃ c after, rest = c :: after ∧ pySpace c = true) ∧
      (EndsWith last rest ∨ word = last ∧ Blank rest) := by
  obtain ⟨front, blanks, rfl, hne, hblanks, hfront⟩ := h
  obtain ⟨blank, after, rfl⟩ := List.exists_cons_of_ne_nil hne
  by_cases hall : Blank front
  · refine ⟨last, blank :: after, fun more => ?_,
      ⟨blank, after, rfl, hblanks blank List.mem_cons_self⟩, .inr ⟨rfl, hblanks⟩⟩
    rw [List.append_assoc, List.append_assoc, nextWord_blank hall]
    exact nextWord_word hlast fun c hc => by
      cases hc
      exact hblanks blank List.mem_cons_self
  · -- the front has a word, and white space behind it
    have hword : front.dropWhile pySpace ≠ [] := fun hnil =>
      hall (List.dropWhile_eq_nil_iff.mp hnil)
    obtain ⟨c, hc, hspace⟩ : ∃ c, front.getLast? = some c ∧ pySpace c = true :=
      hfront.resolve_left fun hnil => hword (by rw [hnil, List.dropWhile_nil])
    have hafter : (front.dropWhile pySpace).dropWhile (! pySpace ·) ≠ [] := by
      intro hnil
      have hmem := List.mem_of_getLast? ((getLast?_dropWhile hword).trans hc)
      have hnot := List.dropWhile_eq_nil_iff.mp hnil c hmem
      simp [hspace] at hnot
    obtain ⟨e, rest, he⟩ := List.exists_cons_of_ne_nil hafter
    have hhead : pySpace e = true := by
      have hhead := List.head_dropWhile_not (! pySpace ·) hafter
      simp only [he, List.head_cons] at hhead
      simpa using hhead
    have hlastSpace : (e :: rest).getLast? = some c := by
      rw [← he, getLast?_dropWhile hafter, getLast?_dropWhile hword, hc]
    refine ⟨(front.dropWhile pySpace).takeWhile (! pySpace ·), e :: rest ++ last ++ blank :: after,
      fun more => ?_, ⟨e, rest ++ last ++ blank :: after, rfl, hhead⟩,
      .inl ⟨e :: rest, blank :: after, rfl, hne, hblanks, .inr ⟨c, hlastSpace, hspace⟩⟩⟩
    have hfront : front ++ last ++ blank :: after ++ more = front.takeWhile pySpace ++
        ((front.dropWhile pySpace).takeWhile (! pySpace ·) ++
          (e :: rest ++ last ++ blank :: after ++ more)) := by
      rw [← he]
      simp only [← List.append_assoc, List.takeWhile_append_dropWhile]
    have hisWord : IsWord ((front.dropWhile pySpace).takeWhile (! pySpace ·)) := by
      refine ⟨fun hnil => ?_, fun d hd => by simpa using List.mem_takeWhile_imp hd⟩
      obtain ⟨d, tail, hd⟩ := List.exists_cons_of_ne_nil hword
      have hnot := List.head_dropWhile_not pySpace hword
      simp only [hd, List.head_cons] at hnot
      rw [hd, List.takeWhile_cons_of_pos (by simp [hnot])] at hnil
      cases hnil
    rw [hfront, nextWord_blank fun d hd => List.mem_takeWhile_imp hd]
    refine nextWord_word hisWord fun d hd => ?_
    cases hd
    exact hhead

-- \s+(\S+) and what follows
def spacedWord (text : Text) : Option (Text × Text) :=
  if text.head?.any pySpace then nextWord text else none

theorem spacedWord_cons {c : Char} (h : pySpace c = true) (text : Text) :
    spacedWord (c :: text) = nextWord (c :: text) := by
  unfold spacedWord
  rw [List.head?_cons, Option.any_some, if_pos h]

theorem length_nextWord (h : nextWord text = some (word, rest)) :
    0 < word.length ∧ word.length + rest.length ≤ text.length := by
  unfold nextWord at h
  dsimp only at h
  split at h
  · cases h
  · rename_i hne
    cases h
    obtain ⟨c, tail, hcons⟩ := List.exists_cons_of_ne_nil hne
    have hnot := List.head_dropWhile_not pySpace hne
    simp only [hcons, List.head_cons] at hnot
    have hlen : (text.dropWhile pySpace).length ≤ text.length :=
      (List.dropWhile_sublist pySpace).length_le
    refine ⟨?_, ?_⟩
    · rw [hcons, List.takeWhile_cons_of_pos (by simp [hnot]), List.length_cons]
      exact Nat.succ_pos _
    · rw [← List.length_append, List.takeWhile_append_dropWhile]
      exact hlen

theorem pySpace_of_nextWord (h : nextWord text = some (word, rest)) :
    ∀ c ∈ word, pySpace c = false := by
  unfold nextWord at h
  dsimp only at h
  split at h
  · cases h
  · cases h
    intro c hc
    simpa using List.mem_takeWhile_imp hc

theorem nextWord_of_spacedWord (h : spacedWord text = some (word, rest)) :
    nextWord text = some (word, rest) := by
  unfold spacedWord at h
  split at h
  · exact h
  · cases h

theorem length_spacedWord (h : spacedWord text = some (word, rest)) :
    0 < word.length ∧ word.length + rest.length ≤ text.length :=
  length_nextWord (nextWord_of_spacedWord h)

theorem mem_findAllFrom {α : Type} {pattern : Text → Option (α × Text)} {skip : Nat}
    {found : α} (h : found ∈ findAllFrom pattern skip start text) :
    ∃ here after, pattern here = some (found, after) := by
  fun_induction findAllFrom pattern skip start text with
  | case1 => cases h
  | case2 skip start c rest ih => exact ih h
  | case3 c rest ih => exact ih h
  | case4 c rest _ ih => exact ih h
  | case5 c rest first after hmatch ih =>
      rcases List.mem_cons.mp h with rfl | hmem
      · exact ⟨c :: rest, after, hmatch⟩
      · exact ih hmem

end Words

end OpenvpnServer.Lib
