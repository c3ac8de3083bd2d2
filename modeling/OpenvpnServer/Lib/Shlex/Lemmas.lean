import OpenvpnServer.Lib.Python
import OpenvpnServer.Lib.Shlex

namespace OpenvpnServer.Lib

section Shlex

-- Its equations, before the lemmas that rewrite with them.
attribute [local simp] shlexWords

variable {comments : Bool}

def shlexPlain (c : Char) : Bool := !shlexSpace c && c ≠ '#' && c ≠ '\\' && !shlexQuote c

theorem shlexPlain_iff {c : Char} : shlexPlain c = true ↔
    shlexSpace c = false ∧ c ≠ '#' ∧ c ≠ '\\' ∧ shlexQuote c = false := by
  simp [shlexPlain, and_assoc]

theorem shlexWords_spaces {spaces : Text} (h : ∀ c ∈ spaces, shlexSpace c = true) (token rest : Text) :
    shlexWords comments .blank token (spaces ++ rest) =
      shlexWords comments .blank (if spaces = [] then token else []) rest := by
  induction spaces generalizing token with
  | nil => rfl
  | cons c more ih =>
      rw [List.cons_append, shlexWords, if_pos (h c List.mem_cons_self),
        ih fun d hd => h d (List.mem_cons_of_mem _ hd), if_neg (List.cons_ne_nil c more), ite_self]

theorem shlexWords_word {word : Text} (h : ∀ c ∈ word, shlexPlain c = true) (token rest : Text) :
    shlexWords comments .word token (word ++ rest) =
      shlexWords comments .word (token ++ word) rest := by
  induction word generalizing token with
  | nil => rw [List.nil_append, List.append_nil]
  | cons c more ih =>
      obtain ⟨hspace, hhash, hback, hquote⟩ := shlexPlain_iff.mp (h c List.mem_cons_self)
      rw [List.cons_append, shlexWords, if_neg (by simp [hspace]), if_neg (by simp [hhash]),
        if_neg (by simp [hquote]), if_neg hback, ih fun d hd => h d (List.mem_cons_of_mem _ hd),
        List.append_assoc, List.singleton_append]

theorem shlexSplit_word {word : Text} (hne : word ≠ []) (h : ∀ c ∈ word, shlexPlain c = true)
    {blank : Char} (hblank : shlexSpace blank = true) (rest : Text) :
    shlexSplit comments (word ++ blank :: rest) =
      (shlexSplit comments rest).map (word :: ·) := by
  cases word with
  | nil => exact absurd rfl hne
  | cons c more =>
      obtain ⟨hspace, hhash, hback, hquote⟩ := shlexPlain_iff.mp (h c List.mem_cons_self)
      unfold shlexSplit
      rw [List.cons_append, shlexWords, if_neg (by simp [hspace]), if_neg (by simp [hhash]),
        if_neg hback, if_neg (by simp [hquote]),
        shlexWords_word fun d hd => h d (List.mem_cons_of_mem _ hd), shlexWords, if_pos hblank,
        List.singleton_append]

theorem shlexSplit_last {word : Text} (hne : word ≠ []) (h : ∀ c ∈ word, shlexPlain c = true) :
    shlexSplit comments word = some [word] := by
  cases word with
  | nil => exact absurd rfl hne
  | cons c more =>
      obtain ⟨hspace, hhash, hback, hquote⟩ := shlexPlain_iff.mp (h c List.mem_cons_self)
      have hmore : shlexWords comments .word [c] (more ++ []) = _ :=
        shlexWords_word (fun d hd => h d (List.mem_cons_of_mem _ hd)) [c] []
      rw [List.append_nil] at hmore
      unfold shlexSplit
      rw [shlexWords, if_neg (by simp [hspace]), if_neg (by simp [hhash]), if_neg hback,
        if_neg (by simp [hquote]), hmore, shlexWords, List.singleton_append]

theorem shlexSplit_joinWith {words : List Text}
    (h : ∀ word ∈ words, word ≠ [] ∧ ∀ c ∈ word, shlexPlain c = true) :
    shlexSplit comments (joinWith ' ' words) = some words := by
  induction words with
  | nil => rfl
  | cons word rest ih =>
      obtain ⟨hne, hplain⟩ := h word List.mem_cons_self
      cases rest with
      | nil => exact shlexSplit_last hne hplain
      | cons next more =>
          have hrest := ih fun other ho => h other (List.mem_cons_of_mem _ ho)
          change shlexSplit comments (word ++ ' ' :: joinWith ' ' (next :: more)) = _
          rw [shlexSplit_word hne hplain (by decide), hrest]
          rfl

theorem shlexSplit_spaces {spaces : Text} (h : ∀ c ∈ spaces, shlexSpace c = true) (rest : Text) :
    shlexSplit comments (spaces ++ rest) = shlexSplit comments rest := by
  unfold shlexSplit
  rw [shlexWords_spaces h, ite_self]

theorem shlexWords_quoted {content : Text} (h : ∀ c ∈ content, c ≠ '"' ∧ c ≠ '\\')
    (token rest : Text) :
    shlexWords comments (.quoted '"') token (content ++ rest) =
      shlexWords comments (.quoted '"') (token ++ content) rest := by
  induction content generalizing token with
  | nil => rw [List.nil_append, List.append_nil]
  | cons c more ih =>
      obtain ⟨hquote, hback⟩ := h c List.mem_cons_self
      rw [List.cons_append, shlexWords, if_neg hquote, if_neg (by simp [hback]),
        ih fun d hd => h d (List.mem_cons_of_mem _ hd), List.append_assoc, List.singleton_append]

theorem shlexSplit_quoted {word content : Text} (hne : word ≠ [])
    (hword : ∀ c ∈ word, shlexPlain c = true) (hcontent : ∀ c ∈ content, c ≠ '"' ∧ c ≠ '\\') :
    shlexSplit comments (word ++ ' ' :: '"' :: (content ++ ['"'])) = some [word, content] := by
  have hquoted : shlexSplit comments ('"' :: (content ++ ['"'])) = some [content] := by
    unfold shlexSplit
    rw [shlexWords, if_neg (by decide), if_neg (by simp), if_neg (by decide),
      if_pos (by decide), shlexWords_quoted hcontent, List.nil_append, shlexWords, if_pos rfl,
      shlexWords]
  rw [shlexSplit_word hne hword (by decide), hquoted]
  rfl

theorem prefix_of_shlexWords {text token : Text} {state : ShlexState} {words : List Text}
    (hstate : state ≠ .blank ∧ state ≠ .comment)
    (h : shlexWords comments state token text = some words) :
    ∃ word rest, words = word :: rest ∧ token <+: word := by
  induction text generalizing state token words with
  | nil =>
      cases state with
      | blank => exact absurd rfl hstate.1
      | comment => exact absurd rfl hstate.2
      | word =>
          rw [shlexWords, Option.some.injEq] at h
          exact ⟨token, [], h.symm, List.prefix_refl _⟩
      | quoted quote => cases h
      | escaped quote => cases h
  | cons c more ih =>
      have hgrow : ∀ {next : ShlexState} {extra : Text}, next ≠ .blank ∧ next ≠ .comment →
          shlexWords comments next (token ++ extra) more = some words →
          ∃ word rest, words = word :: rest ∧ token <+: word := by
        intro next extra hnext hmore
        obtain ⟨word, rest, hwords, hprefix⟩ := ih hnext hmore
        exact ⟨word, rest, hwords, (List.prefix_append token extra).trans hprefix⟩
      have hsame : ∀ {next : ShlexState}, next ≠ .blank ∧ next ≠ .comment →
          shlexWords comments next token more = some words →
          ∃ word rest, words = word :: rest ∧ token <+: word := fun hnext hmore => ih hnext hmore
      have hdone : ∀ {next : ShlexState},
          (shlexWords comments next [] more).map (token :: ·) = some words →
          ∃ word rest, words = word :: rest ∧ token <+: word := by
        intro next hmore
        obtain ⟨rest, -, hrest⟩ := Option.map_eq_some_iff.mp hmore
        exact ⟨token, rest, hrest.symm, List.prefix_refl _⟩
      cases state with
      | blank => exact absurd rfl hstate.1
      | comment => exact absurd rfl hstate.2
      | word =>
          rw [shlexWords] at h
          split at h
          · exact hdone h
          split at h
          · exact hdone h
          split at h
          · exact hsame (by simp) h
          split at h
          · exact hsame (by simp) h
          · exact hgrow (by simp) h
      | quoted quote =>
          rw [shlexWords] at h
          split at h
          · exact hsame (by simp) h
          split at h
          · exact hsame (by simp) h
          · exact hgrow (by simp) h
      | escaped quote =>
          cases quote with
          | none =>
              rw [shlexWords] at h
              exact hgrow (by simp) h
          | some quote =>
              rw [shlexWords] at h
              split at h
              · exact hgrow (by simp) h
              · rw [List.append_assoc] at h
                exact hgrow (by simp) h

end Shlex

end OpenvpnServer.Lib
