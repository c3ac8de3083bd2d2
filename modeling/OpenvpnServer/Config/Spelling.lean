import OpenvpnServer.Config.OptionName

-- The ways to write a word at the start of a configuration line.
namespace OpenvpnServer.Config

open OpenvpnServer.Lib

-- A backslash may stand before any character and must stand before some.
inductive Escaped (must : Char → Bool) : Text → Text → Prop where
  | nil : Escaped must [] []
  | bare {word text : Text} (c : Char) (h : must c = false) (rest : Escaped must word text) :
      Escaped must (c :: word) (c :: text)
  | escaped {word text : Text} (c : Char) (rest : Escaped must word text) :
      Escaped must (c :: word) ('\\' :: c :: text)

-- White space before the word, behind backslashes or not.
inductive Leading : Text → Prop where
  | nil : Leading []
  | bare {text : Text} (c : Char) (h : cSpace c = true) (rest : Leading text) : Leading (c :: text)
  | escaped {text : Text} (c : Char) (h : cSpace c = true) (rest : Leading text) :
      Leading ('\\' :: c :: text)

def inDouble (c : Char) : Bool := c = '"' || c = '\\'

def unquoted (c : Char) : Bool := c = '\\' || cSpace c

def unquotedFirst (c : Char) : Bool := unquoted c || c = '"' || c = '\''

inductive Quotes where
  | double
  | single
  | none
  deriving DecidableEq, Repr

inductive Spelling : Quotes → Text → Text → Text → Prop where
  | double {word text : Text} (h : Escaped inDouble word text) (tail : Text) :
      Spelling .double word ('"' :: text ++ ['"']) tail
  | single {word : Text} (h : '\'' ∉ word) (tail : Text) :
      Spelling .single word ('\'' :: word ++ ['\'']) tail
  | bare {word text tail : Text} (c : Char) (hfirst : unquotedFirst c = false)
      (hcomment : c ≠ ';' ∧ c ≠ '#') (h : Escaped unquoted word text)
      (htail : ∀ next ∈ tail.head?, cSpace next = true) :
      Spelling .none (c :: word) (c :: text) tail
  | escaped {word text tail : Text} (c : Char) (hcomment : c ≠ ';' ∧ c ≠ '#')
      (h : Escaped unquoted word text) (htail : ∀ next ∈ tail.head?, cSpace next = true) :
      Spelling .none (c :: word) ('\\' :: c :: text) tail

section Scan

variable {state : ParseState} {word text lead tail : Text}

theorem firstWord_leading (h : Leading lead) (rest : Text) :
    firstWord .start false (lead ++ rest) = firstWord .start false rest := by
  induction h with
  | nil => rfl
  | bare c hspace _ ih =>
      have hne : c ≠ '\\' := by
        rintro rfl
        exact absurd hspace (by decide)
      rw [List.cons_append, firstWord, if_neg (by simp [hne]), if_pos rfl, if_pos (by simp [hspace]),
        ih]
  | escaped c hspace _ ih =>
      rw [List.cons_append, List.cons_append, firstWord, if_pos (by decide), firstWord,
        if_neg (by simp), if_pos rfl, if_pos (by simp [hspace]), ih]

theorem firstWord_escape (hstart : state ≠ .start) (hsingle : state ≠ .single) {c : Char}
    (hnul : c ≠ '\x00') (rest : Text) :
    firstWord state false ('\\' :: c :: rest) = c :: firstWord state false rest := by
  have hopen : state.closes true c = false := by
    cases state with
    | start => rfl
    | plain => simp [ParseState.closes]
    | double => simp [ParseState.closes]
    | single => exact absurd rfl hsingle
  rw [firstWord, if_pos ⟨rfl, rfl, hsingle⟩, firstWord, if_neg (by simp), if_neg hstart,
    if_neg (by simp [hopen]), if_pos hnul]

theorem firstWord_bare (hstart : state ≠ .start) {c : Char} (hslash : c ≠ '\\' ∨ state = .single)
    (hnul : c ≠ '\x00') (hopen : state.closes false c = false) (rest : Text) :
    firstWord state false (c :: rest) = c :: firstWord state false rest := by
  have hplain : ¬(c = '\\' ∧ false = false ∧ state ≠ .single) := by
    rintro ⟨hc, -, hs⟩
    exact hslash.elim (fun h => h hc) fun h => hs h
  rw [firstWord, if_neg hplain, if_neg hstart, if_neg (by simp [hopen]), if_pos hnul]

theorem firstWord_escaped {must : Char → Bool} (hstart : state ≠ .start) (hsingle : state ≠ .single)
    (hmust : ∀ c, must c = false → c ≠ '\\' ∧ (c ≠ '\x00' → state.closes false c = false))
    (h : Escaped must word text) (hnul : '\x00' ∉ word) (rest : Text) :
    firstWord state false (text ++ rest) = word ++ firstWord state false rest := by
  induction h with
  | nil => rfl
  | bare c hbare _ ih =>
      rw [List.mem_cons, not_or] at hnul
      have hne := Ne.symm hnul.1
      rw [List.cons_append, firstWord_bare hstart (.inl (hmust c hbare).1) hne
        ((hmust c hbare).2 hne), ih hnul.2, List.cons_append]
  | escaped c _ ih =>
      rw [List.mem_cons, not_or] at hnul
      rw [List.cons_append, List.cons_append, firstWord_escape hstart hsingle (Ne.symm hnul.1),
        ih hnul.2, List.cons_append]

theorem firstWord_double (h : Escaped inDouble word text) (hnul : '\x00' ∉ word) (rest : Text) :
    firstWord .start false ('"' :: text ++ '"' :: rest) = word := by
  have hmust (c : Char) (hc : inDouble c = false) :
      c ≠ '\\' ∧ (c ≠ '\x00' → ParseState.double.closes false c = false) := by
    simp only [inDouble, Bool.or_eq_false_iff, decide_eq_false_iff_not] at hc
    exact ⟨hc.2, fun _ => by simp [ParseState.closes, hc.1]⟩
  have hclose : firstWord .double false ('"' :: rest) = [] := by
    rw [firstWord, if_neg (by decide), if_neg (by decide), if_pos (by decide)]
  rw [List.cons_append, firstWord, if_neg (by decide), if_pos rfl, if_neg (by decide),
    if_neg (by decide), if_pos ⟨rfl, rfl⟩, firstWord_escaped (by decide) (by decide) hmust h hnul,
    hclose, List.append_nil]

theorem firstWord_single (h : '\'' ∉ word) (hnul : '\x00' ∉ word) (rest : Text) :
    firstWord .start false ('\'' :: word ++ '\'' :: rest) = word := by
  have hinside : ∀ word : Text, '\'' ∉ word → '\x00' ∉ word →
      firstWord .single false (word ++ '\'' :: rest) = word := by
    intro word hquote hnul
    induction word with
    | nil =>
        rw [List.nil_append, firstWord, if_neg (by decide), if_neg (by decide), if_pos (by decide)]
    | cons c word ih =>
        rw [List.mem_cons, not_or] at hquote hnul
        have hopen : ParseState.single.closes false c = false := by
          simpa [ParseState.closes] using Ne.symm hquote.1
        rw [List.cons_append, firstWord_bare (by decide) (.inr rfl) (Ne.symm hnul.1) hopen,
          ih hquote.2 hnul.2]
  rw [List.cons_append, firstWord, if_neg (by decide), if_pos rfl, if_neg (by decide),
    if_neg (by decide), if_neg (by decide), if_pos ⟨rfl, rfl⟩, hinside word h hnul]

theorem firstWord_tail (htail : ∀ next ∈ tail.head?, cSpace next = true) :
    firstWord .plain false (tail ++ ['\x00']) = [] := by
  cases tail with
  | nil => decide
  | cons next rest =>
      have hspace := htail next rfl
      have hne : next ≠ '\\' := by
        rintro rfl
        exact absurd hspace (by decide)
      rw [List.cons_append, firstWord, if_neg (by simp [hne]), if_neg (by decide),
        if_pos (by simp [ParseState.closes, hspace])]

theorem firstWord_unquoted (h : Escaped unquoted word text) (hnul : '\x00' ∉ word)
    (htail : ∀ next ∈ tail.head?, cSpace next = true) :
    firstWord .plain false (text ++ (tail ++ ['\x00'])) = word := by
  have hmust (c : Char) (hc : unquoted c = false) :
      c ≠ '\\' ∧ (c ≠ '\x00' → ParseState.plain.closes false c = false) := by
    simp only [unquoted, Bool.or_eq_false_iff, decide_eq_false_iff_not] at hc
    exact ⟨hc.1, fun hne => by simp [ParseState.closes, hc.2, hne]⟩
  rw [firstWord_escaped (by decide) (by decide) hmust h hnul, firstWord_tail htail, List.append_nil]

theorem firstWord_first {backslash : Bool} {c : Char} (hslash : c = '\\' → backslash = true)
    (hspace : cSpace c = false) (hnul : c ≠ '\x00') (hcomment : c ≠ ';' ∧ c ≠ '#')
    (hquote : (c = '"' ∨ c = '\'') → backslash = true) (rest : Text) :
    firstWord .start backslash (c :: rest) = c :: firstWord .plain false rest := by
  have hescape : ¬(c = '\\' ∧ backslash = false ∧ ParseState.start ≠ .single) := by
    rintro ⟨hc, hfalse, -⟩
    rw [hslash hc] at hfalse
    exact absurd hfalse (by decide)
  have hopen (quote : Char) (hmem : quote = '"' ∨ quote = '\'') :
      ¬(c = quote ∧ backslash = false) := by
    rintro ⟨rfl, hfalse⟩
    rw [hquote hmem] at hfalse
    exact absurd hfalse (by decide)
  rw [firstWord, if_neg hescape, if_pos rfl, if_neg (by simp [hspace, hnul]),
    if_neg (by simp [hcomment]), if_neg (hopen '"' (.inl rfl)), if_neg (hopen '\'' (.inr rfl))]

-- Every spelling of a word is read back, unless an unquoted word begins with white
-- space: that belongs to what comes before the word.
theorem firstWord_spelling {quotes : Quotes} (h : Spelling quotes word text tail)
    (hnul : '\x00' ∉ word) (hblank : quotes = .none → ∀ c ∈ word.head?, cSpace c = false) :
    firstWord .start false (text ++ (tail ++ ['\x00'])) = word := by
  cases h with
  | double h =>
      rw [List.append_assoc, List.singleton_append]
      exact firstWord_double h hnul _
  | single h =>
      rw [List.append_assoc, List.singleton_append]
      exact firstWord_single h hnul _
  | bare c hfirst hcomment h htail =>
      rw [List.mem_cons, not_or] at hnul
      simp only [unquotedFirst, unquoted, Bool.or_eq_false_iff, decide_eq_false_iff_not] at hfirst
      rw [List.cons_append, firstWord_first (fun hc => absurd hc hfirst.1.1.1) hfirst.1.1.2
        (Ne.symm hnul.1) hcomment (fun hq => absurd hq (not_or.mpr ⟨hfirst.1.2, hfirst.2⟩)),
        firstWord_unquoted h hnul.2 htail]
  | escaped c hcomment h htail =>
      rw [List.mem_cons, not_or] at hnul
      rw [List.cons_append, List.cons_append, firstWord, if_pos (by decide),
        firstWord_first (fun _ => rfl) (hblank rfl c rfl) (Ne.symm hnul.1) hcomment (fun _ => rfl),
        firstWord_unquoted h hnul.2 htail]

end Scan

theorem option_name_of_spelling {quotes : Quotes} {lead word text tail : Text}
    (hlead : Leading lead) (h : Spelling quotes word text tail) (hnul : '\x00' ∉ word)
    (hblank : quotes = .none → ∀ c ∈ word.head?, cSpace c = false) :
    optionName (lead ++ text ++ tail) = dropBrackets (dropDashes word) := by
  rw [optionName, List.append_assoc, List.append_assoc, firstWord_leading hlead,
    firstWord_spelling h hnul hblank]

theorem escaped_up_spelling :
    optionName ("\t\\ <\\u\\p> # x".toList) = "up".toList := by
  have hlead : Leading "\t\\ ".toList := .bare '\t' (by decide) (.escaped ' ' (by decide) .nil)
  have hword : Spelling .none "<up>".toList "<\\u\\p>".toList " # x".toList :=
    .bare '<' (by decide) (by decide) (.escaped 'u' (.escaped 'p' (.bare '>' (by decide) .nil)))
      (fun next hnext => by cases hnext; decide)
  exact option_name_of_spelling hlead hword (by decide) (fun _ c hc => by cases hc; decide)

theorem escaped_blank_skipped :
    Spelling .none " up".toList "\\ up".toList [] ∧ '\x00' ∉ " up".toList ∧
      optionName "\\ up".toList = "up".toList ∧
      dropBrackets (dropDashes " up".toList) = " up".toList ∧
      optionName ([] ++ "\\ up".toList ++ []) ≠ dropBrackets (dropDashes " up".toList) := by
  refine ⟨?_, by decide, by decide, by decide, by decide⟩
  exact .escaped ' ' (by decide) (.bare 'u' (by decide) (.bare 'p' (by decide) .nil))
    (fun next hnext => by cases hnext)

end OpenvpnServer.Config
