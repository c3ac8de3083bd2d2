import OpenvpnServer.Lib.Text

namespace OpenvpnServer.Lib

-- What text mode does to a file's line ends.
def universalNewlines : Text → Text
  | '\r' :: '\n' :: rest => '\n' :: universalNewlines rest
  | '\r' :: rest => '\n' :: universalNewlines rest
  | c :: rest => c :: universalNewlines rest
  | [] => []

-- The white space of `str.strip` and of \s in a pattern for texts.
def pySpace (c : Char) : Bool :=
  (9 ≤ c.toNat && c.toNat ≤ 13) || (28 ≤ c.toNat && c.toNat ≤ 32) ||
    (8192 ≤ c.toNat && c.toNat ≤ 8202) ||
    c.toNat ∈ [133, 160, 5760, 8232, 8233, 8239, 8287, 12288]

def pyStrip (text : Text) : Text := (text.rdropWhile pySpace).dropWhile pySpace

theorem mem_dropWhile_of_not {α : Type*} {p : α → Bool} {x : α} (hx : p x = false) {l : List α} :
    x ∈ l.dropWhile p ↔ x ∈ l := by
  constructor
  · exact fun h => (List.dropWhile_sublist p).mem h
  · intro h
    rw [← List.takeWhile_append_dropWhile (p := p) (l := l), List.mem_append] at h
    rcases h with htake | hdrop
    · rw [List.mem_takeWhile_imp htake] at hx
      cases hx
    · exact hdrop

theorem mem_pyStrip {c : Char} (hc : pySpace c = false) {text : Text} :
    c ∈ pyStrip text ↔ c ∈ text := by
  unfold pyStrip List.rdropWhile
  rw [mem_dropWhile_of_not hc, List.mem_reverse, mem_dropWhile_of_not hc, List.mem_reverse]

-- The characters `str.splitlines` ends a line at.
def lineBreak (c : Char) : Bool :=
  (10 ≤ c.toNat && c.toNat ≤ 13) || (28 ≤ c.toNat && c.toNat ≤ 30) ||
    c.toNat ∈ [133, 8232, 8233]

-- `str.splitlines` on a text without carriage returns, such as text mode gives.
-- The source drops an empty last line, which none of the readers looks at.
def splitlines (text : Text) : List Text := text.splitOnP lineBreak

-- All of `str.splitlines`, for a function that keeps every line.
def pyLines (text : Text) : List Text :=
  if (splitlines text).getLast? = some [] then (splitlines text).dropLast else splitlines text

-- `sep.join(parts)`
def joinWith (sep : Char) : List Text → Text
  | [] => []
  | [part] => part
  | part :: rest => part ++ sep :: joinWith sep rest

-- `list(dict.fromkeys(values))`
def fromKeys {α : Type*} [DecidableEq α] : List α → List α
  | [] => []
  | x :: rest => x :: (fromKeys rest).filter (· ≠ x)

section FromKeys

variable {α β : Type*} [DecidableEq α] [DecidableEq β]

attribute [local simp] fromKeys

theorem mem_fromKeys {x : α} {l : List α} : x ∈ fromKeys l ↔ x ∈ l := by
  induction l with
  | nil => rfl
  | cons first rest ih =>
      rw [fromKeys, List.mem_cons, List.mem_filter, ih, List.mem_cons]
      by_cases hx : x = first
      · simp [hx]
      · simp [hx]

theorem length_fromKeys_le (l : List α) : (fromKeys l).length ≤ l.length := by
  induction l with
  | nil => exact Nat.le_refl _
  | cons first rest ih =>
      have hfilter := List.length_filter_le (· ≠ first) (fromKeys rest)
      rw [fromKeys, List.length_cons, List.length_cons]
      omega

theorem nodup_fromKeys (l : List α) : (fromKeys l).Nodup := by
  induction l with
  | nil => exact List.nodup_nil
  | cons first rest ih =>
      rw [fromKeys, List.nodup_cons]
      exact ⟨by simp, ih.filter _⟩

theorem fromKeys_of_nodup {l : List α} (h : l.Nodup) : fromKeys l = l := by
  induction l with
  | nil => rfl
  | cons first rest ih =>
      rw [List.nodup_cons] at h
      rw [fromKeys, ih h.2, List.filter_eq_self.mpr]
      intro x hx
      rw [decide_eq_true_eq]
      rintro rfl
      exact h.1 hx

theorem fromKeys_map {f : α → β} {l : List α} (h : ∀ x ∈ l, ∀ y ∈ l, f x = f y → x = y) :
    fromKeys (l.map f) = (fromKeys l).map f := by
  induction l with
  | nil => rfl
  | cons first rest ih =>
      have hrest : ∀ x ∈ rest, ∀ y ∈ rest, f x = f y → x = y := fun x hx y hy =>
        h x (List.mem_cons_of_mem _ hx) y (List.mem_cons_of_mem _ hy)
      have hsame : ∀ x ∈ fromKeys rest, decide (f x ≠ f first) = decide (x ≠ first) := by
        intro x hx
        have hmem := List.mem_cons_of_mem first (mem_fromKeys.mp hx)
        have hiff : f x ≠ f first ↔ x ≠ first :=
          not_congr ⟨h x hmem first List.mem_cons_self, fun he => by rw [he]⟩
        exact decide_eq_decide.mpr hiff
      rw [List.map_cons, fromKeys, ih hrest, List.filter_map, fromKeys, List.map_cons]
      exact congrArg _ (congrArg _ (List.filter_congr hsame))

end FromKeys

section Join

theorem joinWith_cons_cons (sep : Char) (part next : Text) (rest : List Text) :
    joinWith sep (part :: next :: rest) = part ++ sep :: joinWith sep (next :: rest) := rfl

theorem splitOnP_joinWith {p : Char → Bool} {sep : Char} (hsep : p sep = true) {parts : List Text}
    (hne : parts ≠ []) (h : ∀ part ∈ parts, ∀ c ∈ part, p c = false) :
    (joinWith sep parts).splitOnP p = parts := by
  induction parts with
  | nil => exact absurd rfl hne
  | cons first rest ih =>
      have hfirst := h first List.mem_cons_self
      cases rest with
      | nil => exact List.splitOnP_eq_singleton hfirst
      | cons next more =>
          rw [joinWith_cons_cons, List.splitOnP_append_cons_of_forall_mem hfirst sep hsep,
            ih (List.cons_ne_nil _ _) fun part hp => h part (List.mem_cons_of_mem _ hp)]

theorem exists_mem_splitOnP {p : Char → Bool} {c : Char} (hc : p c = false) {text : Text}
    (h : c ∈ text) : ∃ part ∈ text.splitOnP p, c ∈ part := by
  induction text with
  | nil => cases h
  | cons d rest ih =>
      rw [List.splitOnP_cons_eq_if_modifyHead]
      by_cases hd : p d = true
      · rw [if_pos hd]
        rcases List.mem_cons.mp h with rfl | hrest
        · rw [hc] at hd
          cases hd
        · obtain ⟨part, hpart, hmem⟩ := ih hrest
          exact ⟨part, List.mem_cons_of_mem _ hpart, hmem⟩
      · rw [if_neg hd]
        cases hsplit : rest.splitOnP p with
        | nil => exact absurd hsplit (List.splitOnP_ne_nil p rest)
        | cons first more =>
            rw [List.modifyHead_cons]
            rcases List.mem_cons.mp h with rfl | hrest
            · exact ⟨c :: first, List.mem_cons_self, List.mem_cons_self⟩
            · obtain ⟨part, hpart, hmem⟩ := ih hrest
              rw [hsplit, List.mem_cons] at hpart
              rcases hpart with rfl | hmore
              · exact ⟨d :: part, List.mem_cons_self, List.mem_cons_of_mem _ hmem⟩
              · exact ⟨part, List.mem_cons_of_mem _ hmore, hmem⟩

theorem not_of_mem_splitOnP {p : Char → Bool} {text part : Text} (h : part ∈ text.splitOnP p) :
    ∀ c ∈ part, p c = false := by
  induction text generalizing part with
  | nil =>
      rw [List.splitOnP_nil, List.mem_singleton] at h
      simp [h]
  | cons d rest ih =>
      rw [List.splitOnP_cons_eq_if_modifyHead] at h
      by_cases hd : p d = true
      · rw [if_pos hd, List.mem_cons] at h
        rcases h with rfl | hrest
        · simp
        · exact ih hrest
      · rw [if_neg hd] at h
        cases hsplit : rest.splitOnP p with
        | nil => exact absurd hsplit (List.splitOnP_ne_nil p rest)
        | cons first more =>
            rw [hsplit, List.modifyHead_cons, List.mem_cons] at h
            rcases h with rfl | hmore
            · intro c hc
              rcases List.mem_cons.mp hc with rfl | hfirst
              · simpa using hd
              · exact ih (by rw [hsplit]; exact List.mem_cons_self) c hfirst
            · exact ih (by rw [hsplit]; exact List.mem_cons_of_mem _ hmore)

end Join

end OpenvpnServer.Lib
