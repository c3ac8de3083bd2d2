import OpenvpnServer.Lib.Lines
import OpenvpnServer.Lib.Text

-- Lines that end in a separator, sent as one stream and read from a buffer into which the
-- stream arrives in pieces.
namespace OpenvpnServer.Lib

variable {α : Type*}

section Search

variable [BEq α] [LawfulBEq α]

def cutAfter (word : List α) : List α → Option (List α)
  | [] => if word.isPrefixOf [] then some [] else none
  | c :: rest =>
      if word.isPrefixOf (c :: rest) then some ((c :: rest).drop word.length)
      else cutAfter word rest

theorem infix_of_cutAfter {word text rest : List α} (h : cutAfter word text = some rest) :
    word <:+: text := by
  induction text with
  | nil =>
      unfold cutAfter at h
      split at h
      · rename_i hprefix
        exact (List.isPrefixOf_iff_prefix.mp hprefix).isInfix
      · cases h
  | cons c text ih =>
      unfold cutAfter at h
      split at h
      · rename_i hprefix
        exact (List.isPrefixOf_iff_prefix.mp hprefix).isInfix
      · exact List.infix_cons (ih h)

theorem cutAfter_self (word : List α) : cutAfter word word = some [] := by
  have hprefix : word.isPrefixOf word = true :=
    List.isPrefixOf_iff_prefix.mpr (List.prefix_refl word)
  cases word with
  | nil => rfl
  | cons c word =>
      unfold cutAfter
      rw [if_pos hprefix, List.drop_length]

theorem eq_nil_of_cutAfter {word buf wire rest : List α} (hall : buf ++ wire = word)
    (h : cutAfter word buf = some rest) : rest = [] ∧ buf = word ∧ wire = [] := by
  have hlength := (infix_of_cutAfter h).length_le
  have htotal := congrArg List.length hall
  rw [List.length_append] at htotal
  have hwire : wire = [] := List.eq_nil_of_length_eq_zero (by omega)
  rw [hwire, List.append_nil] at hall
  rw [hall, cutAfter_self, Option.some.injEq] at h
  exact ⟨h.symm, hall, hwire⟩

end Search

section Wire

variable {sep : α}

def wireLines (sep : α) (lines : List (List α)) : List α := lines.flatMap fun line => line ++ [sep]

theorem wireLines_cons (line : List α) (lines : List (List α)) :
    wireLines sep (line :: lines) = line ++ sep :: wireLines sep lines := by
  simp [wireLines]

theorem wireLines_append (lines more : List (List α)) :
    wireLines sep (lines ++ more) = wireLines sep lines ++ wireLines sep more := by
  simp [wireLines]

structure Carries (sep : α) (lines : List (List α)) (tail stream : List α) : Prop where
  stream_eq : stream = wireLines sep lines ++ tail
  lines_plain : ∀ line ∈ lines, sep ∉ line
  tail_plain : sep ∉ tail

variable {lines : List (List α)} {tail stream buf wire line rest : List α}

theorem Carries.of_plain (h : sep ∉ tail) : Carries sep [] tail tail :=
  ⟨rfl, fun _ hline => absurd hline List.not_mem_nil, h⟩

theorem Carries.write (h : Carries sep lines [] stream) (hline : sep ∉ line) :
    Carries sep (lines ++ [line]) [] (stream ++ (line ++ [sep])) := by
  refine ⟨?_, fun other hother => ?_, h.tail_plain⟩
  · rw [h.stream_eq, wireLines_append, List.append_nil, List.append_nil]
    simp [wireLines]
  · rcases List.mem_append.mp hother with hold | hnew
    · exact h.lines_plain other hold
    · rw [List.mem_singleton.mp hnew]
      exact hline

theorem Carries.finish (h : Carries sep lines tail stream) (hline : sep ∉ line) :
    Carries sep (lines ++ [tail ++ line]) [] (stream ++ (line ++ [sep])) := by
  refine ⟨?_, fun other hother => ?_, List.not_mem_nil⟩
  · rw [h.stream_eq, wireLines_append]
    simp [wireLines]
  · rcases List.mem_append.mp hother with hold | hnew
    · exact h.lines_plain other hold
    · rw [List.mem_singleton.mp hnew, List.mem_append, not_or]
      exact ⟨h.tail_plain, hline⟩

theorem Carries.start (h : Carries sep lines [] stream) {head : List α} (hhead : sep ∉ head) :
    Carries sep lines head (stream ++ head) := by
  refine ⟨?_, h.lines_plain, hhead⟩
  rw [h.stream_eq, List.append_nil]

theorem Carries.cut [BEq α] [LawfulBEq α] (h : Carries sep lines tail (buf ++ wire))
    (hcut : cutFirst sep buf = some (line, rest)) :
    ∃ more, lines = line :: more ∧ Carries sep more tail (rest ++ wire) := by
  obtain ⟨hline, hbuf⟩ := cutFirst_eq_some hcut
  have hstream := h.stream_eq
  rw [hbuf, List.append_assoc, List.cons_append] at hstream
  cases lines with
  | nil =>
      have hmem : sep ∈ tail := by
        rw [show tail = _ from hstream.symm]
        simp
      exact absurd hmem h.tail_plain
  | cons first more =>
      have hfirst := h.lines_plain first List.mem_cons_self
      rw [wireLines_cons, List.append_assoc, List.cons_append] at hstream
      have hparts := cutFirst_append_cons hline (rest ++ wire)
      rw [hstream, cutFirst_append_cons hfirst, Option.some.injEq, Prod.mk.injEq] at hparts
      refine ⟨more, by rw [hparts.1], hparts.2.symm, fun other hother => ?_, h.tail_plain⟩
      exact h.lines_plain other (List.mem_cons_of_mem _ hother)

theorem Carries.mem_of_infix (h : Carries sep lines [] stream) {word : List α} (hne : word ≠ [])
    (hword : sep ∉ word) (hinside : word <:+: stream) : ∃ line ∈ lines, word <:+: line := by
  have hstream := h.stream_eq
  rw [List.append_nil] at hstream
  rw [hstream] at hinside
  clear h hstream
  induction lines with
  | nil => exact absurd (List.infix_nil.mp hinside) hne
  | cons first more ih =>
      rw [wireLines_cons] at hinside
      rcases infix_of_append_cons hinside hword with hfirst | hmore
      · exact ⟨first, List.mem_cons_self, hfirst⟩
      · obtain ⟨line, hline, hin⟩ := ih hmore
        exact ⟨line, List.mem_cons_of_mem _ hline, hin⟩

end Wire

end OpenvpnServer.Lib
