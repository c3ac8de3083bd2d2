import OpenvpnServer.Lib.Python
import OpenvpnServer.Lib.Utf8

-- `bytes.decode("utf-8", "replace")` and `str.splitlines`, and that both may be done
-- piece by piece where the pieces end at a newline.
namespace OpenvpnServer.Lib

variable {state : Option Utf8Partial} {byte : Nat} {c : Char} {text : Text}

section Decode

-- A character that is not complete: how many bytes are missing, which ones may come
-- next, and the bits so far.
structure Utf8Partial where
  missing : Nat
  low : Nat
  high : Nat
  code : Nat
  deriving DecidableEq, Repr

def replacement : Char := Char.ofNat 0xFFFD

def utf8First (byte : Nat) : Text × Option Utf8Partial :=
  if byte < 0x80 then ([Char.ofNat byte], none)
  else if 0xC2 ≤ byte ∧ byte ≤ 0xDF then ([], some ⟨1, 0x80, 0xBF, byte - 0xC0⟩)
  else if byte = 0xE0 then ([], some ⟨2, 0xA0, 0xBF, 0⟩)
  else if byte = 0xED then ([], some ⟨2, 0x80, 0x9F, 0xD⟩)
  else if 0xE1 ≤ byte ∧ byte ≤ 0xEF then ([], some ⟨2, 0x80, 0xBF, byte - 0xE0⟩)
  else if byte = 0xF0 then ([], some ⟨3, 0x90, 0xBF, 0⟩)
  else if byte = 0xF4 then ([], some ⟨3, 0x80, 0x8F, 4⟩)
  else if 0xF1 ≤ byte ∧ byte ≤ 0xF3 then ([], some ⟨3, 0x80, 0xBF, byte - 0xF0⟩)
  else ([replacement], none)

-- A byte that cannot continue the character replaces what there was of it, and
-- starts the next.
def utf8Next (state : Option Utf8Partial) (byte : Nat) : Text × Option Utf8Partial :=
  match state with
  | none => utf8First byte
  | some p =>
      if p.low ≤ byte ∧ byte ≤ p.high then
        let code := p.code * 64 + (byte - 0x80)
        if p.missing = 1 then ([Char.ofNat code], none)
        else ([], some ⟨p.missing - 1, 0x80, 0xBF, code⟩)
      else (replacement :: (utf8First byte).1, (utf8First byte).2)

def utf8ReplaceFrom (state : Option Utf8Partial) : List UInt8 → Text
  | [] => if state = none then [] else [replacement]
  | byte :: rest =>
      (utf8Next state byte.toNat).1 ++ utf8ReplaceFrom (utf8Next state byte.toNat).2 rest

def utf8Replace (bytes : List UInt8) : Text := utf8ReplaceFrom none bytes

example : utf8Replace [0xC3, 0xA9, 0xE2, 0x82, 0x41, 0xFF, 0xED, 0xA0, 0x80] =
    [Char.ofNat 0xE9, replacement, 'A', replacement, replacement, replacement, replacement] := by
  decide

def Utf8Sound (state : Option Utf8Partial) : Prop := ∀ p ∈ state, 0x80 ≤ p.low

theorem utf8First_sound (byte : Nat) : Utf8Sound (utf8First byte).2 := by
  unfold utf8First
  repeat' split
  all_goals
    intro p hp
    cases hp
  all_goals simp

theorem utf8Next_sound (h : Utf8Sound state) (byte : Nat) :
    Utf8Sound (utf8Next state byte).2 := by
  unfold utf8Next
  split
  · exact utf8First_sound byte
  · split
    · split
      · intro p hp
        cases hp
      · intro p hp
        cases hp
        exact Nat.le_refl _
    · exact utf8First_sound byte

theorem utf8Next_ascii (h : Utf8Sound state)
    (hbyte : byte < 128) :
    utf8Next state byte =
      ((if state = none then [] else [replacement]) ++ [Char.ofNat byte], none) := by
  have hfirst : utf8First byte = ([Char.ofNat byte], none) := by
    unfold utf8First
    rw [if_pos hbyte]
  cases state with
  | none => exact hfirst
  | some p =>
      have hlow := h p rfl
      have hout : ¬(p.low ≤ byte ∧ byte ≤ p.high) := by omega
      simp only [utf8Next, if_neg hout, hfirst]
      rfl

theorem utf8ReplaceFrom_ascii (h : Utf8Sound state)
    (before after : List UInt8) {byte : UInt8} (hbyte : byte.toNat < 128) :
    utf8ReplaceFrom state (before ++ byte :: after) =
      utf8ReplaceFrom state before ++ Char.ofNat byte.toNat :: utf8Replace after := by
  induction before generalizing state with
  | nil =>
      simp only [List.nil_append, utf8ReplaceFrom, utf8Next_ascii h hbyte, List.append_assoc]
      rfl
  | cons first rest ih =>
      rw [List.cons_append, utf8ReplaceFrom, ih (utf8Next_sound h _), utf8ReplaceFrom,
        List.append_assoc]

theorem utf8ReplaceFrom_append (h : Utf8Sound state)
    (before after : List UInt8) :
    utf8ReplaceFrom state (before ++ 10 :: after) =
      utf8ReplaceFrom state (before ++ [10]) ++ utf8Replace after := by
  have hten : (10 : UInt8).toNat < 128 := by decide
  rw [utf8ReplaceFrom_ascii h before after hten, utf8ReplaceFrom_ascii h before [] hten,
    List.append_assoc]
  rfl

theorem getLast?_utf8ReplaceFrom (h : Utf8Sound state)
    (before : List UInt8) :
    (utf8ReplaceFrom state (before ++ [10])).getLast? = some '\n' := by
  rw [utf8ReplaceFrom_ascii h before [] (by decide), List.getLast?_append]
  rfl

theorem utf8Sound_none : Utf8Sound none := fun p hp => by cases hp

theorem utf8_cons_ascii (hc : c.toNat < 128) (rest : Text) :
    utf8 (c :: rest) = UInt8.ofNat c.toNat :: utf8 rest := by
  have hle : c.val.toNat ≤ 127 := Nat.le_of_lt_succ hc
  have hencode : String.utf8EncodeChar c = [UInt8.ofNat c.toNat] := by
    rw [String.utf8EncodeChar]
    exact if_pos hle
  rw [utf8, List.flatMap_cons, hencode]
  rfl

theorem utf8Replace_append_cons (hc : c.toNat < 128) (before : List UInt8)
    (rest : Text) (after : List UInt8) :
    utf8Replace (before ++ (utf8 (c :: rest) ++ after)) =
      utf8Replace before ++ c :: utf8Replace (utf8 rest ++ after) := by
  have hnat : (UInt8.ofNat c.toNat).toNat = c.toNat := by
    rw [UInt8.toNat_ofNat']
    omega
  have hstart := utf8ReplaceFrom_ascii utf8Sound_none before (utf8 rest ++ after)
    (show (UInt8.ofNat c.toNat).toNat < 128 by omega)
  rw [hnat, Char.ofNat_toNat] at hstart
  rw [utf8_cons_ascii hc]
  exact hstart

theorem utf8Replace_utf8_append (htext : ∀ c ∈ text, c.toNat < 128)
    (after : List UInt8) : utf8Replace (utf8 text ++ after) = text ++ utf8Replace after := by
  induction text with
  | nil => rfl
  | cons c rest ih =>
      have hcons := utf8Replace_append_cons (htext c List.mem_cons_self) [] rest after
      rw [List.nil_append, ih fun d hd => htext d (List.mem_cons_of_mem _ hd)] at hcons
      exact hcons

theorem utf8Replace_append_utf8 (htext : ∀ c ∈ text, c.toNat < 128)
    (before : List UInt8) : utf8Replace (before ++ utf8 text) = utf8Replace before ++ text := by
  cases text with
  | nil => simp [utf8]
  | cons c rest =>
      have hcons := utf8Replace_append_cons (htext c List.mem_cons_self) before rest []
      rw [utf8Replace_utf8_append fun d hd => htext d (List.mem_cons_of_mem _ hd)] at hcons
      simpa [utf8Replace, utf8ReplaceFrom] using hcons

def Utf8Long (state : Option Utf8Partial) : Prop :=
  ∀ p ∈ state, 2 ≤ p.code * 64 + (p.low - 0x80) ∧ (p.missing = 1 → 2 ≤ p.code)

theorem utf8First_long (byte : Nat) : Utf8Long (utf8First byte).2 := by
  unfold utf8First
  repeat' split
  all_goals
    intro p hp
    cases hp
  all_goals
    dsimp only
    omega

theorem utf8Next_long (hsound : Utf8Sound state)
    (h : Utf8Long state) (byte : Nat) : Utf8Long (utf8Next state byte).2 := by
  cases state with
  | none => exact utf8First_long byte
  | some p =>
      have hlow := hsound p rfl
      have hcode := (h p rfl).1
      unfold utf8Next
      dsimp only
      split
      · split
        · intro q hq
          cases hq
        · intro q hq
          cases hq
          dsimp only
          omega
      · exact utf8First_long byte

theorem ofNat_ne_newline {n : Nat} (h : n ≠ 10) : Char.ofNat n ≠ '\n' := by
  intro heq
  unfold Char.ofNat at heq
  by_cases hvalid : n.isValidChar
  · rw [dif_pos hvalid] at heq
    exact h (congrArg Char.toNat heq)
  · rw [dif_neg hvalid] at heq
    exact absurd heq (by decide)

theorem newline_not_mem_utf8First (h : byte ≠ 10) : '\n' ∉ (utf8First byte).1 := by
  unfold utf8First
  by_cases hbyte : byte < 0x80
  · rw [if_pos hbyte, List.mem_singleton]
    exact (ofNat_ne_newline h).symm
  · rw [if_neg hbyte]
    repeat' split
    all_goals simp [replacement]

theorem newline_not_mem_utf8Next (hlong : Utf8Long state)
    (h : byte ≠ 10) : '\n' ∉ (utf8Next state byte).1 := by
  cases state with
  | none => exact newline_not_mem_utf8First h
  | some p =>
      unfold utf8Next
      dsimp only
      split
      · split
        · rename_i hmissing
          have hcode := (hlong p rfl).2 hmissing
          rw [List.mem_singleton]
          exact (ofNat_ne_newline (by omega)).symm
        · simp
      · rw [List.mem_cons, not_or]
        exact ⟨by decide, newline_not_mem_utf8First h⟩

theorem newline_not_mem_utf8ReplaceFrom (hsound : Utf8Sound state)
    (hlong : Utf8Long state) {bytes : List UInt8} (h : 10 ∉ bytes) :
    '\n' ∉ utf8ReplaceFrom state bytes := by
  induction bytes generalizing state with
  | nil =>
      rw [utf8ReplaceFrom]
      split
      · simp
      · decide
  | cons byte rest ih =>
      rw [List.mem_cons, not_or] at h
      have hbyte : byte.toNat ≠ 10 := fun heq => h.1 (UInt8.toNat_inj.mp heq.symm)
      rw [utf8ReplaceFrom, List.mem_append, not_or]
      exact ⟨newline_not_mem_utf8Next hlong hbyte,
        ih (utf8Next_sound hsound _) (utf8Next_long hsound hlong _) h.2⟩

theorem newline_not_mem_utf8Replace {bytes : List UInt8} (h : 10 ∉ bytes) :
    '\n' ∉ utf8Replace bytes :=
  newline_not_mem_utf8ReplaceFrom utf8Sound_none (fun p hp => by cases hp) h

end Decode

section Lines

-- `str.splitlines`; `line` is what the current line has so far, backwards.
def splitlinesFrom (line : Text) : Text → List Text
  | [] => if line = [] then [] else [line.reverse]
  | '\r' :: '\n' :: rest => line.reverse :: splitlinesFrom [] rest
  | c :: rest =>
      if lineBreak c then line.reverse :: splitlinesFrom [] rest else splitlinesFrom (c :: line) rest

def strSplitlines (text : Text) : List Text := splitlinesFrom [] text

example : strSplitlines "a\r\n\r b".toList = [['a'], [], [], ['b']] := by decide

theorem splitlinesFrom_cons {line rest : Text}
    (h : c = '\r' → rest.head? ≠ some '\n') :
    splitlinesFrom line (c :: rest) =
      if lineBreak c then line.reverse :: splitlinesFrom [] rest
      else splitlinesFrom (c :: line) rest := by
  rw [splitlinesFrom]
  intro rest' hc hrest
  exact h hc (by rw [hrest]; rfl)

theorem splitlinesFrom_newline (line after : Text) :
    splitlinesFrom line ('\n' :: after) = line.reverse :: strSplitlines after := by
  rw [splitlinesFrom_cons (by simp), if_pos (by decide)]
  rfl

theorem splitlinesFrom_append (line before after : Text) :
    splitlinesFrom line (before ++ '\n' :: after) =
      splitlinesFrom line (before ++ ['\n']) ++ strSplitlines after := by
  induction line, before using splitlinesFrom.induct with
  | case1 => simp only [List.nil_append, splitlinesFrom_newline]; rfl
  | case2 line _ => simp only [List.nil_append, splitlinesFrom_newline]; rfl
  | case3 line rest ih =>
      simp only [List.cons_append, splitlinesFrom, ih]
  | case4 line c rest hcrlf hbreak ih =>
      cases rest with
      | nil =>
          by_cases hc : c = '\r'
          · subst hc
            simp only [List.cons_append, List.nil_append, splitlinesFrom]
            rfl
          · rw [List.cons_append, List.cons_append, splitlinesFrom_cons (fun h => absurd h hc),
              splitlinesFrom_cons (fun h => absurd h hc), if_pos hbreak, if_pos hbreak, ih,
              List.cons_append]
      | cons d rest =>
          have hd (h : c = '\r') : some d ≠ some '\n' :=
            fun hd => hcrlf rest h (by rw [Option.some.inj hd])
          have hwith (tail : Text) : splitlinesFrom line (c :: (d :: rest ++ tail)) =
              line.reverse :: splitlinesFrom [] (d :: rest ++ tail) := by
            rw [splitlinesFrom_cons, if_pos hbreak]
            exact hd
          change splitlinesFrom line (c :: (d :: rest ++ '\n' :: after)) =
            splitlinesFrom line (c :: (d :: rest ++ ['\n'])) ++ _
          rw [hwith, hwith, ih]
          rfl
  | case5 line c rest _ hbreak ih =>
      have hc : c ≠ '\r' := by
        rintro rfl
        exact hbreak (by decide)
      rw [List.cons_append, List.cons_append, splitlinesFrom_cons (fun h => absurd h hc),
        splitlinesFrom_cons (fun h => absurd h hc), if_neg hbreak, if_neg hbreak, ih]

theorem splitlinesFrom_eq_splitOnP (hnewline : '\n' ∉ text)
    (hlast : text.getLast? ≠ some '\r') (line : Text) :
    splitlinesFrom line (text ++ ['\n']) =
      (text.splitOnP lineBreak).modifyHead (line.reverse ++ ·) := by
  induction text generalizing line with
  | nil =>
      rw [List.nil_append, splitlinesFrom_newline, List.splitOnP_nil, List.modifyHead_cons,
        List.append_nil]
      rfl
  | cons c rest ih =>
      rw [List.mem_cons, not_or] at hnewline
      have hpair (hc : c = '\r') : (rest ++ ['\n']).head? ≠ some '\n' := by
        cases rest with
        | nil =>
            rw [hc] at hlast
            exact absurd rfl hlast
        | cons d more =>
            intro hd
            exact hnewline.2 (by rw [← Option.some.inj hd]; exact List.mem_cons_self)
      have hrest : rest.getLast? ≠ some '\r' := by
        intro heq
        apply hlast
        rw [List.getLast?_cons, heq]
        rfl
      rw [List.cons_append, splitlinesFrom_cons hpair, List.splitOnP_cons_eq_if_modifyHead]
      by_cases hbreak : lineBreak c = true
      · rw [if_pos hbreak, if_pos hbreak, ih hnewline.2 hrest, List.modifyHead_cons,
          List.append_nil]
        cases rest.splitOnP lineBreak <;> rfl
      · rw [if_neg hbreak, if_neg hbreak, ih hnewline.2 hrest, List.modifyHead_modifyHead]
        congr 1
        funext part
        simp

theorem eq_of_splitOnP_singleton {p : Char → Bool} {part : Text}
    (h : text.splitOnP p = [part]) : text = part := by
  induction text generalizing part with
  | nil =>
      rw [List.splitOnP_nil] at h
      cases h
      rfl
  | cons c rest ih =>
      rw [List.splitOnP_cons_eq_if_modifyHead] at h
      split at h
      · exact absurd (List.cons_eq_cons.mp h).2 (List.splitOnP_ne_nil p rest)
      · cases hsplit : rest.splitOnP p with
        | nil => exact absurd hsplit (List.splitOnP_ne_nil p rest)
        | cons first more =>
            rw [hsplit, List.modifyHead_cons] at h
            obtain ⟨rfl, rfl⟩ := List.cons_eq_cons.mp h
            rw [ih hsplit]

theorem splitOnP_append_right {p : Char → Bool} {tail : Text} (htail : ∀ c ∈ tail, p c = false)
    {parts : List Text} {last : Text} (h : text.splitOnP p = parts ++ [last]) :
    (text ++ tail).splitOnP p = parts ++ [last ++ tail] := by
  induction text generalizing parts last with
  | nil =>
      rw [List.splitOnP_nil] at h
      obtain ⟨rfl, hlast⟩ := List.append_inj' (show [] ++ [[]] = parts ++ [last] from h) rfl
      cases hlast
      rw [List.nil_append, List.splitOnP_eq_singleton htail]
      rfl
  | cons c rest ih =>
      rw [List.splitOnP_cons_eq_if_modifyHead] at h
      rw [List.cons_append, List.splitOnP_cons_eq_if_modifyHead]
      by_cases hc : p c = true
      · rw [if_pos hc] at h ⊢
        cases parts with
        | nil =>
            have hnil := (List.cons_eq_cons.mp h).2
            exact absurd hnil (List.splitOnP_ne_nil p rest)
        | cons first more =>
            obtain ⟨rfl, hmore⟩ := List.cons_eq_cons.mp h
            rw [ih hmore]
            rfl
      · rw [if_neg hc] at h ⊢
        cases hsplit : rest.splitOnP p using List.reverseRecOn with
        | nil => exact absurd hsplit (List.splitOnP_ne_nil p rest)
        | append_singleton front final _ =>
            rw [ih hsplit]
            rw [hsplit] at h
            cases front with
            | nil =>
                obtain ⟨rfl, hlast⟩ := List.append_inj'
                  (show [] ++ [c :: final] = parts ++ [last] from h) rfl
                cases hlast
                rfl
            | cons first more =>
                obtain ⟨rfl, hlast⟩ := List.append_inj'
                  (show ((c :: first) :: more) ++ [final] = parts ++ [last] from h) rfl
                cases hlast
                rfl

end Lines

section Pieces

def decodedLines (bytes : List UInt8) : List Text := strSplitlines (utf8Replace bytes)

theorem decodedLines_append {before : List UInt8}
    (h : before = [] ∨ before.getLast? = some 10) (after : List UInt8) :
    decodedLines (before ++ after) = decodedLines before ++ decodedLines after := by
  have hsound := utf8Sound_none
  rcases h with rfl | hlast
  · rfl
  · obtain ⟨front, rfl⟩ := List.getLast?_eq_some_iff.mp hlast
    have htext := getLast?_utf8ReplaceFrom hsound front
    obtain ⟨text, htext⟩ := List.getLast?_eq_some_iff.mp htext
    have hwhole : utf8Replace (front ++ [10] ++ after) = text ++ '\n' :: utf8Replace after := by
      rw [utf8Replace, List.append_assoc, List.singleton_append, utf8ReplaceFrom_append hsound,
        htext, List.append_assoc, List.singleton_append]
    have hfront : utf8Replace (front ++ [10]) = text ++ ['\n'] := htext
    rw [decodedLines, decodedLines, hwhole, hfront, strSplitlines, splitlinesFrom_append]
    rfl

end Pieces

end OpenvpnServer.Lib
