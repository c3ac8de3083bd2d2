import Mathlib.Algebra.Ring.Nat
import Mathlib.Data.Bool.AllAny
import Mathlib.Data.List.DropRight

namespace OpenvpnServer.Lib

-- Texts are lists of Unicode scalar values.
abbrev Text := List Char

instance : LawfulBEq Text := inferInstanceAs (LawfulBEq (List Char))

theorem span_append {α : Type*} {p : α → Bool} {front rest : List α}
    (hfront : ∀ x ∈ front, p x = true) (hrest : ∀ x ∈ rest.head?, p x = false) :
    (front ++ rest).takeWhile p = front ∧ (front ++ rest).dropWhile p = rest := by
  rw [List.takeWhile_append_of_pos hfront, List.dropWhile_append_of_pos hfront]
  cases rest with
  | nil => exact ⟨List.append_nil front, rfl⟩
  | cons x more =>
      have hx : ¬p x = true := by simp [hrest x rfl]
      rw [List.takeWhile_cons_of_neg hx, List.dropWhile_cons_of_neg hx, List.append_nil]
      exact ⟨rfl, rfl⟩

section Codes

variable {c : Char}

theorem isDigit_iff : c.isDigit = true ↔ 48 ≤ c.toNat ∧ c.toNat ≤ 57 := by
  change (decide (48 ≤ c.toNat) && decide (c.toNat ≤ 57)) = true ↔ _
  rw [Bool.and_eq_true, decide_eq_true_eq, decide_eq_true_eq]

theorem isLower_iff : c.isLower = true ↔ 97 ≤ c.toNat ∧ c.toNat ≤ 122 := by
  change (decide (97 ≤ c.toNat) && decide (c.toNat ≤ 122)) = true ↔ _
  rw [Bool.and_eq_true, decide_eq_true_eq, decide_eq_true_eq]

theorem isUpper_iff : c.isUpper = true ↔ 65 ≤ c.toNat ∧ c.toNat ≤ 90 :=
  decide_eq_true_iff

theorem isAlphanum_iff : c.isAlphanum = true ↔
    ((65 ≤ c.toNat ∧ c.toNat ≤ 90) ∨ (97 ≤ c.toNat ∧ c.toNat ≤ 122)) ∨
      (48 ≤ c.toNat ∧ c.toNat ≤ 57) := by
  change ((c.isUpper || c.isLower) || c.isDigit) = true ↔ _
  rw [Bool.or_eq_true, Bool.or_eq_true, isUpper_iff, isLower_iff, isDigit_iff]

end Codes

section Cut

variable {α : Type*} [BEq α]

def cutFirst (sep : α) : List α → Option (List α × List α)
  | [] => none
  | x :: rest =>
      if x == sep then some ([], rest)
      else (cutFirst sep rest).map fun (before, after) => (x :: before, after)

def cutLast (sep : α) : List α → Option (List α × List α)
  | [] => none
  | x :: rest =>
      match cutLast sep rest with
      | some (before, after) => some (x :: before, after)
      | none => if x == sep then some ([], rest) else none

-- The lemmas below are elaborated at once, and all of them need these equations.
attribute [local simp] cutFirst cutLast

variable [LawfulBEq α] {sep : α}

theorem cutFirst_of_not_mem {text : List α} (h : sep ∉ text) : cutFirst sep text = none := by
  induction text with
  | nil => rfl
  | cons x rest ih =>
      rw [List.mem_cons, not_or] at h
      have hx : (x == sep) = false := beq_eq_false_iff_ne.mpr (Ne.symm h.1)
      simp [hx, ih h.2]

theorem not_mem_of_cutFirst {text : List α} (h : cutFirst sep text = none) : sep ∉ text := by
  induction text with
  | nil => simp
  | cons x rest ih =>
      unfold cutFirst at h
      by_cases hx : (x == sep) = true
      · simp [hx] at h
      · rw [if_neg hx, Option.map_eq_none_iff] at h
        rw [List.mem_cons, not_or]
        exact ⟨fun he => hx (by simp [he]), ih h⟩

theorem cutFirst_append_cons {before : List α} (h : sep ∉ before) (after : List α) :
    cutFirst sep (before ++ sep :: after) = some (before, after) := by
  induction before with
  | nil => simp
  | cons x rest ih =>
      rw [List.mem_cons, not_or] at h
      have hx : (x == sep) = false := beq_eq_false_iff_ne.mpr (Ne.symm h.1)
      simp [hx, ih h.2]

theorem cutLast_of_not_mem {text : List α} (h : sep ∉ text) : cutLast sep text = none := by
  induction text with
  | nil => rfl
  | cons x rest ih =>
      rw [List.mem_cons, not_or] at h
      have hx : (x == sep) = false := beq_eq_false_iff_ne.mpr (Ne.symm h.1)
      simp [hx, ih h.2]

theorem cutLast_append_cons (before : List α) {after : List α} (h : sep ∉ after) :
    cutLast sep (before ++ sep :: after) = some (before, after) := by
  induction before with
  | nil => simp [cutLast_of_not_mem h]
  | cons x rest ih => simp [ih]

theorem cutFirst_eq_some {text before after : List α}
    (h : cutFirst sep text = some (before, after)) :
    sep ∉ before ∧ text = before ++ sep :: after := by
  induction text generalizing before with
  | nil => cases h
  | cons x rest ih =>
      unfold cutFirst at h
      by_cases hx : (x == sep) = true
      · rw [if_pos hx] at h
        cases h
        rw [eq_of_beq hx]
        exact ⟨List.not_mem_nil, rfl⟩
      · rw [if_neg hx, Option.map_eq_some_iff] at h
        obtain ⟨⟨start, tail⟩, hrest, he⟩ := h
        cases he
        obtain ⟨hnot, htext⟩ := ih hrest
        rw [List.mem_cons, not_or, htext]
        exact ⟨⟨fun he => hx (by simp [he]), hnot⟩, rfl⟩

theorem eq_of_cutLast {text before after : List α} (h : cutLast sep text = some (before, after)) :
    text = before ++ sep :: after := by
  induction text generalizing before with
  | nil => cases h
  | cons x rest ih =>
      unfold cutLast at h
      cases hrest : cutLast sep rest with
      | some parts =>
          obtain ⟨start, tail⟩ := parts
          simp only [hrest, Option.some.injEq, Prod.mk.injEq] at h
          have hstart : rest = start ++ sep :: after := ih (by rw [hrest, h.2])
          rw [hstart, ← h.1]
          rfl
      | none =>
          simp only [hrest] at h
          split at h
          · rename_i hx
            cases h
            rw [eq_of_beq hx]
            rfl
          · cases h

end Cut

def decimal? (digits : Text) : Option Nat :=
  if digits ≠ [] ∧ digits.all Char.isDigit then some (Nat.ofDigitChars 10 digits 0) else none

def hexDigit? (c : Char) : Option Nat :=
  if '0' ≤ c ∧ c ≤ '9' then some (c.toNat - '0'.toNat)
  else if 'a' ≤ c ∧ c ≤ 'f' then some (c.toNat - 'a'.toNat + 10)
  else if 'A' ≤ c ∧ c ≤ 'F' then some (c.toNat - 'A'.toNat + 10)
  else none

def isHexDigit (c : Char) : Bool := (hexDigit? c).isSome

def hexValue (digits : Text) : Nat :=
  digits.foldl (fun acc c => acc * 16 + (hexDigit? c).getD 0) 0

theorem hexDigit?_digitChar {d : Nat} (h : d < 16) : hexDigit? (Nat.digitChar d) = some d :=
  (by decide : ∀ d < 16, hexDigit? (Nat.digitChar d) = some d) d h

end OpenvpnServer.Lib
