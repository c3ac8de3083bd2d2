import OpenvpnServer.Collector.Rejection
import OpenvpnServer.Network.AddressPlan.Theorems
import OpenvpnServer.Network.FromServerConf
import OpenvpnServer.Network.Remote.Lemmas

namespace OpenvpnServer.Collector

open OpenvpnServer.Lib

variable {text found rest stamp client address words line : Text}
open OpenvpnServer.Config (afterWord eq_of_afterWord)
open OpenvpnServer.Network (digitChar wordAt afterWord_of_append validateName
  validName_of_validateName)

section Shapes

-- Its equations, before the lemmas that rewrite with them.
attribute [local simp] matchShape

variable {shape : List (Char → Bool)}

theorem matchShape_append (h : matchShape shape text = some (found, rest))
    (more : Text) : matchShape shape (text ++ more) = some (found, rest ++ more) := by
  induction shape generalizing text found with
  | nil =>
      cases h
      rfl
  | cons accepts shape ih =>
      cases text with
      | nil => cases h
      | cons c text =>
          rw [matchShape] at h
          rw [List.cons_append, matchShape]
          split at h
          · rename_i hc
            obtain ⟨⟨front, tail⟩, hfront, heq⟩ := Option.map_eq_some_iff.mp h
            cases heq
            rw [if_pos hc, ih hfront]
            rfl
          · cases h

theorem matchShape_cut {sep : Char} (hsep : ∀ accepts ∈ shape, accepts sep = false)
    {before after : Text}
    (h : matchShape shape (before ++ sep :: after) = some (found, rest)) :
    ∃ left, before = found ++ left ∧ rest = left ++ sep :: after ∧
      matchShape shape found = some (found, []) := by
  induction shape generalizing before found with
  | nil =>
      cases h
      exact ⟨before, rfl, rfl, rfl⟩
  | cons accepts shape ih =>
      cases before with
      | nil =>
          rw [List.nil_append, matchShape, hsep accepts List.mem_cons_self] at h
          cases h
      | cons c before =>
          rw [List.cons_append, matchShape] at h
          split at h
          · rename_i hc
            obtain ⟨⟨front, tail⟩, hfront, heq⟩ := Option.map_eq_some_iff.mp h
            cases heq
            obtain ⟨left, rfl, hrest, hmatch⟩ :=
              ih (fun a ha => hsep a (List.mem_cons_of_mem _ ha)) hfront
            refine ⟨left, rfl, hrest, ?_⟩
            rw [matchShape, if_pos hc, hmatch]
            rfl
          · cases h

theorem matchShape_mono {wider : List (Char → Bool)}
    (hwider : List.Forall₂ (fun p q : Char → Bool => ∀ c, p c = true → q c = true) shape wider)
    {found : Text × Text} (h : matchShape shape text = some found) :
    matchShape wider text = some found := by
  induction hwider generalizing text found with
  | nil => exact h
  | cons hc _ ih =>
      cases text with
      | nil => cases h
      | cons c text =>
          rw [matchShape] at h ⊢
          split at h
          · rename_i hp
            obtain ⟨front, hfront, rfl⟩ := Option.map_eq_some_iff.mp h
            rw [if_pos (hc c hp), ih hfront]
            rfl
          · cases h

theorem of_mem_matchShape {good : Char → Prop}
    (hgood : ∀ accepts ∈ shape, ∀ c, accepts c = true → good c)
    (h : matchShape shape text = some (found, rest)) : ∀ c ∈ found, good c := by
  induction shape generalizing text found with
  | nil =>
      cases h
      simp
  | cons accepts shape ih =>
      cases text with
      | nil => cases h
      | cons c text =>
          rw [matchShape] at h
          split at h
          · rename_i hc
            obtain ⟨⟨front, tail⟩, hfront, heq⟩ := Option.map_eq_some_iff.mp h
            cases heq
            intro d hd
            rcases List.mem_cons.mp hd with rfl | hd
            · exact hgood accepts List.mem_cons_self d hc
            · exact ih (fun a ha => hgood a (List.mem_cons_of_mem _ ha)) hfront d hd
          · cases h

end Shapes

section Stamp

variable {wide : Char → Bool}

theorem mem_stampShape {accepts : Char → Bool} (h : accepts ∈ stampShape wide) :
    accepts = digitChar wide ∨ ∃ d, (d = '-' ∨ d = ' ' ∨ d = ':') ∧ accepts = (decide <| · = d) := by
  simp only [stampShape, List.mem_cons, List.not_mem_nil, or_false] at h
  rcases h with h | h | h | h | h | h | h | h | h | h | h | h | h | h | h | h | h | h | h
  all_goals first
    | exact .inl h
    | exact .inr ⟨_, .inl rfl, h⟩
    | exact .inr ⟨_, .inr (.inl rfl), h⟩
    | exact .inr ⟨_, .inr (.inr rfl), h⟩

theorem stampShape_quote : ∀ accepts ∈ stampShape wide, accepts '\'' = false := by
  intro accepts h
  rcases mem_stampShape h with rfl | ⟨d, rfl | rfl | rfl, rfl⟩
  · have hascii : ¬127 < '\''.toNat := by decide
    simp only [digitChar, hascii, decide_false, Bool.false_and, Bool.or_false]
    decide
  all_goals decide

theorem IsStamp.widen (h : IsStamp (fun _ => false) stamp) : IsStamp wide stamp := by
  refine matchShape_mono ?_ h
  have hdigit (c : Char) (hc : digitChar (fun _ => false) c = true) : digitChar wide c = true := by
    simp only [digitChar, Bool.and_false, Bool.false_and, Bool.or_false] at hc
    simp [digitChar, hc]
  have hsame (p : Char → Bool) (c : Char) (hc : p c = true) : p c = true := hc
  unfold stampShape
  repeat' first
    | exact List.Forall₂.nil
    | refine List.Forall₂.cons hdigit ?_
    | refine List.Forall₂.cons (hsame _) ?_

theorem IsStamp.ascii (h : IsStamp (fun _ => false) stamp) :
    ∀ c ∈ stamp, c.toNat < 128 ∧ lineBreak c = false := by
  refine of_mem_matchShape ?_ h
  intro accepts haccepts c hc
  rcases mem_stampShape haccepts with rfl | ⟨d, rfl | rfl | rfl, rfl⟩
  · simp only [digitChar, Bool.and_false, Bool.false_and, Bool.or_false] at hc
    have hrange := Char.isDigit_iff_toNat.mp hc
    have hnine : '9'.toNat = 57 := rfl
    exact ⟨by omega, Network.lineBreak_of_dotted (.inr hc)⟩
  all_goals
    rw [decide_eq_true_eq] at hc
    subst hc
    decide

end Stamp

section Fields

theorem fst_of_cutFirst {sep : Char} {before after : Text}
    (h : cutFirst sep text = some (before, after)) : before = text.takeWhile (· ≠ sep) := by
  obtain ⟨hmem, htext⟩ := cutFirst_eq_some h
  rw [htext, List.takeWhile_append_of_pos]
  · simp
  · intro c hc
    exact decide_eq_true fun heq => hmem (heq ▸ hc)

theorem afterWord_quote {word : String} {start : Text} (hword : word.toList = start ++ ['\''])
    (hstart : '\'' ∉ start) {before after rest : Text}
    (h : afterWord word (before ++ '\'' :: after) = some rest) :
    (∃ left, before = word.toList ++ left ∧ rest = left ++ '\'' :: after) ∨
      (before = start ∧ rest = after) := by
  have heq := eq_of_afterWord h
  rw [hword, List.append_assoc, List.singleton_append] at heq
  rcases List.append_eq_append_iff.mp heq with ⟨left, hleft, htail⟩ | ⟨left, hleft, htail⟩
  · cases left with
    | nil =>
        rw [List.append_nil] at hleft
        exact .inr ⟨hleft.symm, (List.cons_eq_cons.mp htail).2.symm⟩
    | cons c left =>
        have hc : '\'' = c := (List.cons_eq_cons.mp htail).1
        exact absurd (by rw [hleft, hc]; simp) hstart
  · cases left with
    | nil =>
        rw [List.append_nil] at hleft
        exact .inr ⟨hleft, (List.cons_eq_cons.mp htail).2⟩
    | cons c left =>
        obtain ⟨rfl, hrest⟩ := List.cons_eq_cons.mp htail
        exact .inl ⟨left, by rw [hword, hleft]; simp, hrest⟩

theorem fieldsAt_spec {reason : Text}
    (h : fieldsAt text = some (client, address, reason)) :
    client = text.takeWhile (· ≠ '\'') := by
  unfold fieldsAt at h
  obtain ⟨⟨first, rest⟩, hcut, h⟩ := Option.bind_eq_some_iff.mp h
  have hclient : first = client := by
    obtain ⟨_, _, h⟩ := Option.bind_eq_some_iff.mp h
    obtain ⟨⟨_, _⟩, _, h⟩ := Option.bind_eq_some_iff.mp h
    obtain ⟨_, _, h⟩ := Option.bind_eq_some_iff.mp h
    obtain ⟨⟨_, _⟩, _, h⟩ := Option.bind_eq_some_iff.mp h
    cases h
    rfl
  rw [← hclient]
  exact fst_of_cutFirst hcut

theorem client_fixed {word : String} {start : Text} (hword : word.toList = start ++ ['\''])
    (hstart : '\'' ∉ start) (before : Text) :
    ∃ name, ∀ more rest client address reason,
      afterWord word (before ++ ("' cn='".toList ++ more)) = some rest →
      fieldsAt rest = some (client, address, reason) → client = name := by
  have hquote (more : Text) : "' cn='".toList ++ more = '\'' :: (" cn='".toList ++ more) := rfl
  have htake (left more : Text) :
      (left ++ '\'' :: more).takeWhile (· ≠ '\'') = left.takeWhile (· ≠ '\'') := by
    induction left with
    | nil => simp
    | cons c left ih => simp only [List.cons_append, List.takeWhile_cons, ih]
  by_cases hbefore : ∃ left, before = word.toList ++ left
  · obtain ⟨left, rfl⟩ := hbefore
    refine ⟨left.takeWhile (· ≠ '\''), ?_⟩
    intro more rest client address reason hrest hfields
    rw [List.append_assoc, afterWord_of_append, Option.some_inj] at hrest
    rw [fieldsAt_spec hfields, ← hrest, hquote, htake]
  · refine ⟨" cn=".toList, ?_⟩
    intro more rest client address reason hrest hfields
    rw [hquote] at hrest
    rcases afterWord_quote hword hstart hrest with ⟨left, hleft, _⟩ | ⟨_, rfl⟩
    · exact absurd ⟨left, hleft⟩ hbefore
    · rw [fieldsAt_spec hfields]
      exact (htake " cn=".toList more).trans (by decide)

theorem afterUser_quote (h : '\'' ∈ text) :
    ∃ name, ∀ more client address reason,
      afterUser (text ++ ("' cn='".toList ++ more)) = some (client, address, reason) →
      client = name := by
  obtain ⟨user, left, htext, huser⟩ := List.eq_append_cons_of_mem h
  obtain ⟨name, hname⟩ := @client_fixed " cn='" " cn=".toList (by decide)
    (by decide) left
  refine ⟨name, ?_⟩
  intro more client address reason hfields
  rw [htext, List.append_assoc, List.cons_append, afterUser, cutFirst_append_cons huser,
    Option.bind_eq_bind, Option.bind_some] at hfields
  obtain ⟨rest, hrest, hfields⟩ := Option.bind_eq_some_iff.mp hfields
  exact hname more rest client address reason hrest hfields

end Fields

section Plain

def fieldChar (c : Char) : Bool := 33 ≤ c.toNat && c.toNat < 127 && c ≠ '\''

variable {c : Char}

theorem fieldChar_iff :
    fieldChar c = true ↔ 33 ≤ c.toNat ∧ c.toNat < 127 ∧ c ≠ '\'' := by
  simp [fieldChar, and_assoc]

theorem pySpace_of_fieldChar (h : fieldChar c = true) : pySpace c = false := by
  have hrange := fieldChar_iff.mp h
  rw [← Bool.not_eq_true]
  intro hspace
  simp only [pySpace, Bool.or_eq_true, Bool.and_eq_true, decide_eq_true_eq, List.mem_cons,
    List.not_mem_nil, or_false] at hspace
  omega

theorem lineBreak_of_fieldChar (h : fieldChar c = true) : lineBreak c = false := by
  rw [← Bool.not_eq_true]
  intro hbreak
  exact absurd (Network.pySpace_of_lineBreak hbreak) (by simp [pySpace_of_fieldChar h])

theorem quote_not_mem_fieldChar (h : ∀ c ∈ text, fieldChar c = true) :
    '\'' ∉ text :=
  fun hmem => absurd (h _ hmem) (by decide)

theorem fieldChar_of_isAlphanum (h : c.isAlphanum = true) : fieldChar c = true := by
  have hquote : c ≠ '\'' := by
    rintro rfl
    exact absurd h (by decide)
  rw [isAlphanum_iff] at h
  rw [fieldChar_iff]
  refine ⟨by omega, by omega, hquote⟩

theorem fieldChar_of_validateName {cn : Text} (h : validateName cn = .ok ()) :
    ∀ c ∈ cn, fieldChar c = true := by
  have hvalid := validName_of_validateName h
  cases cn with
  | nil => cases hvalid
  | cons first rest =>
      simp only [Access.validName, Bool.and_eq_true, List.all_eq_true] at hvalid
      intro c hc
      rcases List.mem_cons.mp hc with rfl | hc
      · exact fieldChar_of_isAlphanum hvalid.1.1
      · have hname := hvalid.1.2 c hc
        simp only [Access.nameChar, Bool.or_eq_true, decide_eq_true_eq, List.mem_cons,
          List.not_mem_nil, or_false] at hname
        rcases hname with hname | rfl | rfl | rfl | rfl
        · exact fieldChar_of_isAlphanum hname
        all_goals decide

theorem fieldChar_of_addressChar (h : addressChar c = true) : fieldChar c = true := by
  simp only [addressChar, Bool.or_eq_true, decide_eq_true_eq] at h
  rcases h with (hhex | rfl) | rfl
  · apply fieldChar_of_isAlphanum
    unfold isHexDigit hexDigit? at hhex
    simp only [Char.le_def, UInt32.le_iff_toNat_le] at hhex
    rw [isAlphanum_iff]
    change (if 48 ≤ c.toNat ∧ c.toNat ≤ 57 then _ else if 97 ≤ c.toNat ∧ c.toNat ≤ 102 then _ else
      if 65 ≤ c.toNat ∧ c.toNat ≤ 70 then _ else none).isSome = true at hhex
    repeat' split at hhex
    · omega
    · omega
    · omega
    · cases hhex
  all_goals decide

theorem fieldChar_reason (reason : FailReason) : ∀ c ∈ reason.text, fieldChar c = true := by
  apply List.all_eq_true.mp
  cases reason <;> decide

end Plain

section Line

variable {python : LogPython} {cn ip : Text} {reason : FailReason}

theorem failTail_eq : failTail cn ip reason = "' cn='".toList ++
    (cn ++ '\'' :: (" from='".toList ++ (ip ++ '\'' :: (" reason=".toList ++ reason.text)))) := by
  have hfrom : "' from='".toList = '\'' :: " from='".toList := rfl
  have hreason : "' reason=".toList = '\'' :: " reason=".toList := rfl
  unfold failTail
  rw [hfrom, hreason]
  simp only [List.append_assoc, List.cons_append]

theorem fieldsAt_tail (hcn : '\'' ∉ cn) (hip : '\'' ∉ ip) :
    fieldsAt (cn ++ '\'' :: (" from='".toList ++
      (ip ++ '\'' :: (" reason=".toList ++ reason.text)))) = some (cn, ip, reason.text) := by
  have hreason : wordAt reason.text = some (reason.text, []) := by
    have hplain := fun c hc => pySpace_of_fieldChar (fieldChar_reason reason c hc)
    have htake : reason.text.takeWhile (! pySpace ·) = reason.text :=
      List.takeWhile_eq_self_iff.mpr fun c hc => by simp [hplain c hc]
    have hdrop : reason.text.dropWhile (! pySpace ·) = [] :=
      List.dropWhile_eq_nil_iff.mpr fun c hc => by simp [hplain c hc]
    have hne : reason.text ≠ [] := by cases reason <;> decide
    rw [wordAt, htake, hdrop, if_neg hne]
  simp only [fieldsAt, cutFirst_append_cons hcn, cutFirst_append_cons hip, afterWord_of_append,
    hreason, Option.bind_eq_bind, Option.bind_some, Option.pure_def]

theorem afterUser_plain {user : Text} (huser : '\'' ∉ user) (hcn : '\'' ∉ cn) (hip : '\'' ∉ ip) :
    afterUser (user ++ failTail cn ip reason) = some (cn, ip, reason.text) := by
  have hquote (more : Text) : "' cn='".toList ++ more = '\'' :: (" cn='".toList ++ more) := rfl
  rw [failTail_eq, hquote, afterUser, cutFirst_append_cons huser, Option.bind_eq_bind,
    Option.bind_some, Option.bind_eq_bind]
  dsimp only
  rw [afterWord_of_append, Option.bind_some, fieldsAt_tail hcn hip]

theorem rejectionAt_failHead (hstamp : IsStamp python.wide stamp) (text : Text) :
    rejectionAt python (failHead stamp ++ text) = (afterUser text).map fun fields =>
      (stamp, fields.1, "2FA: ".toList ++ plainReason fields.2.2, fields.2.1) := by
  have hhead : failHead stamp ++ text =
      stamp ++ (" ".toList ++ ("2FA FAIL user='".toList ++ text)) := by
    simp only [failHead, List.append_assoc]
    rfl
  have hat : stampAt python (failHead stamp ++ text) =
      some (stamp, "2FA FAIL user='".toList ++ text) := by
    rw [stampAt, hhead, matchShape_append hstamp, List.nil_append]
    dsimp only
    rw [afterWord_of_append]
    rfl
  have hword : refusedCertificate python ("2FA FAIL user='".toList ++ text) = none := by
    have hcons : "2FA FAIL user='".toList ++ text =
        '2' :: 'F' :: 'A' :: ' ' :: ("FAIL user='".toList ++ text) := rfl
    have htake : ("2FA FAIL user='".toList ++ text).takeWhile (fun c => wordChar python c || c = '-') =
        "2FA".toList := by
      rw [hcons]
      rfl
    rw [refusedCertificate, htake, hcons]
    rfl
  have hkey : unknownKey python ("2FA FAIL user='".toList ++ text) = none := by
    rfl
  have haccess : refusedAccess ("2FA FAIL user='".toList ++ text) = none := by
    rfl
  rw [rejectionAt, hat]
  dsimp only
  rw [hword, hkey, haccess, Option.none_or, Option.none_or, Option.or_none, failedCode,
    afterWord_of_append, Option.bind_eq_bind, Option.bind_some]
  cases afterUser text with
  | none => rfl
  | some fields => rfl

end Line

section Last

variable {python : LogPython} {ip : Text} {reason : FailReason}

theorem length_of_matchShape {shape : List (Char → Bool)}
    (h : matchShape shape text = some (found, rest)) : found.length = shape.length := by
  induction shape generalizing text found with
  | nil =>
      cases h
      rfl
  | cons accepts shape ih =>
      cases text with
      | nil => cases h
      | cons c text =>
          rw [matchShape] at h
          split at h
          · obtain ⟨⟨front, tail⟩, hfront, heq⟩ := Option.map_eq_some_iff.mp h
            cases heq
            rw [List.length_cons, List.length_cons, ih hfront]
          · cases h

theorem stampAt_quote {more : Text}
    (h : stampAt python (text ++ '\'' :: more) = some (stamp, rest)) :
    ∃ left, text = stamp ++ ' ' :: left ∧ rest = left ++ '\'' :: more ∧
      IsStamp python.wide stamp := by
  unfold stampAt at h
  split at h
  · cases h
  · rename_i found after hmatch
    obtain ⟨behind, hbehind, heq⟩ := Option.map_eq_some_iff.mp h
    cases heq
    obtain ⟨left, rfl, rfl, hstamp⟩ := matchShape_cut stampShape_quote hmatch
    have hspace := eq_of_afterWord hbehind
    cases left with
    | nil => exact absurd (List.cons_eq_cons.mp hspace).1 (by decide)
    | cons c left =>
        obtain ⟨rfl, hleft⟩ := List.cons_eq_cons.mp hspace
        exact ⟨left, rfl, hleft.symm, hstamp⟩

theorem verifyErrorAt_spec {error name : Text}
    (h : verifyErrorAt python text = some (error, name)) : ':' ∉ error := by
  unfold verifyErrorAt at h
  obtain ⟨_, _, h⟩ := Option.bind_eq_some_iff.mp h
  obtain ⟨⟨_, _⟩, _, h⟩ := Option.bind_eq_some_iff.mp h
  obtain ⟨_, _, h⟩ := Option.bind_eq_some_iff.mp h
  obtain ⟨⟨found, rest⟩, hcut, h⟩ := Option.bind_eq_some_iff.mp h
  dsimp only at h
  split at h
  · cases h
  · obtain ⟨_, _, heq⟩ := Option.map_eq_some_iff.mp h
    cases heq
    exact (cutFirst_eq_some hcut).1

theorem refusedCertificate_spec {why : Text}
    (h : refusedCertificate python text = some (client, why, address)) : ':' ∉ why := by
  unfold refusedCertificate at h
  dsimp only at h
  split at h
  · cases h
  · obtain ⟨rest, _, h⟩ := Option.bind_eq_some_iff.mp h
    obtain ⟨⟨found, error, name⟩, hfound, h⟩ := Option.bind_eq_some_iff.mp h
    cases h
    obtain ⟨i, _, hi⟩ := List.exists_of_findSome?_eq_some hfound
    obtain ⟨⟨error, name⟩, hverify, heq⟩ := Option.map_eq_some_iff.mp hi
    cases heq
    exact verifyErrorAt_spec hverify

theorem unknownKey_spec {why : Text}
    (h : unknownKey python text = some (client, why, address)) :
    why = "unknown control channel key".toList := by
  unfold unknownKey at h
  obtain ⟨_, _, h⟩ := Option.bind_eq_some_iff.mp h
  obtain ⟨_, _, h⟩ := Option.bind_eq_some_iff.mp h
  obtain ⟨_, _, h⟩ := Option.bind_eq_some_iff.mp h
  obtain ⟨_, _, h⟩ := Option.bind_eq_some_iff.mp h
  obtain ⟨⟨_, _⟩, _, h⟩ := Option.bind_eq_some_iff.mp h
  cases h
  rfl

theorem rejectionAt_code {more : Text}
    (h : rejectionAt python (text ++ '\'' :: more) =
      some (stamp, client, "2FA: ".toList ++ words, address)) :
    ∃ left, text = stamp ++ ' ' :: left ∧ IsStamp python.wide stamp ∧
      (failedCode (left ++ '\'' :: more) = some (client, "2FA: ".toList ++ words, address) ∨
        refusedAccess (left ++ '\'' :: more) = some (client, "2FA: ".toList ++ words, address)) := by
  unfold rejectionAt at h
  split at h
  · cases h
  · rename_i found rest hstamp
    obtain ⟨fields, hfields, heq⟩ := Option.map_eq_some_iff.mp h
    cases heq
    obtain ⟨left, rfl, rfl, hvalid⟩ := stampAt_quote hstamp
    refine ⟨left, rfl, hvalid, ?_⟩
    rcases Option.or_eq_some_iff.mp hfields with hcert | ⟨-, hfields⟩
    · exact absurd (refusedCertificate_spec hcert) (by simp)
    rcases Option.or_eq_some_iff.mp hfields with hkey | ⟨-, hfields⟩
    · have hhead : some '2' = some 'u' := congrArg List.head? (unknownKey_spec hkey)
      exact absurd hhead (by decide)
    rcases Option.or_eq_some_iff.mp hfields with hcode | ⟨-, haccess⟩
    · exact .inl hcode
    · exact .inr haccess

-- A name of one letter is enough to see where the client was read from.
theorem failedCode_letter {left : Text} {c : Char} (hc : c ≠ ' ')
    (h : failedCode (left ++ failTail [c] ip reason) = some (client, words, address)) :
    ∃ user, left = "2FA FAIL user='".toList ++ user := by
  have hquote (more : Text) : "' cn='".toList ++ more = '\'' :: (" cn='".toList ++ more) := rfl
  rw [failTail_eq, hquote, failedCode] at h
  obtain ⟨rest, hrest, h⟩ := Option.bind_eq_some_iff.mp h
  obtain ⟨fields, hfields, -⟩ := Option.bind_eq_some_iff.mp h
  rcases @afterWord_quote "2FA FAIL user='" "2FA FAIL user=".toList (by decide) (by decide) _ _ _
    hrest with ⟨user, huser, -⟩ | ⟨-, rfl⟩
  · exact ⟨user, huser⟩
  · have hblank (more : Text) : afterWord " cn='" ([c] ++ more) = none := by
      have hhead : (' ' == c) = false := beq_eq_false_iff_ne.mpr hc.symm
      simp [afterWord, List.isPrefixOf, hhead]
    have hsplit (more : Text) : " cn='".toList ++ more = " cn=".toList ++ '\'' :: more := rfl
    rw [hsplit, afterUser, cutFirst_append_cons (by decide), Option.bind_eq_bind,
      Option.bind_some] at hfields
    dsimp only at hfields
    rw [hblank] at hfields
    cases hfields

theorem quote_not_mem_of_letters {user : Text} (hstamp : IsStamp python.wide stamp)
    {first second : Text × Text × Text × Text}
    (hfirst : rejectionAt python (failHead stamp ++ user ++ failTail ['a'] ip reason) = some first)
    (hsecond : rejectionAt python (failHead stamp ++ user ++ failTail ['b'] ip reason) = some second)
    (ha : first.2.1 = ['a']) (hb : second.2.1 = ['b']) : '\'' ∉ user := by
  intro hquote
  obtain ⟨name, hname⟩ := afterUser_quote hquote
  rw [List.append_assoc, rejectionAt_failHead hstamp, failTail_eq] at hfirst hsecond
  obtain ⟨⟨client, address, words⟩, hfields, rfl⟩ := Option.map_eq_some_iff.mp hfirst
  obtain ⟨⟨other, address', words'⟩, hfields', rfl⟩ := Option.map_eq_some_iff.mp hsecond
  have hclient := hname _ _ _ _ hfields
  have hother := hname _ _ _ _ hfields'
  dsimp only at ha hb
  rw [ha] at hclient
  rw [hb, ← hclient] at hother
  exact absurd hother (by decide)

theorem failHead_of_letters {stamp' : Text}
    (ha : rejectionAt python (text ++ failTail ['a'] ip reason) =
      some (stamp, ['a'], "2FA: ".toList ++ words, ip))
    (hb : rejectionAt python (text ++ failTail ['b'] ip reason) =
      some (stamp', ['b'], "2FA: ".toList ++ words, ip)) :
    ∃ user, text = failHead stamp ++ user ∧ IsStamp python.wide stamp ∧ '\'' ∉ user := by
  have hquote (cn : Text) : ∃ more, failTail cn ip reason = '\'' :: more :=
    ⟨_, failTail_eq.trans rfl⟩
  obtain ⟨more, hmore⟩ := hquote ['a']
  obtain ⟨more', hmore'⟩ := hquote ['b']
  obtain ⟨left, htext, hstamp, hcode⟩ := rejectionAt_code (hmore ▸ ha)
  obtain ⟨left', htext', hstamp', hcode'⟩ := rejectionAt_code (hmore' ▸ hb)
  rw [← hmore] at hcode
  rw [← hmore'] at hcode'
  have hlength : stamp.length = stamp'.length := by
    rw [length_of_matchShape hstamp, length_of_matchShape hstamp']
  obtain ⟨rfl, hleft⟩ := List.append_inj (htext.symm.trans htext') hlength
  have hleft : left' = left := (List.cons_eq_cons.mp hleft).2.symm
  subst hleft
  have huser : ∃ user, left' = "2FA FAIL user='".toList ++ user := by
    rcases hcode with hcode | haccess
    · exact failedCode_letter (by decide) hcode
    rcases hcode' with hcode' | haccess'
    · exact failedCode_letter (by decide) hcode'
    -- client-access has its client from before the two names
    obtain ⟨name, hname⟩ := @client_fixed "client-access: refused cn='"
      "client-access: refused cn=".toList (by decide) (by decide) left'
    rw [failTail_eq] at haccess haccess'
    obtain ⟨rest, hrest, h⟩ := Option.bind_eq_some_iff.mp haccess
    obtain ⟨⟨client, address, why⟩, hfields, heq⟩ := Option.bind_eq_some_iff.mp h
    obtain ⟨rest', hrest', h'⟩ := Option.bind_eq_some_iff.mp haccess'
    obtain ⟨⟨client', address', why'⟩, hfields', heq'⟩ := Option.bind_eq_some_iff.mp h'
    have hclient : client = ['a'] := congrArg Prod.fst (Option.some.inj heq)
    have hclient' : client' = ['b'] := congrArg Prod.fst (Option.some.inj heq')
    have hsame : client = client' :=
      (hname _ _ _ _ _ hrest hfields).trans (hname _ _ _ _ _ hrest' hfields').symm
    rw [hclient, hclient'] at hsame
    exact absurd hsame (by decide)
  obtain ⟨user, rfl⟩ := huser
  have hhead : text = failHead stamp ++ user := by
    rw [htext, failHead, List.append_assoc]
    rfl
  rw [hhead] at ha hb
  exact ⟨user, hhead, hstamp, quote_not_mem_of_letters hstamp ha hb rfl rfl⟩

end Last

section Reading

variable {python : LogPython}

theorem parseRejection_some_iff {hit : Refused} :
    parseRejection python line = .ok (some hit) ↔
      ∃ stamp, rejectionAt python line = some (stamp, hit.client, hit.reason, hit.address) ∧
        python.mktime stamp = some hit.ts := by
  unfold parseRejection
  constructor
  · intro h
    split at h
    · cases h
    · rename_i stamp client why address hat
      split at h
      · cases h
      · rename_i ts hts
        cases h
        exact ⟨stamp, hat, hts⟩
  · rintro ⟨stamp, hat, hts⟩
    rw [hat]
    dsimp only
    rw [hts]

theorem parseRejection_none_iff :
    parseRejection python line = .ok none ↔ rejectionAt python line = none := by
  unfold parseRejection
  constructor
  · intro h
    split at h
    · assumption
    · split at h <;> cases h
  · intro h
    rw [h]

theorem rejections_cons_iff {lines : List Text} {found : List Refused} :
    rejections python (line :: lines) = .ok found ↔ ∃ hit later,
      parseRejection python line = .ok hit ∧ rejections python lines = .ok later ∧
        found = hit.toList ++ later := by
  rw [rejections]
  constructor
  · intro h
    split at h
    · rename_i hit later hhit hlater
      cases h
      exact ⟨hit, later, hhit, hlater, rfl⟩
    · cases h
  · rintro ⟨hit, later, hhit, hlater, rfl⟩
    rw [hhit, hlater]

theorem rejections_append_iff {before after : List Text} {found : List Refused} :
    rejections python (before ++ after) = .ok found ↔ ∃ first later,
      rejections python before = .ok first ∧ rejections python after = .ok later ∧
        found = first ++ later := by
  induction before generalizing found with
  | nil =>
      constructor
      · intro h
        exact ⟨[], found, rfl, h, rfl⟩
      · rintro ⟨first, later, hfirst, hlater, rfl⟩
        cases hfirst
        exact hlater
  | cons line before ih =>
      rw [List.cons_append, rejections_cons_iff]
      constructor
      · rintro ⟨hit, rest, hhit, hrest, rfl⟩
        obtain ⟨first, later, hfirst, hlater, rfl⟩ := ih.mp hrest
        exact ⟨hit.toList ++ first, later,
          rejections_cons_iff.mpr ⟨hit, first, hhit, hfirst, rfl⟩, hlater,
          (List.append_assoc _ _ _).symm⟩
      · rintro ⟨all, later, hall, hlater, rfl⟩
        obtain ⟨hit, first, hhit, hfirst, rfl⟩ := rejections_cons_iff.mp hall
        exact ⟨hit, first ++ later, hhit, ih.mpr ⟨first, later, hfirst, hlater, rfl⟩,
          List.append_assoc _ _ _⟩

theorem rejections_nil_iff {lines : List Text} :
    rejections python lines = .ok [] ↔ ∀ line ∈ lines, rejectionAt python line = none := by
  induction lines with
  | nil => simp [rejections]
  | cons line lines ih =>
      rw [rejections_cons_iff, List.forall_mem_cons, ← ih, ← parseRejection_none_iff]
      constructor
      · rintro ⟨hit, later, hhit, hlater, hfound⟩
        obtain ⟨hnone, rfl⟩ := List.append_eq_nil_iff.mp hfound.symm
        rw [Option.toList_eq_nil_iff] at hnone
        subst hnone
        exact ⟨hhit, hlater⟩
      · rintro ⟨hhit, hlater⟩
        exact ⟨none, [], hhit, hlater, rfl⟩

theorem rejections_singleton_iff {hit : Refused} :
    rejections python [line] = .ok [hit] ↔ parseRejection python line = .ok (some hit) := by
  rw [rejections_cons_iff]
  constructor
  · rintro ⟨found, later, hfound, hlater, heq⟩
    cases hlater
    cases found with
    | none => cases heq
    | some found =>
        cases heq
        exact hfound
  · intro h
    exact ⟨some hit, [], h, rfl, rfl⟩

end Reading

section Written

variable {cn ip : Text} {reason : FailReason}

def IsAddressText (ip : Text) : Prop := ip ≠ [] ∧ ∀ c ∈ ip, addressChar c = true

instance (ip : Text) : Decidable (IsAddressText ip) :=
  have := List.decidableBAll (fun c => addressChar c = true) ip
  inferInstanceAs (Decidable (ip ≠ [] ∧ ∀ c ∈ ip, addressChar c = true))

theorem failTail_chars (hcn : ∀ c ∈ cn, fieldChar c = true) (hip : ∀ c ∈ ip, fieldChar c = true) :
    ∀ c ∈ failTail cn ip reason, c.toNat < 128 ∧ lineBreak c = false := by
  have hplain (text : Text) (h : ∀ c ∈ text, fieldChar c = true) :
      ∀ c ∈ text, c.toNat < 128 ∧ lineBreak c = false := by
    intro c hc
    have hrange := fieldChar_iff.mp (h c hc)
    exact ⟨by omega, lineBreak_of_fieldChar (h c hc)⟩
  have hword (word : String)
      (h : (word.toList.all fun c => c.toNat < 128 && !lineBreak c) = true) :
      ∀ c ∈ word.toList, c.toNat < 128 ∧ lineBreak c = false := by
    intro c hc
    simpa using List.all_eq_true.mp h c hc
  unfold failTail
  simp only [List.forall_mem_append]
  exact ⟨⟨⟨⟨⟨hword _ (by decide), hplain cn hcn⟩, hword _ (by decide)⟩,
    hplain ip hip⟩, hword _ (by decide)⟩, hplain _ (fieldChar_reason reason)⟩

theorem failHead_chars (h : IsStamp (fun _ => false) stamp) :
    ∀ c ∈ failHead stamp, c.toNat < 128 ∧ lineBreak c = false := by
  have hword : (" 2FA FAIL user='".toList.all fun c => c.toNat < 128 && !lineBreak c) = true := by
    decide
  unfold failHead
  rw [List.forall_mem_append]
  refine ⟨h.ascii, ?_⟩
  intro c hc
  simpa using List.all_eq_true.mp hword c hc

theorem decodedLines_failLine {user : List UInt8}
    (hstamp : IsStamp (fun _ => false) stamp) (huser : 10 ∉ user)
    (hcn : validateName cn = .ok ()) (hip : IsAddressText ip)
    {parts : List Text} {last : Text}
    (hparts : (utf8Replace user).splitOnP lineBreak = parts ++ [last]) :
    decodedLines (failLine stamp user cn ip reason) =
      (parts ++ [last ++ failTail cn ip reason]).modifyHead (failHead stamp ++ ·) := by
  have hhead := failHead_chars hstamp
  have htail := @failTail_chars cn ip reason (fieldChar_of_validateName hcn)
    fun c hc => fieldChar_of_addressChar (hip.2 c hc)
  have hshown : shownAddress ip = ip := if_neg hip.1
  have hascii : ∀ c ∈ failTail cn ip reason ++ ['\n'], c.toNat < 128 := by
    rw [List.forall_mem_append]
    exact ⟨fun c hc => (htail c hc).1, by simp⟩
  -- the quote behind the user name ends a character that is not complete
  have hdecoded : utf8Replace (failLine stamp user cn ip reason) =
      (failHead stamp ++ (utf8Replace user ++ failTail cn ip reason)) ++ ['\n'] := by
    rw [failLine, hshown, List.append_assoc,
      utf8Replace_utf8_append fun c hc => (hhead c hc).1, utf8Replace_append_utf8 hascii]
    simp only [List.append_assoc]
  have hnewline : '\n' ∉ failHead stamp ++ (utf8Replace user ++ failTail cn ip reason) := by
    rw [List.mem_append, List.mem_append, not_or, not_or]
    exact ⟨fun hmem => absurd (hhead _ hmem).2 (by decide), newline_not_mem_utf8Replace huser,
      fun hmem => absurd (htail _ hmem).2 (by decide)⟩
  have hreturn : (failHead stamp ++ (utf8Replace user ++ failTail cn ip reason)).getLast? ≠
      some '\r' := by
    intro hlast
    have hne : failTail cn ip reason ≠ [] := by
      rw [failTail_eq]
      exact List.cons_ne_nil _ _
    rw [List.getLast?_append_of_ne_nil _ (List.append_ne_nil_of_right_ne_nil _ hne),
      List.getLast?_append_of_ne_nil _ hne] at hlast
    exact absurd (htail _ (List.mem_of_getLast? hlast)).2 (by decide)
  rw [decodedLines, strSplitlines, hdecoded, splitlinesFrom_eq_splitOnP hnewline hreturn,
    splitOnP_append_of_not _ fun c hc => (hhead c hc).2,
    splitOnP_append_right (fun c hc => (htail c hc).2) hparts]
  cases parts <;> rfl

end Written

section Attribution

variable (python : LogPython)

def Attributed (log : List UInt8) (cn ip : Text) (reason : FailReason) : Prop :=
  ∃ ts, rejections python (decodedLines log) =
    .ok [⟨ts, cn, "2FA: ".toList ++ plainReason reason.text, ip⟩]

-- A decoded user name without quotes and line breaks; or one of several lines, the first
-- and those between not taken for rejections, and the last one again a line of oath.sh up
-- to its user name, which has no quotes.
def Attributable (user : Text) : Prop :=
  ('\'' ∉ user ∧ ∀ c ∈ user, lineBreak c = false) ∨
    ∃ first between stamp name,
      user.splitOnP lineBreak = first :: between ++ [failHead stamp ++ name] ∧
      afterUser first = none ∧ (∀ line ∈ between, rejectionAt python line = none) ∧
      IsStamp python.wide stamp ∧ python.mktime stamp ≠ none ∧ '\'' ∉ name

variable {python} {cn ip : Text} {reason : FailReason}

theorem parseRejection_failTail {name : Text} (hstamp : IsStamp python.wide stamp)
    (hclock : python.mktime stamp ≠ none) (hname : '\'' ∉ name)
    (hcn : validateName cn = .ok ()) (hip : IsAddressText ip) :
    ∃ ts, parseRejection python (failHead stamp ++ name ++ failTail cn ip reason) =
      .ok (some ⟨ts, cn, "2FA: ".toList ++ plainReason reason.text, ip⟩) := by
  obtain ⟨ts, hts⟩ := Option.ne_none_iff_exists'.mp hclock
  refine ⟨ts, parseRejection_some_iff.mpr ⟨stamp, ?_, hts⟩⟩
  have hcn' := quote_not_mem_fieldChar (fieldChar_of_validateName hcn)
  have hip' := quote_not_mem_fieldChar fun c hc => fieldChar_of_addressChar (hip.2 c hc)
  rw [List.append_assoc, rejectionAt_failHead hstamp, afterUser_plain hname hcn' hip']
  rfl

variable {stamp : Text} {user : List UInt8}

theorem attributed_of_attributable (hstamp : IsStamp (fun _ => false) stamp)
    (hclock : python.mktime stamp ≠ none) (huser : 10 ∉ user)
    (h : Attributable python (utf8Replace user)) (hcn : validateName cn = .ok ())
    (hip : IsAddressText ip) :
    Attributed python (failLine stamp user cn ip reason) cn ip reason := by
  rcases h with ⟨hquote, hbreak⟩ | ⟨first, between, later, name, hparts, hfirst, hbetween,
    hlater, hlaterClock, hname⟩
  · have hparts : (utf8Replace user).splitOnP lineBreak = [] ++ [utf8Replace user] :=
      List.splitOnP_eq_singleton hbreak
    obtain ⟨ts, hts⟩ := parseRejection_failTail hstamp.widen hclock hquote hcn hip
    refine ⟨ts, ?_⟩
    rw [decodedLines_failLine hstamp huser hcn hip hparts, List.nil_append, List.modifyHead_cons,
      ← List.append_assoc]
    exact rejections_singleton_iff.mpr hts
  · obtain ⟨ts, hts⟩ := parseRejection_failTail hlater hlaterClock hname hcn hip
    refine ⟨ts, ?_⟩
    rw [decodedLines_failLine hstamp huser hcn hip hparts, List.cons_append,
      List.modifyHead_cons, ← List.cons_append]
    refine rejections_append_iff.mpr ⟨[], _, rejections_nil_iff.mpr ?_,
      rejections_singleton_iff.mpr hts, rfl⟩
    rw [List.forall_mem_cons]
    exact ⟨by rw [rejectionAt_failHead hstamp.widen, hfirst]; rfl, hbetween⟩

theorem last_of_letters {before : List Text} {last : Text} {ts ts' : Int}
    (ha : rejections python (before ++ [last ++ failTail ['a'] ip reason]) =
      .ok [⟨ts, ['a'], "2FA: ".toList ++ plainReason reason.text, ip⟩])
    (hb : rejections python (before ++ [last ++ failTail ['b'] ip reason]) =
      .ok [⟨ts', ['b'], "2FA: ".toList ++ plainReason reason.text, ip⟩]) :
    (∀ line ∈ before, rejectionAt python line = none) ∧
      ∃ stamp name, last = failHead stamp ++ name ∧ IsStamp python.wide stamp ∧
        python.mktime stamp ≠ none ∧ '\'' ∉ name := by
  obtain ⟨first, later, hfirst, hlater, heq⟩ := rejections_append_iff.mp ha
  obtain ⟨first', later', hfirst', hlater', heq'⟩ := rejections_append_iff.mp hb
  have hsame : first' = first := Except.ok.inj (hfirst'.symm.trans hfirst)
  subst hsame
  have hnil : first' = [] := by
    cases first' with
    | nil => rfl
    | cons hit more =>
        have hhit := (List.cons_eq_cons.mp heq).1
        have hhit' := (List.cons_eq_cons.mp heq').1
        have hclient : ['a'] = ['b'] := congrArg Refused.client (hhit.trans hhit'.symm)
        exact absurd hclient (by decide)
  subst hnil
  rw [List.nil_append] at heq heq'
  rw [← heq] at hlater
  rw [← heq'] at hlater'
  obtain ⟨stamp, hstamp, hts⟩ := parseRejection_some_iff.mp (rejections_singleton_iff.mp hlater)
  obtain ⟨_, hstamp', -⟩ := parseRejection_some_iff.mp (rejections_singleton_iff.mp hlater')
  obtain ⟨name, hlast, hvalid, hquote⟩ := failHead_of_letters hstamp hstamp'
  exact ⟨rejections_nil_iff.mp hfirst, stamp, name, hlast, hvalid, by simp [hts], hquote⟩

theorem attributable_of_attributed (hstamp : IsStamp (fun _ => false) stamp) (huser : 10 ∉ user)
    (h : ∀ cn ip reason, validateName cn = .ok () → IsAddressText ip →
      Attributed python (failLine stamp user cn ip reason) cn ip reason) :
    Attributable python (utf8Replace user) := by
  have hip : IsAddressText "192.0.2.1".toList := by decide
  have hcna : validateName ['a'] = .ok () := by decide
  have hcnb : validateName ['b'] = .ok () := by decide
  obtain ⟨ts, ha⟩ := h ['a'] _ .usernameDoesNotMatchCertificate hcna hip
  obtain ⟨ts', hb⟩ := h ['b'] _ .usernameDoesNotMatchCertificate hcnb hip
  have hne := List.splitOnP_ne_nil lineBreak (utf8Replace user)
  obtain ⟨parts, last, hparts⟩ : ∃ parts last,
      (utf8Replace user).splitOnP lineBreak = parts ++ [last] :=
    ⟨_, _, (List.dropLast_append_getLast hne).symm⟩
  rw [decodedLines_failLine hstamp huser hcna hip hparts] at ha
  rw [decodedLines_failLine hstamp huser hcnb hip hparts] at hb
  cases parts with
  | nil =>
      rw [List.nil_append, List.modifyHead_cons, ← List.append_assoc] at ha hb
      have hbreak : ∀ c ∈ last, lineBreak c = false :=
        not_of_mem_splitOnP (by rw [hparts]; exact List.mem_singleton_self _)
      obtain ⟨_, hata, -⟩ := parseRejection_some_iff.mp (rejections_singleton_iff.mp ha)
      obtain ⟨_, hatb, -⟩ := parseRejection_some_iff.mp (rejections_singleton_iff.mp hb)
      rw [eq_of_splitOnP_singleton hparts]
      exact .inl ⟨quote_not_mem_of_letters hstamp.widen hata hatb rfl rfl, hbreak⟩
  | cons first between =>
      rw [List.cons_append, List.modifyHead_cons, ← List.cons_append] at ha hb
      obtain ⟨hbefore, later, name, rfl, hlater, hclock, hname⟩ := last_of_letters ha hb
      rw [List.forall_mem_cons, rejectionAt_failHead hstamp.widen, Option.map_eq_none_iff]
        at hbefore
      exact .inr ⟨first, between, later, name, hparts, hbefore.1, hbefore.2, hlater, hclock, hname⟩

-- For one user name, sent at one time: every certificate, address and reason.
theorem fail_attributed_iff (python : LogPython) (stamp : Text) (user : List UInt8)
    (hstamp : IsStamp (fun _ => false) stamp) (hclock : python.mktime stamp ≠ none)
    (huser : 10 ∉ user) :
    (∀ cn ip reason, validateName cn = .ok () → IsAddressText ip →
      Attributed python (failLine stamp user cn ip reason) cn ip reason) ↔
        Attributable python (utf8Replace user) := by
  constructor
  · intro h
    exact attributable_of_attributed hstamp huser h
  · intro h cn ip reason hcn hip
    exact attributed_of_attributable hstamp hclock huser h hcn hip

def secondsPython : LogPython where
  wide := fun _ => false
  letter := fun _ => false
  mktime := fun stamp => ((decimal? (stamp.drop 17)).filter (· < 62)).map Int.ofNat

def loggedAt : Text := "2026-01-02 03:04:05".toList

theorem plain_user_attributed : Attributed secondsPython
    (failLine loggedAt (utf8 "mallory".toList) "alice".toList "192.0.2.1".toList .wrongCode)
    "alice".toList "192.0.2.1".toList .wrongCode := by
  refine (fail_attributed_iff secondsPython loggedAt (utf8 "mallory".toList) (by decide)
    (by decide) (by decide)).mpr ?_ _ _ _ (by decide) (by decide)
  refine .inl ?_
  have hread : utf8Replace (utf8 "mallory".toList) = "mallory".toList := by decide
  rw [hread]
  have hplain : "mallory".toList.all (! lineBreak ·) = true := by decide
  exact ⟨by decide, fun c hc => by simpa using List.all_eq_true.mp hplain c hc⟩

-- A user name with a quote in it puts the failure on another certificate.
theorem quoted_user_forges_rejection :
    validateName "alice".toList = .ok () ∧ IsAddressText "192.0.2.1".toList ∧
      (10 : UInt8) ∉ utf8 "x' cn='bob' from='198.51.100.7' reason=wrong-code ".toList ∧
      ¬Attributed secondsPython
        (failLine loggedAt (utf8 "x' cn='bob' from='198.51.100.7' reason=wrong-code ".toList)
          "alice".toList "192.0.2.1".toList .usernameDoesNotMatchCertificate)
        "alice".toList "192.0.2.1".toList .usernameDoesNotMatchCertificate := by
  refine ⟨by decide +kernel, by decide +kernel, by decide +kernel, ?_⟩
  rintro ⟨ts, hts⟩
  have hread : rejections secondsPython (decodedLines
      (failLine loggedAt (utf8 "x' cn='bob' from='198.51.100.7' reason=wrong-code ".toList)
        "alice".toList "192.0.2.1".toList .usernameDoesNotMatchCertificate)) =
      .ok [⟨5, "bob".toList, "2FA: wrong code".toList, "198.51.100.7".toList⟩] := by
    decide +kernel
  have hclient : "bob".toList = "alice".toList :=
    congrArg Refused.client (List.cons_eq_cons.mp (Except.ok.inj (hread.symm.trans hts))).1
  exact absurd hclient (by decide)

end Attribution

end OpenvpnServer.Collector
