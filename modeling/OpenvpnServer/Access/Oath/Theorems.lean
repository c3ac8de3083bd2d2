import Mathlib.Data.List.Infix
import Mathlib.Data.List.Nodup
import Mathlib.Data.List.Perm.Subperm
import OpenvpnServer.Access.Oath

namespace OpenvpnServer.Oath

open OpenvpnServer.Lib

variable {step now : Nat} {lines used : List Line} {secret : Text}

section Steps

variable (hotp : Text → Nat → Nat) (secret : Text)

-- The run of this line was let in for this step. A text of a distant step that
-- happens to be the same is not what oathtool accepted.
def SignedFor (step : Nat) (line : Line) : Prop :=
  step ∈ window line.time ∧ generated hotp secret step line.code = true

instance (step : Nat) (line : Line) : Decidable (SignedFor hotp secret step line) :=
  inferInstanceAs (Decidable (_ ∧ _))

def Apart (a b : Line) : Prop :=
  ∀ step, ¬ (SignedFor hotp secret step a ∧ SignedFor hotp secret step b)

def stepOf (line : Line) : Nat :=
  ((window line.time).find? fun step => generated hotp secret step line.code).getD 0

variable {hotp secret}

theorem mem_window (h : step ∈ window now) :
    now / 30 ≤ step + 1 ∧ step ≤ now / 30 + 1 := by
  simp only [window, List.mem_cons, List.not_mem_nil, or_false] at h
  omega

theorem signedFor_stepOf {line : Line} (h : ∃ step, SignedFor hotp secret step line) :
    SignedFor hotp secret (stepOf hotp secret line) line := by
  obtain ⟨step, hw, hg⟩ := h
  unfold stepOf
  cases hf : (window line.time).find? fun step => generated hotp secret step line.code with
  | none => exact absurd hg (List.find?_eq_none.mp hf step hw)
  | some found => exact ⟨List.mem_of_find?_eq_some hf, by simpa using List.find?_some hf⟩

theorem value_eq_of_generated {a b : Text} (ha : generated hotp secret step a = true)
    (hb : generated hotp secret step b = true)
    (h : a.length = b.length ∨ value a = value b) : value a = value b := by
  simp only [generated, decide_eq_true_eq] at ha hb
  rcases h with h | h
  · rw [ha, hb, h]
  · exact h

-- A step is accepted for 90 seconds, less than the 120 the memory covers.
theorem SignedFor.recent {line : Line}
    (h : SignedFor hotp secret step line) (hnow : step ∈ window now) : now ≤ line.time + 120 := by
  have hline := mem_window h.1
  have hw := mem_window hnow
  omega

-- Lines accepted between two uses of a step are of the four steps around it, so
-- the memory of five does not run full before the step is over.
theorem length_between {first : Line}
    (hfirst : SignedFor hotp secret step first) (hnow : step ∈ window now)
    (hsigned : ∀ line ∈ lines, ∃ step, SignedFor hotp secret step line)
    (htimes : ∀ line ∈ lines, first.time ≤ line.time ∧ line.time ≤ now)
    (hapart : (first :: lines).Pairwise (Apart hotp secret)) : lines.length ≤ 4 := by
  rw [List.pairwise_cons] at hapart
  have hnodup : (step :: lines.map (stepOf hotp secret)).Nodup := by
    rw [List.nodup_cons]
    constructor
    · intro hmem
      obtain ⟨line, hline, he⟩ := List.mem_map.mp hmem
      have hs := signedFor_stepOf (hsigned line hline)
      rw [he] at hs
      exact hapart.1 line hline step ⟨hfirst, hs⟩
    · rw [List.Nodup, List.pairwise_map]
      refine hapart.2.imp_of_mem fun {a b} ha hb hab he => ?_
      have hs := signedFor_stepOf (hsigned b hb)
      rw [← he] at hs
      exact hab _ ⟨signedFor_stepOf (hsigned a ha), hs⟩
  have hsub : step :: lines.map (stepOf hotp secret) ⊆ List.range' (step - 2) 5 := by
    intro x hx
    rw [List.mem_range'_1]
    rcases List.mem_cons.mp hx with hx | hx
    · omega
    · obtain ⟨line, hline, rfl⟩ := List.mem_map.mp hx
      have hw := mem_window (signedFor_stepOf (hsigned line hline)).1
      have hstart := mem_window hfirst.1
      have hend := mem_window hnow
      have ht := htimes line hline
      have hlo := Nat.div_le_div_right (c := 30) ht.1
      have hhi := Nat.div_le_div_right (c := 30) ht.2
      omega
  have hle := (hnodup.subperm hsub).length_le
  rw [List.length_cons, List.length_map, List.length_range'] at hle
  omega

end Steps

section Runs

variable (hotp : Text → Nat → Nat) (secrets : Option (Text → Text))

def secretOf (user : Text) : Text := (secrets.getD fun _ => []) user

def signInsOf (s : OathState) (user : Text) : List Line :=
  (s.signIns.filter fun signIn => signIn.user = user).map SignIn.line

def StepsSignInOnce (s : OathState) : Prop :=
  ∀ user step, ((signInsOf s user).filter fun line =>
    decide (SignedFor hotp (secretOf secrets user) step line)).length ≤ 1

-- No line the replay check looks at is, in another number of digits and as
-- another number, a code of a step the submitted code is also from.
def OneText (s : OathState) (attempt : Attempt) : Prop :=
  ∀ line ∈ (s.filesOf attempt.user).used, attempt.now ≤ line.time + 120 →
    ∀ step ∈ window attempt.now, SignedFor hotp (secretOf secrets attempt.user) step line →
      generated hotp (secretOf secrets attempt.user) step attempt.code = true →
        line.code.length = attempt.code.length ∨ value line.code = value attempt.code

instance (s : OathState) (attempt : Attempt) : Decidable (OneText hotp secrets s attempt) := by
  unfold OneText
  infer_instance

-- The sign-ins of one client: in order of time, each for some step and no two
-- for one, and the last five in the client's file.
structure Remembered (secret : Text) (now : Nat) (used lines : List Line) : Prop where
  remembered : lines.rtake 5 <:+ used
  ordered : lines.Pairwise fun a b => a.time ≤ b.time
  past : ∀ line ∈ lines, line.time ≤ now
  signed : ∀ line ∈ lines, ∃ step, SignedFor hotp secret step line
  apart : lines.Pairwise (Apart hotp secret)

def OathInv (s : OathState) : Prop :=
  ∀ user, Remembered hotp (secretOf secrets user) s.now (s.filesOf user).used (signInsOf s user)

variable {hotp secrets}

theorem checkCode_spec {files files' : Files} {code : Text}
    {verdict : Except Reason Unit} (h : checkCode hotp files secret code now = (verdict, files')) :
    (verdict = .ok () ∧ (∃ step, SignedFor hotp secret step ⟨now, code⟩) ∧
      usedLately files.used now code = false ∧
      files'.used = files.used.rtake 4 ++ [⟨now, code⟩]) ∨
    ((∃ reason, verdict = .error reason) ∧ files'.used = files.used) := by
  unfold checkCode at h
  simp only at h
  split at h
  · cases h
    exact Or.inr ⟨⟨_, rfl⟩, rfl⟩
  · split at h
    · cases h
      exact Or.inr ⟨⟨_, rfl⟩, rfl⟩
    · rename_i hoath
      split at h
      · cases h
        exact Or.inr ⟨⟨_, rfl⟩, rfl⟩
      · rename_i hused
        cases h
        rw [Bool.not_eq_false, oathtool, List.any_eq_true] at hoath
        exact Or.inl ⟨rfl, hoath, by simpa using hused, rfl⟩

theorem verify_spec {files files' : Files} {attempt : Attempt} {verdict : Except Reason Unit}
    (h : verify hotp secrets files attempt = (verdict, files')) :
    (verdict = .ok () ∧
      (∃ step, SignedFor hotp (secretOf secrets attempt.user) step ⟨attempt.now, attempt.code⟩) ∧
      usedLately files.used attempt.now attempt.code = false ∧
      files'.used = files.used.rtake 4 ++ [⟨attempt.now, attempt.code⟩]) ∨
    ((∃ reason, verdict = .error reason) ∧ files'.used = files.used) := by
  unfold verify at h
  split at h
  · cases h
    exact Or.inr ⟨⟨_, rfl⟩, rfl⟩
  · split at h
    · cases h
      exact Or.inr ⟨⟨_, rfl⟩, rfl⟩
    · split at h
      · cases h
        exact Or.inr ⟨⟨_, rfl⟩, rfl⟩
      · cases secrets with
        | none =>
            cases h
            exact Or.inr ⟨⟨_, rfl⟩, rfl⟩
        | some secret =>
            simp only at h
            split at h
            · cases h
              exact Or.inr ⟨⟨_, rfl⟩, rfl⟩
            · exact checkCode_spec h

theorem rtake_suffix_rtake {α : Type*} {a b : List α} (n : Nat) (h : a <:+ b) :
    a.rtake n <:+ b.rtake n := by
  rw [List.rtake_eq_reverse_take_reverse, List.rtake_eq_reverse_take_reverse,
    List.reverse_suffix]
  exact List.IsPrefix.take (List.reverse_prefix.mpr h) n

theorem Remembered.later {now' : Nat}
    (h : Remembered hotp secret now used lines) (hle : now ≤ now') :
    Remembered hotp secret now' used lines :=
  { h with past := fun line hline => (h.past line hline).trans hle }

theorem Remembered.mem_used {first : Line}
    (h : Remembered hotp secret now used lines) (hmem : first ∈ lines)
    (hfirst : SignedFor hotp secret step first) (hnow : step ∈ window now) : first ∈ used := by
  have hsplit : lines = lines.rdrop 5 ++ lines.rtake 5 := by
    rw [List.rdrop, List.rtake, List.take_append_drop]
  rw [hsplit, List.mem_append] at hmem
  rcases hmem with hold | hrecent
  · have hsub : (first :: lines.rtake 5).Sublist lines := by
      conv_rhs => rw [hsplit]
      exact (List.singleton_sublist.mpr hold).append (List.Sublist.refl _)
    have hlen : (lines.rtake 5).length = 5 := by
      have hpos := List.length_pos_of_mem hold
      rw [List.rdrop, List.length_take] at hpos
      rw [List.rtake, List.length_drop]
      omega
    have hle : (lines.rtake 5).length ≤ 4 := by
      have hordered := List.pairwise_cons.mp (h.ordered.sublist hsub)
      refine length_between hfirst hnow ?_ ?_ (h.apart.sublist hsub)
      · exact fun line hline => h.signed line (hsub.subset (List.mem_cons_of_mem _ hline))
      · exact fun line hline => ⟨hordered.1 line hline,
          h.past line (hsub.subset (List.mem_cons_of_mem _ hline))⟩
    omega
  · exact h.remembered.subset hrecent

theorem Remembered.signIn {code : Text}
    (h : Remembered hotp secret now used lines)
    (hsigned : ∃ step, SignedFor hotp secret step ⟨now, code⟩)
    (hused : usedLately used now code = false)
    (hone : ∀ line ∈ used, now ≤ line.time + 120 → ∀ step ∈ window now,
      SignedFor hotp secret step line → generated hotp secret step code = true →
        line.code.length = code.length ∨ value line.code = value code) :
    Remembered hotp secret now (used.rtake 4 ++ [⟨now, code⟩]) (lines ++ [⟨now, code⟩]) := by
  refine ⟨?_, ?_, ?_, ?_, ?_⟩
  · rw [List.rtake_concat_succ]
    have htake := rtake_suffix_rtake 4 h.remembered
    rw [List.rtake_eq_reverse_take_reverse _ 4, List.rtake_eq_reverse_take_reverse lines,
      List.reverse_reverse, List.take_take] at htake
    obtain ⟨older, ho⟩ := htake
    refine ⟨older, ?_⟩
    rw [← List.append_assoc, ← ho, List.rtake_eq_reverse_take_reverse lines]
    rfl
  · rw [List.pairwise_append]
    refine ⟨h.ordered, List.pairwise_singleton _ _, fun a ha b hb => ?_⟩
    rw [List.mem_singleton.mp hb]
    exact h.past a ha
  · intro line hline
    rcases List.mem_append.mp hline with hold | hnew
    · exact h.past line hold
    · rw [List.mem_singleton.mp hnew]
  · intro line hline
    rcases List.mem_append.mp hline with hold | hnew
    · exact h.signed line hold
    · rw [List.mem_singleton.mp hnew]
      exact hsigned
  · rw [List.pairwise_append]
    refine ⟨h.apart, List.pairwise_singleton _ _, fun a ha b hb => ?_⟩
    rw [List.mem_singleton.mp hb]
    rintro step ⟨hfirst, hagain⟩
    -- the earlier line is in the file, within 120 seconds and the same number
    have hmem := h.mem_used ha hfirst hagain.1
    have hrecent := hfirst.recent hagain.1
    have hvalue := value_eq_of_generated hfirst.2 hagain.2
      (hone a hmem hrecent step hagain.1 hfirst hagain.2)
    have hany : usedLately used now code = true := by
      rw [usedLately, List.any_eq_true]
      exact ⟨a, hmem, by simp [hrecent, hvalue]⟩
    rw [hany] at hused
    cases hused

theorem signInsOf_concat (s : OathState) (files : Dict Text Files) (now : Nat)
    (signIn : SignIn) (user : Text) :
    signInsOf ⟨files, s.signIns ++ [signIn], now⟩ user =
      signInsOf s user ++ if signIn.user = user then [signIn.line] else [] := by
  unfold signInsOf
  by_cases h : signIn.user = user <;> simp [h]

theorem filesOf_set (s : OathState) (user : Text) (files : Files) (signIns : List SignIn)
    (now : Nat) (other : Text) :
    OathState.filesOf ⟨s.files.set user files, signIns, now⟩ other =
      if other = user then files else s.filesOf other := by
  unfold OathState.filesOf
  rw [Dict.get?_set]
  by_cases h : other = user <;> simp [h]

theorem oathInv_step {s s' : OathState} {attempt : Attempt} (h : OathInv hotp secrets s)
    (hone : OneText hotp secrets s attempt) (hs : s.step hotp secrets attempt = some s') :
    OathInv hotp secrets s' := by
  unfold OathState.step at hs
  split at hs
  · cases hs
  · rename_i hnow
    have hle : s.now ≤ attempt.now := by omega
    intro user
    have hother := (h user).later hle
    have hown := (h attempt.user).later hle
    cases hv : verify hotp secrets (s.filesOf attempt.user) attempt with
    | mk verdict files =>
    rcases verify_spec hv with ⟨rfl, hsigned, hused, hfiles⟩ | ⟨⟨reason, rfl⟩, hfiles⟩
    · rw [hv] at hs
      cases hs
      rw [filesOf_set, signInsOf_concat]
      by_cases hu : user = attempt.user
      · subst hu
        rw [if_pos rfl, if_pos rfl, hfiles]
        exact hown.signIn hsigned hused hone
      · rw [if_neg hu, if_neg (Ne.symm hu), List.append_nil]
        exact hother
    · rw [hv] at hs
      cases hs
      rw [filesOf_set]
      by_cases hu : user = attempt.user
      · subst hu
        rw [if_pos rfl, hfiles]
        exact hown
      · rw [if_neg hu]
        exact hother

theorem Remembered.once
    (h : Remembered hotp secret now used lines) (step : Nat) :
    (lines.filter fun line => decide (SignedFor hotp secret step line)).length ≤ 1 := by
  by_contra hlen
  have hpair := h.apart.sublist
    (List.filter_sublist (p := fun line => decide (SignedFor hotp secret step line)))
  have hsigned := fun line (hmem : line ∈ lines.filter fun line =>
    decide (SignedFor hotp secret step line)) => of_decide_eq_true (List.mem_filter.mp hmem).2
  cases hf : lines.filter fun line => decide (SignedFor hotp secret step line) with
  | nil => simp [hf] at hlen
  | cons a rest =>
      cases rest with
      | nil => simp [hf] at hlen
      | cons b rest =>
          rw [hf] at hpair hsigned
          exact (List.pairwise_cons.mp hpair).1 b List.mem_cons_self step
            ⟨hsigned a List.mem_cons_self, hsigned b (List.mem_cons_of_mem _ List.mem_cons_self)⟩

theorem step_signs_in_once {files : Dict Text Files} {s : OathState}
    (hr : Reaches (OathState.step hotp secrets) (OneText hotp secrets) (.start files) s) :
    StepsSignInOnce hotp secrets s := by
  have hinv : OathInv hotp secrets s := by
    refine hr.invariant (P := OathInv hotp secrets)
      (fun before attempt after h hone hs => oathInv_step h hone hs) fun user => ?_
    exact ⟨List.nil_suffix, List.Pairwise.nil, by simp [signInsOf, OathState.start],
      by simp [signInsOf, OathState.start], List.Pairwise.nil⟩
  exact fun user step => (hinv user).once step

end Runs

def sampleHotp (_secret : Text) (step : Nat) : Nat := 7654321 + step

def sampleSecrets : Option (Text → Text) :=
  some fun user => if user = "alice".toList then "JBSWY3DP".toList else []

def signingIn (code : String) (now : Nat) : Attempt :=
  ⟨"alice\n".toList ++ code.toList ++ "\n".toList, "alice".toList, now⟩

def plainRun : List Attempt :=
  [signingIn "654323" 60, signingIn "654323" 75, signingIn "654324" 95]

theorem same_code_signs_in_once : ∃ s,
    runSteps (OathState.step sampleHotp sampleSecrets) (.start .empty) plainRun = some s ∧
    signInsOf s "alice".toList = [⟨60, "654323".toList⟩, ⟨95, "654324".toList⟩] ∧
    StepsSignInOnce sampleHotp sampleSecrets s := by
  have hallowed : AllowedRun (OathState.step sampleHotp sampleSecrets)
      (OneText sampleHotp sampleSecrets) (.start .empty) plainRun := by decide
  refine ⟨_, rfl, by decide, ?_⟩
  exact step_signs_in_once (Reaches.of_runSteps rfl hallowed)

theorem longer_code_signs_in_again : ∃ s,
    runSteps (OathState.step sampleHotp sampleSecrets) (.start .empty)
      [signingIn "654323" 60, signingIn "7654323" 61] = some s ∧
    ¬ StepsSignInOnce sampleHotp sampleSecrets s := by
  refine ⟨_, rfl, fun h => ?_⟩
  have honce := h "alice".toList 2
  revert honce
  decide

end OpenvpnServer.Oath
