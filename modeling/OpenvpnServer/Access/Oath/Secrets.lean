import OpenvpnServer.Access.Lease
import OpenvpnServer.Access.Oath
import OpenvpnServer.Lib.Python

-- clients/oath.secrets: the lines "name:secret" that two scripts write, and the two
-- readers of it.
namespace OpenvpnServer.Oath

open OpenvpnServer.Lib
open OpenvpnServer.Access (validName)

section Store

-- grep -v "^${NAME//./\\.}:"
def withoutName (name : Text) (lines : List Text) : List Text :=
  lines.filter fun line => !(name ++ [':']).isPrefixOf line

def secretLine (entry : Text × Text) : Text := entry.1 ++ ':' :: entry.2

inductive SecretStep where
  -- oath-sec-gen.sh, with the digits it made of /dev/urandom
  | gen (name secret : Text)
  -- oath-sec-rm.sh
  | rm (name : Text)

-- The lines of the file, if there is one. There is no step where the script dies.
def secretStep (file : Option (List Text)) : SecretStep → Option (Option (List Text))
  | .gen name secret =>
      if validName name then
        some (some (withoutName name (file.getD []) ++ [secretLine (name, secret)]))
      else none
  | .rm name => if validName name then some (file.map (withoutName name)) else none

def tfaSecrets (lines : List Text) : Dict Text Text :=
  lines.foldl (fun result line =>
    match cutFirst ':' (pyStrip line) with
    | some (name, secret) =>
        if name ≠ [] ∧ secret ≠ [] then result.set name secret else result
    | none => result) .empty

variable {ν : Type} [DecidableEq ν] (number : Text → Option ν)

-- awk compares texts that look like numbers by value.
def awkEqual (x y : Text) : Bool :=
  match number x, number y with
  | some m, some n => m = n
  | _, _ => x = y

-- awk -F: -v u="$user" '$1 == u { print $2; exit }'
def awkSecret (lines : List Text) (user : Text) : Text :=
  match lines.find? fun line => awkEqual number (line.splitOn ':').headI user with
  | some line => ((line.splitOn ':')[1]?).getD []
  | none => []

-- The scripts beside what they are for: the file, and who has which secret.
structure Enrolment where
  enrolled : Dict Text Text
  file : Option (List Text)

def Enrolment.step (s : Enrolment) (step : SecretStep) : Option Enrolment :=
  (secretStep s.file step).map fun file =>
    match step with
    | .gen name secret => ⟨(s.enrolled.erase name).set name secret, file⟩
    | .rm name => ⟨s.enrolled.erase name, file⟩

end Store

section Refinement

-- Such as the forty hexadecimal digits of the script.
def PlainSecret (secret : Text) : Prop := secret ≠ [] ∧ ∀ c ∈ secret, c.isAlphanum = true

def plainSecrets (_ : Enrolment) : SecretStep → Prop
  | .gen _ secret => PlainSecret secret
  | .rm _ => True

structure Stored (s : Enrolment) : Prop where
  lines : s.file.getD [] = s.enrolled.entries.map secretLine
  entries : ∀ entry ∈ s.enrolled.entries, validName entry.1 = true ∧ PlainSecret entry.2

variable {name : Text} {entry : Text × Text} {s next : Enrolment}

theorem plain_of_isAlphanum {c : Char} (h : c.isAlphanum = true) : pySpace c = false ∧ c ≠ ':' := by
  rw [isAlphanum_iff] at h
  constructor
  · simp [pySpace]
    omega
  · rintro rfl
    revert h
    decide

theorem colon_not_mem_name (h : validName name = true) : ':' ∉ name := by
  have hcolon : Access.nameChar ':' = false := by decide
  cases name with
  | nil => exact List.not_mem_nil
  | cons c rest =>
      simp only [validName, Bool.and_eq_true, List.all_eq_true] at h
      rw [List.mem_cons, not_or]
      refine ⟨Ne.symm (plain_of_isAlphanum h.1.1).2, fun hmem => ?_⟩
      rw [h.1.2 ':' hmem] at hcolon
      cases hcolon

theorem isPrefixOf_secretLine (hname : ':' ∉ name) (hentry : ':' ∉ entry.1) :
    (name ++ [':']).isPrefixOf (secretLine entry) = decide (entry.1 = name) := by
  rw [Bool.eq_iff_iff, List.isPrefixOf_iff_prefix, decide_eq_true_eq]
  constructor
  · rintro ⟨rest, hrest⟩
    have hcut := cutFirst_append_cons hname rest
    rw [show name ++ ':' :: rest = entry.1 ++ ':' :: entry.2 by simpa [secretLine] using hrest,
      cutFirst_append_cons hentry] at hcut
    exact congrArg Prod.fst (Option.some.inj hcut)
  · rintro rfl
    exact ⟨entry.2, by simp [secretLine]⟩

theorem Stored.withoutName_lines (h : Stored s) (hname : validName name = true) :
    withoutName name (s.file.getD []) = (s.enrolled.erase name).entries.map secretLine := by
  rw [h.lines, withoutName, List.filter_map]
  refine congrArg _ (List.filter_congr fun entry hentry => ?_)
  rw [Function.comp_apply, isPrefixOf_secretLine (colon_not_mem_name hname)
    (colon_not_mem_name (h.entries entry hentry).1)]
  simp

theorem Stored.step (h : Stored s) {step : SecretStep} (hplain : plainSecrets s step)
    (hstep : s.step step = some next) : Stored next := by
  rw [Enrolment.step, Option.map_eq_some_iff] at hstep
  obtain ⟨file, hfile, rfl⟩ := hstep
  cases step with
  | gen name secret =>
      simp only [secretStep] at hfile
      split at hfile
      · rename_i hname
        cases hfile
        have hnew : name ∉ (s.enrolled.erase name).keys := by simp [Dict.keys_erase]
        have hentries := Dict.entries_set_of_not_mem _ secret hnew
        constructor
        · simp [hentries, h.withoutName_lines hname]
        · intro entry hentry
          rw [hentries, List.mem_append, List.mem_singleton] at hentry
          rcases hentry with hold | rfl
          · exact h.entries entry (List.mem_of_mem_filter hold)
          · exact ⟨hname, hplain⟩
      · cases hfile
  | rm name =>
      simp only [secretStep] at hfile
      split at hfile
      · rename_i hname
        cases hfile
        refine ⟨?_, fun entry hentry => h.entries entry (List.mem_of_mem_filter hentry)⟩
        rw [← h.withoutName_lines hname]
        cases s.file <;> rfl
      · cases hfile

theorem pyStrip_secretLine (hname : validName entry.1 = true) (hsecret : PlainSecret entry.2) :
    pyStrip (secretLine entry) = secretLine entry := by
  have hlast : (secretLine entry).rdropWhile pySpace = secretLine entry := by
    rw [List.rdropWhile_eq_self_iff]
    intro hline
    have hend : (secretLine entry).getLast hline = entry.2.getLast hsecret.1 := by
      simp [secretLine, List.getLast_cons hsecret.1]
    rw [hend, (plain_of_isAlphanum (hsecret.2 _ (List.getLast_mem hsecret.1))).1]
    exact Bool.false_ne_true
  rw [pyStrip, hlast, secretLine]
  cases hsplit : entry.1 with
  | nil => simp [hsplit, validName] at hname
  | cons c rest =>
      simp only [hsplit, validName, Bool.and_eq_true] at hname
      exact List.dropWhile_cons_of_neg (by simp [(plain_of_isAlphanum hname.1.1).1])

theorem splitOn_secretLine (hname : validName entry.1 = true) (hsecret : PlainSecret entry.2) :
    (secretLine entry).splitOn ':' = [entry.1, entry.2] := by
  refine @splitOnP_joinWith (· == ':') ':' rfl [entry.1, entry.2] (by simp) ?_
  intro part hpart c hc
  rw [beq_eq_false_iff_ne]
  rintro rfl
  rcases List.mem_pair.mp hpart with rfl | rfl
  · exact colon_not_mem_name hname hc
  · exact (plain_of_isAlphanum (hsecret.2 _ hc)).2 rfl

theorem Stored.tfaSecrets_eq (h : Stored s) : tfaSecrets (s.file.getD []) = s.enrolled := by
  have hfold : tfaSecrets (s.file.getD []) =
      s.enrolled.entries.foldl (fun d entry => d.set entry.1 entry.2) .empty := by
    rw [h.lines, tfaSecrets, List.foldl_map]
    refine List.foldl_ext _ _ _ fun result entry hentry => ?_
    obtain ⟨hname, hsecret⟩ := h.entries entry hentry
    rw [pyStrip_secretLine hname hsecret, secretLine,
      cutFirst_append_cons (colon_not_mem_name hname)]
    refine if_pos ⟨fun hnil => ?_, hsecret.1⟩
    rw [hnil] at hname
    cases hname
  refine Dict.eq_of_entries ?_
  rw [hfold, Dict.entries_foldl_set s.enrolled.nodup]
  rfl

variable {ν : Type} [DecidableEq ν] {number : Text → Option ν} {user : Text}

theorem Stored.awkSecret_eq (h : Stored s)
    (huser : ∀ name ∈ s.enrolled.keys, awkEqual number name user = true → name = user) :
    awkSecret number (s.file.getD []) user = (s.enrolled.get? user).getD [] := by
  have hself : awkEqual number user user = true := by
    unfold awkEqual
    cases number user <;> simp
  have hfind : (s.file.getD []).find? (fun line => awkEqual number (line.splitOn ':').headI user) =
      (s.enrolled.entries.find? fun entry => entry.1 = user).map secretLine := by
    rw [h.lines, List.find?_map, ← List.head?_filter, ← List.head?_filter]
    refine congrArg (fun entries => (List.head? entries).map secretLine)
      (List.filter_congr fun entry hentry => ?_)
    obtain ⟨hname, hsecret⟩ := h.entries entry hentry
    rw [Function.comp_apply, splitOn_secretLine hname hsecret, Bool.eq_iff_iff, decide_eq_true_eq]
    constructor
    · exact huser entry.1 (List.mem_map_of_mem hentry)
    · rintro rfl
      exact hself
  rw [awkSecret, hfind, Dict.get?]
  cases hentry : s.enrolled.entries.find? fun entry => entry.1 = user with
  | none => rfl
  | some entry =>
      obtain ⟨hname, hsecret⟩ := h.entries entry (List.mem_of_find?_eq_some hentry)
      simp [splitOn_secretLine hname hsecret]

variable (number)

-- Whatever was generated and removed, the UI and oath.sh find for a name what the last
-- run for it left; oath.sh unless awk takes another enrolled name for the same number.
theorem secrets_file_holds_enrolled (hotp : Text → Nat → Nat)
    (hr : Reaches Enrolment.step plainSecrets ⟨.empty, none⟩ s) :
    tfaSecrets (s.file.getD []) = s.enrolled ∧ ∀ files attempt, (∀ name ∈ s.enrolled.keys,
        awkEqual number name attempt.user = true → name = attempt.user) →
      verify hotp (s.file.map (awkSecret number)) files attempt =
        verify hotp (s.file.map fun _ user => (s.enrolled.get? user).getD []) files attempt := by
  have hstored : Stored s := hr.invariant (fun _ _ _ h hplain hstep => h.step hplain hstep)
    ⟨rfl, fun entry hentry => absurd hentry List.not_mem_nil⟩
  refine ⟨hstored.tfaSecrets_eq, fun files attempt huser => ?_⟩
  have hawk := hstored.awkSecret_eq huser
  cases hfile : s.file with
  | none => rfl
  | some lines =>
      rw [hfile] at hawk
      simp only [verify, Option.map_some]
      rw [show awkSecret number lines attempt.user = _ from hawk]

def newSecrets : List SecretStep :=
  [.gen "alice".toList "0a".toList, .gen "bob".toList "0b".toList, .gen "alice".toList "0c".toList,
    .rm "bob".toList]

theorem new_secret_found : ∃ s, runSteps Enrolment.step ⟨.empty, none⟩ newSecrets = some s ∧
    (tfaSecrets (s.file.getD [])).get? "alice".toList = some "0c".toList ∧
    ∀ hotp files attempt, verify hotp (s.file.map (awkSecret fun _ => (none : Option Nat))) files
      attempt = verify hotp (s.file.map fun _ user => (s.enrolled.get? user).getD []) files
      attempt := by
  have hplain : AllowedRun Enrolment.step plainSecrets ⟨.empty, none⟩ newSecrets :=
    ⟨⟨by decide, List.all_eq_true.mp rfl⟩, ⟨by decide, List.all_eq_true.mp rfl⟩,
      ⟨by decide, List.all_eq_true.mp rfl⟩, trivial, trivial⟩
  have hholds := fun hotp => secrets_file_holds_enrolled (fun _ => (none : Option Nat)) hotp
    (Reaches.of_runSteps rfl hplain)
  refine ⟨_, rfl, ?_, fun hotp files attempt =>
    (hholds hotp).2 files attempt fun name _ h => of_decide_eq_true h⟩
  rw [(hholds fun _ _ => 0).1]
  rfl

end Refinement

end OpenvpnServer.Oath
