import OpenvpnServer.Accounts.Password
import OpenvpnServer.Lib.Table

namespace OpenvpnServer.Accounts

open OpenvpnServer.Lib

variable {label : AccountStep} {sessions : List WebSession}

section Final

variable {δ : Type} [DecidableEq δ] {scrypt : Text → List UInt8 → Nat → Nat → Nat → δ}
  {change : Change} {old new : Text} {s s' : AccountState δ}

def IsHashOf (scrypt : Text → List UInt8 → Nat → Nat → Nat → δ) (password : Text)
    (stored : StoredHash δ) : Prop :=
  ∀ p, verifyPassword scrypt p stored = true ↔ p = password

def ScryptInjective (scrypt : Text → List UInt8 → Nat → Nat → Nat → δ) : Prop :=
  ∀ salt n r p, Function.Injective fun password => scrypt password salt n r p

theorem isHashOf_hashPassword (hinj : ScryptInjective scrypt) (password : Text)
    (salt : List UInt8) : IsHashOf scrypt password (hashPassword scrypt password salt) := by
  intro p
  rw [verifyPassword, decide_eq_true_eq]
  constructor
  · exact fun h => hinj salt scryptN scryptR scryptP h
  · rintro rfl
    rfl

def Login.rowPassword (old new : Text) (login : Login δ) : Text :=
  if login.sawOld then old else new

structure LoginInv (scrypt : Text → List UInt8 → Nat → Nat → Nat → δ) (old new : Text)
    (written : Bool) (login : Login δ) : Prop where
  seen : login.phase ≠ .started → login.phase ≠ .finished → login.sawOld = false → written = true
  row : ∀ row, login.phase = .checking row → IsHashOf scrypt (login.rowPassword old new) row
  verified : login.phase = .rehashing ∨ login.phase = .creating →
    login.password = login.rowPassword old new

structure AccountInv (scrypt : Text → List UInt8 → Nat → Nat → Nat → δ) (change : Change)
    (old new : Text) (s : AccountState δ) : Prop where
  hash : IsHashOf scrypt (if s.change.written then new else old) s.hash
  logins : ∀ (i : Nat) (login : Login δ), s.logins[i]? = some login →
    LoginInv scrypt old new s.change.written login
  sessions : s.change.deleted = true → ∀ session ∈ s.sessions, session.password = old →
    change.kept = some session.tokenHash

-- No login that read the row before the change wrote its hash writes after it:
-- neither its rehash after the change's UPDATE, nor its session after the
-- change's DELETE.
def InTime (s : AccountState δ) : AccountStep → Prop
  | .loginRehash i _ => ∀ login, s.logins[i]? = some login → login.sawOld = true →
      s.change.written = false
  | .loginCreate i _ => ∀ login, s.logins[i]? = some login → login.sawOld = true →
      s.change.deleted = false
  | _ => True

theorem AccountInv.setLogin (h : AccountInv scrypt change old new s) {i : Nat} {login : Login δ}
    (hlogin : LoginInv scrypt old new s.change.written login) :
    AccountInv scrypt change old new (s.setLogin i login) := by
  refine ⟨h.hash, ?_, h.sessions⟩
  intro j login' hj
  rcases getElem?_set_cases hj with ⟨_, rfl⟩ | ⟨_, hj⟩
  · exact hlogin
  · exact h.logins j login' hj

theorem loginInv_finished (written : Bool) (login : Login δ) :
    LoginInv scrypt old new written { login with phase := .finished } :=
  ⟨by simp, by simp, by simp⟩

theorem LoginInv.read (h : AccountInv scrypt change old new s) (login : Login δ) :
    LoginInv scrypt old new s.change.written
      { login with phase := .checking s.hash, sawOld := !s.change.written } := by
  refine ⟨by simp, ?_, by simp⟩
  rintro row ⟨⟩
  have hhash := h.hash
  unfold Login.rowPassword
  cases hw : s.change.written with
  | true => simpa [hw] using hhash
  | false => simpa [hw] using hhash

theorem LoginInv.advance {written : Bool} {login : Login δ} {phase : LoginPhase δ}
    (h : LoginInv scrypt old new written login) (hstarted : login.phase ≠ .started)
    (hfinished : login.phase ≠ .finished) (hphase : ∀ row, phase ≠ .checking row)
    (hpassword : login.password = login.rowPassword old new) :
    LoginInv scrypt old new written { login with phase := phase } :=
  ⟨fun _ _ hsaw => h.seen hstarted hfinished hsaw, fun row hrow => absurd hrow (hphase row),
    fun _ => hpassword⟩

theorem AccountInv.rehash (hinj : ScryptInjective scrypt) (h : AccountInv scrypt change old new s)
    {login : Login δ} (hlogin : LoginInv scrypt old new s.change.written login)
    (hp : login.phase = .rehashing) (htime : login.sawOld = true → s.change.written = false)
    (salt : List UInt8) :
    AccountInv scrypt change old new
      { s with hash := hashPassword scrypt login.password salt } := by
  have hhash := isHashOf_hashPassword hinj login.password salt
  have hpassword := hlogin.verified (.inl hp)
  unfold Login.rowPassword at hpassword
  refine ⟨?_, h.logins, h.sessions⟩
  cases hsaw : login.sawOld with
  | true => simpa [htime hsaw, hpassword, hsaw] using hhash
  | false =>
      have hwritten := hlogin.seen (by simp [hp]) (by simp [hp]) hsaw
      simpa [hwritten, hpassword, hsaw] using hhash

theorem AccountInv.create (hne : new ≠ old) (h : AccountInv scrypt change old new s)
    {login : Login δ} (hlogin : LoginInv scrypt old new s.change.written login)
    (hp : login.phase = .creating) (htime : login.sawOld = true → s.change.deleted = false)
    (tokenHash : Nat) :
    AccountInv scrypt change old new
      { s with sessions := s.sessions ++ [⟨tokenHash, login.password⟩] } := by
  refine ⟨h.hash, h.logins, ?_⟩
  intro hdeleted session hmem hold
  rw [List.mem_append, List.mem_singleton] at hmem
  rcases hmem with hmem | rfl
  · exact h.sessions hdeleted session hmem hold
  · have hpassword := hlogin.verified (.inr hp)
    unfold Login.rowPassword at hpassword
    cases hsaw : login.sawOld with
    | true =>
        rw [htime hsaw] at hdeleted
        cases hdeleted
    | false =>
        rw [hsaw] at hpassword
        exact absurd (hpassword.symm.trans hold) hne

theorem AccountInv.loginStep (hinj : ScryptInjective scrypt) (hne : new ≠ old)
    (h : AccountInv scrypt change old new s) {i : Nat} {login : Login δ}
    (hl : s.logins[i]? = some login)
    (hrehash : ∀ j salt, label = .loginRehash j salt → login.sawOld = true →
      s.change.written = false)
    (hcreate : ∀ j token, label = .loginCreate j token → login.sawOld = true →
      s.change.deleted = false)
    (hs : s.loginStep scrypt i login label = some s') : AccountInv scrypt change old new s' := by
  have hlogin := h.logins i login hl
  unfold AccountState.loginStep at hs
  split at hs
  case h_1 found =>
      split at hs
      case h_2 => cases hs
      case h_1 =>
          split at hs
          · cases hs
            exact h.setLogin (.read h login)
          · cases hs
            exact h.setLogin (loginInv_finished _ login)
  case h_2 admitted =>
      split at hs
      case h_2 => cases hs
      case h_1 row hp =>
          split at hs
          · rename_i hok
            rw [Bool.and_eq_true] at hok
            cases hs
            refine h.setLogin (hlogin.advance (by simp [hp]) (by simp [hp]) ?_
              ((hlogin.row row hp login.password).mp hok.1))
            intro row'
            split <;> simp
          · cases hs
            exact h.setLogin (loginInv_finished _ login)
  case h_3 j salt =>
      split at hs
      case h_2 => cases hs
      case h_1 hp =>
          cases hs
          refine AccountInv.setLogin (h.rehash hinj hlogin hp (hrehash j salt rfl) salt) ?_
          exact hlogin.advance (by simp [hp]) (by simp [hp]) (by simp) (hlogin.verified (.inl hp))
  case h_4 j token =>
      split at hs
      case h_2 => cases hs
      case h_1 hp =>
          cases hs
          refine AccountInv.setLogin (h.create hne hlogin hp (hcreate j token rfl) token) ?_
          exact hlogin.advance (by simp [hp]) (by simp [hp]) (by simp) (hlogin.verified (.inr hp))
  case h_5 =>
      split at hs
      case h_2 => cases hs
      case h_1 =>
          cases hs
          exact h.setLogin (loginInv_finished _ login)
  case h_6 => cases hs

theorem AccountInv.setChange (h : AccountInv scrypt change old new s) {phase : ChangePhase δ}
    (hwritten : phase.written = s.change.written)
    (hdeleted : phase.deleted = true → s.change.deleted = true) :
    AccountInv scrypt change old new { s with change := phase } := by
  refine ⟨?_, ?_, fun hphase => h.sessions (hdeleted hphase)⟩
  · dsimp only
    rw [hwritten]
    exact h.hash
  · dsimp only
    rw [hwritten]
    exact h.logins

theorem AccountInv.write (hinj : ScryptInjective scrypt) (h : AccountInv scrypt change old new s)
    {phase : ChangePhase δ} (hwritten : phase.written = true)
    (hsessions : phase.deleted = true → sessions = []) (salt : List UInt8) :
    AccountInv scrypt change old new
      { s with hash := hashPassword scrypt new salt, sessions, change := phase } := by
  refine ⟨?_, ?_, ?_⟩
  · dsimp only
    rw [hwritten]
    exact isHashOf_hashPassword hinj new salt
  · intro i login hi
    dsimp only
    rw [hwritten]
    have hlogin := h.logins i login hi
    exact ⟨fun _ _ _ => rfl, hlogin.row, hlogin.verified⟩
  · intro hphase session hmem
    dsimp only at hphase hmem
    rw [hsessions hphase] at hmem
    cases hmem

theorem mem_deleteUserSessions {kept : Option Nat}
    {session : WebSession} (h : session ∈ deleteUserSessions sessions kept) :
    kept = some session.tokenHash := by
  unfold deleteUserSessions at h
  split at h
  · rw [List.mem_filter, decide_eq_true_eq] at h
    rw [h.2]
  · cases h

def AccountStep.login? : AccountStep → Option Nat
  | .loginRead i _ | .loginCheck i _ | .loginRehash i _ | .loginCreate i _ | .loginFinish i => some i
  | _ => none

theorem loginStep_of_step {i : Nat} (hi : label.login? = some i)
    (hs : s.step scrypt change new label = some s') :
    ∃ login, s.logins[i]? = some login ∧ s.loginStep scrypt i login label = some s' := by
  unfold AccountState.step at hs
  cases label <;> cases hi
  all_goals
    dsimp only at hs
    split at hs
    case h_1 login hl => exact ⟨login, hl, hs⟩
    case h_2 => cases hs

theorem accountInv_step (hinj : ScryptInjective scrypt) (hne : new ≠ old)
    (h : AccountInv scrypt change old new s) (htime : InTime s label)
    (hs : s.step scrypt change new label = some s') : AccountInv scrypt change old new s' := by
  have hlogin (i : Nat) (hi : label.login? = some i) : AccountInv scrypt change old new s' := by
    obtain ⟨login, hl, hs⟩ := loginStep_of_step hi hs
    refine h.loginStep hinj hne hl ?_ ?_ hs
    · rintro j salt rfl
      cases hi
      exact htime login hl
    · rintro j token rfl
      cases hi
      exact htime login hl
  cases label with
  | loginBegin password =>
      cases hs
      refine ⟨h.hash, ?_, h.sessions⟩
      intro i login hi
      rcases getElem?_concat_cases hi with hi | ⟨_, rfl⟩
      · exact h.logins i login hi
      · exact ⟨by simp, by simp, by simp⟩
  | loginRead i found => exact hlogin i rfl
  | loginCheck i admitted => exact hlogin i rfl
  | loginRehash i salt => exact hlogin i rfl
  | loginCreate i token => exact hlogin i rfl
  | loginFinish i => exact hlogin i rfl
  | changeRead =>
      unfold AccountState.step at hs
      dsimp only at hs
      split at hs
      case h_2 => cases hs
      case h_1 hp =>
          cases hs
          exact h.setChange (by rw [hp]; rfl) (by simp [ChangePhase.deleted])
  | changeCheck =>
      unfold AccountState.step at hs
      dsimp only at hs
      split at hs
      case h_2 => cases hs
      case h_1 hp =>
          cases hs
          split
          · exact h.setChange (by rw [hp]; rfl) (by simp [ChangePhase.deleted])
          · exact h.setChange (by rw [hp]; rfl) (by simp [ChangePhase.deleted])
  | changeWrite salt =>
      unfold AccountState.step at hs
      dsimp only at hs
      split at hs
      case h_2 => cases hs
      case h_1 =>
          cases hs
          exact h.write hinj rfl (by simp [ChangePhase.deleted]) salt
  | changeDelete =>
      unfold AccountState.step at hs
      dsimp only at hs
      split at hs
      case h_2 => cases hs
      case h_1 hp =>
          obtain ⟨hhash, hlogins, _⟩ := h
          cases hs
          rw [hp] at hhash hlogins
          exact ⟨hhash, hlogins, fun _ _ hmem _ => mem_deleteUserSessions hmem⟩
  | changeReset salt =>
      unfold AccountState.step at hs
      dsimp only at hs
      split at hs
      case h_2 => cases hs
      case h_1 =>
          cases hs
          exact h.write hinj rfl (fun _ => rfl) salt
  | changeReturn =>
      unfold AccountState.step at hs
      dsimp only at hs
      split at hs
      case h_2 => cases hs
      case h_1 hp =>
          cases hs
          exact h.setChange (by rw [hp]; rfl) (fun _ => by rw [hp]; rfl)

def AccountState.init (hash : StoredHash δ) (sessions : List WebSession) : AccountState δ :=
  ⟨hash, sessions, [], .idle⟩

def ChangeFinal (scrypt : Text → List UInt8 → Nat → Nat → Nat → δ) (change : Change)
    (old new : Text) (s : AccountState δ) : Prop :=
  verifyPassword scrypt new s.hash = true ∧ verifyPassword scrypt old s.hash = false ∧
    ∀ session ∈ s.sessions, session.password = old → change.kept = some session.tokenHash

end Final

def sampleScrypt (password : Text) (_ : List UInt8) (_ _ _ : Nat) : Text := password

def sampleHash : StoredHash Text := hashPassword sampleScrypt "old".toList []

def sampleChange : Change := .changePassword "old".toList (some 0)

-- A login is suspended in its scrypt check while the password is changed.
def lateLogin : List AccountStep :=
  [.loginBegin "old".toList, .loginRead 0 true, .changeRead, .changeCheck, .changeWrite [],
    .changeDelete, .changeReturn, .loginCheck 0 true, .loginCreate 0 7, .loginFinish 0]

def afterLateLogin : AccountState Text :=
  ⟨hashPassword sampleScrypt "new".toList [], [⟨0, "old".toList⟩, ⟨7, "old".toList⟩],
    [⟨"old".toList, .finished, true⟩], .returned⟩

theorem lateLogin_run :
    runSteps (AccountState.step sampleScrypt sampleChange "new".toList)
      (AccountState.init sampleHash [⟨0, "old".toList⟩, ⟨5, "old".toList⟩]) lateLogin =
        some afterLateLogin := by decide

theorem sampleScrypt_injective : ScryptInjective sampleScrypt := fun _ _ _ _ _ _ h => h

theorem sampleHash_isHashOf : IsHashOf sampleScrypt "old".toList sampleHash :=
  isHashOf_hashPassword sampleScrypt_injective _ _

def earlyLogin : List AccountStep :=
  [.loginBegin "old".toList, .loginRead 0 true, .loginCheck 0 true, .loginCreate 0 7,
    .loginFinish 0, .changeRead, .changeCheck, .changeWrite [], .changeDelete, .changeReturn]

def afterEarlyLogin : AccountState Text :=
  ⟨hashPassword sampleScrypt "new".toList [], [⟨0, "old".toList⟩],
    [⟨"old".toList, .finished, true⟩], .returned⟩

theorem earlyLogin_run :
    runSteps (AccountState.step sampleScrypt sampleChange "new".toList)
      (AccountState.init sampleHash [⟨0, "old".toList⟩, ⟨5, "old".toList⟩]) earlyLogin =
        some afterEarlyLogin := by decide

theorem earlyLogin_inTime :
    AllowedRun (AccountState.step sampleScrypt sampleChange "new".toList) InTime
      (AccountState.init sampleHash [⟨0, "old".toList⟩, ⟨5, "old".toList⟩]) earlyLogin := by
  refine ⟨trivial, trivial, trivial, ?_, trivial, trivial, trivial, trivial, trivial, trivial,
    trivial⟩
  intro login _ _
  rfl

end OpenvpnServer.Accounts
