import OpenvpnServer.Lib.Run
import OpenvpnServer.Lib.Text

namespace OpenvpnServer.Accounts

open OpenvpnServer.Lib

-- The fields of a stored hash, "scrypt$n$r$p$salt$digest", with `δ` for what
-- scrypt computes.
structure StoredHash (δ : Type) where
  n : Nat
  r : Nat
  p : Nat
  salt : List UInt8
  digest : δ
  deriving DecidableEq, Repr

def scryptN : Nat := 2 ^ 15

def scryptR : Nat := 8

def scryptP : Nat := 3

-- True for a hash made with other parameters than today's.
def needsRehash {δ : Type} (stored : StoredHash δ) : Bool :=
  (stored.n, stored.r, stored.p) ≠ (scryptN, scryptR, scryptP)

section Hashing

variable {δ : Type} [DecidableEq δ] (scrypt : Text → List UInt8 → Nat → Nat → Nat → δ)

def hashPassword (password : Text) (salt : List UInt8) : StoredHash δ :=
  ⟨scryptN, scryptR, scryptP, salt, scrypt password salt scryptN scryptR scryptP⟩

def verifyPassword (password : Text) (stored : StoredHash δ) : Bool :=
  scrypt password stored.salt stored.n stored.r stored.p = stored.digest

end Hashing

-- How far a `login` request has come. Between `checking` and the writes lie the
-- scrypt check and, if the hash is outdated, another scrypt run.
inductive LoginPhase (δ : Type) where
  | started
  | checking (row : StoredHash δ)
  | rehashing
  | creating
  | created
  | finished
  deriving DecidableEq, Repr

-- `sawOld` records that the row was read before the change wrote its hash.
structure Login (δ : Type) where
  password : Text
  phase : LoginPhase δ
  sawOld : Bool
  deriving DecidableEq, Repr

-- A row of web_sessions, with the password its login verified.
structure WebSession where
  tokenHash : Nat
  password : Text
  deriving DecidableEq, Repr

-- The one change: by the user, who keeps the session of the request's cookie,
-- or by an administrator through `set_portal_account`.
inductive Change where
  | changePassword (current : Text) (kept : Option Nat)
  | setPortalAccount
  deriving DecidableEq, Repr

def Change.kept : Change → Option Nat
  | .changePassword _ kept => kept
  | .setPortalAccount => none

inductive ChangePhase (δ : Type) where
  | idle
  | checking (row : StoredHash δ)
  | writing
  | deleting
  | ending
  | returned
  | refused
  deriving DecidableEq, Repr

def ChangePhase.written {δ : Type} : ChangePhase δ → Bool
  | .deleting | .ending | .returned => true
  | _ => false

def ChangePhase.deleted {δ : Type} : ChangePhase δ → Bool
  | .ending | .returned => true
  | _ => false

structure AccountState (δ : Type) where
  hash : StoredHash δ
  sessions : List WebSession
  logins : List (Login δ)
  change : ChangePhase δ
  deriving DecidableEq, Repr

inductive AccountStep where
  | loginBegin (password : Text)
  -- SELECT * FROM users; no row if the username was changed meanwhile
  | loginRead (i : Nat) (found : Bool)
  -- the scrypt check and the checks of certificate and listener
  | loginCheck (i : Nat) (admitted : Bool)
  | loginRehash (i : Nat) (salt : List UInt8)
  | loginCreate (i : Nat) (tokenHash : Nat)
  | loginFinish (i : Nat)
  | changeRead
  | changeCheck
  | changeWrite (salt : List UInt8)
  | changeDelete
  -- the one transaction of `set_portal_account`
  | changeReset (salt : List UInt8)
  | changeReturn
  deriving DecidableEq, Repr

-- `DELETE FROM web_sessions WHERE user_id = ? [AND token_hash != ?]`
def deleteUserSessions (sessions : List WebSession) (kept : Option Nat) : List WebSession :=
  match kept with
  | some tokenHash => sessions.filter fun session => session.tokenHash = tokenHash
  | none => []

section Machine

variable {δ : Type} [DecidableEq δ] (scrypt : Text → List UInt8 → Nat → Nat → Nat → δ)
  (change : Change) (new : Text)

def AccountState.setLogin (s : AccountState δ) (i : Nat) (login : Login δ) : AccountState δ :=
  { s with logins := s.logins.set i login }

def AccountState.loginStep (s : AccountState δ) (i : Nat) (login : Login δ) :
    AccountStep → Option (AccountState δ)
  | .loginRead _ found =>
      match login.phase with
      | .started =>
          if found then
            some (s.setLogin i
              { login with phase := .checking s.hash, sawOld := !s.change.written })
          else some (s.setLogin i { login with phase := .finished })
      | _ => none
  | .loginCheck _ admitted =>
      match login.phase with
      | .checking row =>
          if verifyPassword scrypt login.password row && admitted then
            some (s.setLogin i
              { login with phase := if needsRehash row then .rehashing else .creating })
          else some (s.setLogin i { login with phase := .finished })
      | _ => none
  | .loginRehash _ salt =>
      match login.phase with
      | .rehashing =>
          let s := { s with hash := hashPassword scrypt login.password salt }
          some (s.setLogin i { login with phase := .creating })
      | _ => none
  | .loginCreate _ tokenHash =>
      match login.phase with
      | .creating =>
          let s := { s with sessions := s.sessions ++ [WebSession.mk tokenHash login.password] }
          some (s.setLogin i { login with phase := .created })
      | _ => none
  | .loginFinish _ =>
      match login.phase with
      | .created => some (s.setLogin i { login with phase := .finished })
      | _ => none
  | _ => none

def AccountState.step (s : AccountState δ) (label : AccountStep) : Option (AccountState δ) :=
  match label with
  | .loginBegin password => some { s with logins := s.logins ++ [⟨password, .started, false⟩] }
  | .loginRead i _ | .loginCheck i _ | .loginRehash i _ | .loginCreate i _ | .loginFinish i =>
      match s.logins[i]? with
      | some login => s.loginStep scrypt i login label
      | none => none
  | .changeRead =>
      match change, s.change with
      | .changePassword _ _, .idle => some { s with change := .checking s.hash }
      | _, _ => none
  | .changeCheck =>
      match change, s.change with
      | .changePassword current _, .checking row =>
          some { s with change := if verifyPassword scrypt current row then .writing else .refused }
      | _, _ => none
  | .changeWrite salt =>
      match s.change with
      | .writing => some { s with hash := hashPassword scrypt new salt, change := .deleting }
      | _ => none
  | .changeDelete =>
      match s.change with
      | .deleting =>
          some { s with sessions := deleteUserSessions s.sessions change.kept, change := .ending }
      | _ => none
  | .changeReset salt =>
      match change, s.change with
      | .setPortalAccount, .idle =>
          some { s with sessions := [], hash := hashPassword scrypt new salt, change := .ending }
      | _, _ => none
  | .changeReturn =>
      match s.change with
      | .ending => some { s with change := .returned }
      | _ => none

end Machine

end OpenvpnServer.Accounts
