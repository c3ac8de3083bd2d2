import OpenvpnServer.Accounts.Password
import OpenvpnServer.Lib.Dict

namespace OpenvpnServer.Accounts

open OpenvpnServer.Lib

section Boundary

-- Names and values as Latin-1 text; the server gives the names in lower case.
abbrev Headers := List (Text × Text)

inductive ScopeType where
  | http
  | websocket
  | lifespan
  deriving DecidableEq, Repr

structure Scope where
  kind : ScopeType
  path : Text
  headers : Headers
  deriving DecidableEq

def portalPath (path : Text) : Bool :=
  path = "/portal".toList || path = "/api/portal".toList ||
    "/api/portal/".toList.isPrefixOf path || "/static/".toList.isPrefixOf path

def portalHeader : Text := "x-openvpn-portal-only".toList

def restricts (headers : Headers) : Bool :=
  headers.any fun header => header.1 = portalHeader && header.2 = "1".toList

def restricted (scope : Scope) : Bool := scope.kind = .http && restricts scope.headers

inductive Handled where
  | redirect (location : Text) (status : Nat)
  | json (detail : Text) (status : Nat)
  -- the request goes on to the application
  | app
  deriving DecidableEq

-- `PortalBoundary.__call__`
def portalBoundary (scope : Scope) : Handled :=
  if restricted scope && !portalPath scope.path then
    if scope.path = "/".toList then .redirect "/portal".toList 303
    else .json "Not found".toList 404
  else .app

end Boundary

section Requests

structure WebRequest where
  headers : Headers
  -- the session cookie
  cookie : Option Text
  ip : Text
  deriving DecidableEq

-- `request.headers.get`: the first value of a repeated header.
def WebRequest.header (request : WebRequest) (name : Text) : Option Text :=
  (request.headers.find? fun header => header.1 = name).map Prod.snd

def portalOnly (request : WebRequest) : Bool := request.header portalHeader = some "1".toList

structure HttpError where
  status : Nat
  detail : Text
  deriving DecidableEq

end Requests

section Tables

-- A row of users; administrators have no client name.
structure UserRow (δ : Type) where
  username : Text
  passwordHash : StoredHash δ
  clientName : Option Text
  clientSerial : Option Text
  lastLogin : Option Nat
  deriving DecidableEq

-- A row of web_sessions, stored under the hash of its token.
structure SessionRow where
  userId : Nat
  createdAt : Nat
  expiresAt : Nat
  ip : Text
  userAgent : Text
  deriving DecidableEq

structure AuthEvent where
  ts : Nat
  kind : Text
  actor : Text
  detail : Text
  deriving DecidableEq

structure AuthDb (δ : Type) where
  users : Dict Nat (UserRow δ)
  sessions : Dict Text SessionRow
  events : List AuthEvent
  deriving DecidableEq

inductive Role where
  | admin
  | client
  deriving DecidableEq, Repr

def UserRow.role {δ : Type} (user : UserRow δ) : Role :=
  if user.clientName = none then .admin else .client

structure SessionUser where
  id : Nat
  username : Text
  clientName : Option Text
  clientSerial : Option Text
  role : Role
  deriving DecidableEq

-- What the handlers take from elsewhere: the hash functions, the serial of a
-- client's eligible certificate, and the settings.
structure Services (δ : Type) where
  scrypt : Text → List UInt8 → Nat → Nat → Nat → δ
  tokenHash : Text → Text
  eligible : Text → Option Text
  sessionTtl : Nat
  guestSub : Text

end Tables

section Handlers

variable {δ : Type} [DecidableEq δ] (services : Services δ)

def AuthDb.addEvent (db : AuthDb δ) (now : Nat) (kind actor detail : Text) : AuthDb δ :=
  { db with events := db.events ++ [⟨now, kind, actor, detail⟩] }

def getSessionUser (db : AuthDb δ) (token : Option Text) (now : Nat) :
    Option SessionUser × AuthDb δ :=
  match token with
  | none => (none, db)
  | some token =>
      if token = [] then (none, db)
      else
        let hash := services.tokenHash token
        match db.sessions.get? hash with
        | none => (none, db)
        | some session =>
            match db.users.get? session.userId with
            | none => (none, db)
            | some user =>
                if session.expiresAt < now then (none, db)
                else
                  let answer : SessionUser :=
                    ⟨session.userId, user.username, user.clientName, user.clientSerial, user.role⟩
                  -- sliding expiry
                  if session.expiresAt - now < services.sessionTtl / 2 then
                    let extended := { session with expiresAt := now + services.sessionTtl }
                    (some answer, { db with sessions := db.sessions.set hash extended })
                  else (some answer, db)

def deleteSession (db : AuthDb δ) (token : Option Text) : AuthDb δ :=
  match token with
  | none => db
  | some token =>
      if token = [] then db else { db with sessions := db.sessions.erase (services.tokenHash token) }

def signedInUser (db : AuthDb δ) (request : WebRequest) (now : Nat) :
    Except HttpError SessionUser × AuthDb δ :=
  match getSessionUser services db request.cookie now with
  | (none, db) => (.error ⟨401, "Not authenticated".toList⟩, db)
  | (some user, db) =>
      if user.role = .admin ∧ portalOnly request then
        (.error ⟨401, "Not authenticated".toList⟩, db)
      else
        match user.clientName with
        | none => (.ok user, db)
        | some name =>
            match services.eligible name with
            | some serial =>
                if some serial = user.clientSerial then (.ok user, db)
                else
                  (.error ⟨401, "Client access is no longer valid".toList⟩,
                    deleteSession services db request.cookie)
            | none =>
                (.error ⟨401, "Client access is no longer valid".toList⟩,
                  deleteSession services db request.cookie)

structure LoginBody where
  username : Text
  password : Text
  deriving DecidableEq

structure LoginAnswer where
  username : Text
  guestSub : Text
  role : Role
  clientName : Option Text
  -- the cookie that is set, and its age
  token : Text
  maxAge : Nat
  deriving DecidableEq

-- SELECT * FROM users WHERE username = ?
def findUser (db : AuthDb δ) (username : Text) : Option (Nat × UserRow δ) :=
  db.users.entries.find? fun row => row.2.username = username

def validClient (user : UserRow δ) : Bool :=
  match user.clientName with
  | none => true
  | some name =>
      match services.eligible name with
      | some serial => some serial = user.clientSerial
      | none => false

def createSession (db : AuthDb δ) (userId : Nat) (token ip : Text) (userAgent : Option Text)
    (now : Nat) : AuthDb δ :=
  let session : SessionRow :=
    ⟨userId, now, now + services.sessionTtl, ip, (userAgent.getD []).take 200⟩
  { db with sessions := db.sessions.set (services.tokenHash token) session }

-- `wait` is what the limiter answers; `token` and `salt` are drawn at random.
def login (db : AuthDb δ) (wait : Nat) (body : LoginBody) (request : WebRequest) (token : Text)
    (salt : List UInt8) (now : Nat) : Except HttpError LoginAnswer × AuthDb δ :=
  if wait ≠ 0 then
    (.error ⟨429, "Too many attempts, try again in ".toList ++ Nat.toDigits 10 wait ++ ['s']⟩, db)
  else
    let refused : Except HttpError LoginAnswer × AuthDb δ :=
      (.error ⟨401, "Invalid username or password".toList⟩,
        db.addEvent now "login_failed".toList (body.username.take 64) request.ip)
    match findUser db body.username with
    | none => refused
    | some (id, user) =>
        if !verifyPassword services.scrypt body.password user.passwordHash ||
            !validClient services user || (user.role = .admin && portalOnly request) then
          refused
        else
          let rehashed :=
            if needsRehash user.passwordHash then
              { db with users := db.users.modify id fun row =>
                  { row with passwordHash := hashPassword services.scrypt body.password salt } }
            else db
          let created := createSession services rehashed id token request.ip
            (request.header "user-agent".toList) now
          let stamped := { created with users := created.users.modify id fun row =>
            { row with lastLogin := some now } }
          (.ok ⟨user.username, services.guestSub, user.role, user.clientName, token,
              services.sessionTtl⟩,
            stamped.addEvent now "login".toList user.username request.ip)

end Handlers

end OpenvpnServer.Accounts
