import OpenvpnServer.Accounts.Portal

namespace OpenvpnServer.Accounts

open OpenvpnServer.Lib

section Handlers

variable {δ : Type} {services : Services δ} {db : AuthDb δ} {request : WebRequest}

theorem portalPath_of_app {scope : Scope} (hrestricted : restricted scope = true)
    (h : portalBoundary scope = .app) : portalPath scope.path = true := by
  unfold portalBoundary at h
  cases hpath : portalPath scope.path with
  | true => rfl
  | false =>
      rw [hrestricted, hpath, Bool.not_false, Bool.and_self, if_pos rfl] at h
      split at h <;> cases h

theorem not_portalOnly_of_admin {user : SessionUser} {now : Nat}
    (h : (signedInUser services db request now).1 = .ok user) (hadmin : user.role = .admin) :
    portalOnly request = false := by
  unfold signedInUser at h
  split at h
  · cases h
  · rename_i found _ _
    split at h
    · cases h
    · rename_i hlistener
      have huser : found = user := by
        split at h
        · exact Except.ok.inj h
        · split at h
          · split at h
            · exact Except.ok.inj h
            · cases h
          · cases h
      rw [huser] at hlistener
      exact Bool.eq_false_iff.mpr fun hportal => hlistener ⟨hadmin, hportal⟩

variable [DecidableEq δ]

theorem sessions_login (services : Services δ) (db : AuthDb δ) (wait : Nat) (body : LoginBody)
    (request : WebRequest) (token : Text) (salt : List UInt8) (now : Nat) :
    (login services db wait body request token salt now).2.sessions = db.sessions ∨
      ∃ id user, db.users.get? id = some user ∧ ¬(user.role = .admin ∧ portalOnly request = true) ∧
        ∃ session : SessionRow, session.userId = id ∧
          (login services db wait body request token salt now).2.sessions =
            db.sessions.set (services.tokenHash token) session := by
  unfold login
  split
  · exact .inl rfl
  · split
    · exact .inl rfl
    · rename_i id user hfound
      split
      · exact .inl rfl
      · rename_i hadmitted
        refine .inr ⟨id, user, ?_, ?_, ⟨id, now, now + services.sessionTtl, request.ip,
          ((request.header "user-agent".toList).getD []).take 200⟩, rfl, ?_⟩
        · exact db.users.get?_eq_some_iff.mpr (List.mem_of_find?_eq_some hfound)
        · intro hlistener
          simp [hlistener] at hadmitted
        · simp only [AuthDb.addEvent, createSession]
          split <;> rfl

def CreatesAdminSession (before after : AuthDb δ) : Prop :=
  ∃ hash session, after.sessions.get? hash = some session ∧
    before.sessions.get? hash ≠ some session ∧
    ∃ user, before.users.get? session.userId = some user ∧ user.role = .admin

theorem not_createsAdminSession_login {wait : Nat} {body : LoginBody} {token : Text}
    {salt : List UInt8} {now : Nat} (hportal : portalOnly request = true) :
    ¬CreatesAdminSession db (login services db wait body request token salt now).2 := by
  rintro ⟨hash, session, hafter, hbefore, user, huser, hadmin⟩
  rcases sessions_login services db wait body request token salt now with
    hsame | ⟨id, owner, howner, hadmitted, created, hid, hset⟩
  · rw [hsame] at hafter
    exact hbefore hafter
  · rw [hset] at hafter
    rcases Dict.get?_set_cases hafter with ⟨-, rfl⟩ | ⟨-, hold⟩
    · rw [hid, howner, Option.some.injEq] at huser
      subst huser
      exact hadmitted ⟨hadmin, hportal⟩
    · exact hbefore hold

end Handlers

section Agreement

variable {δ : Type}

structure Confined [DecidableEq δ] (services : Services δ) (headers : Headers) (path : Text) (cookie : Option Text)
    (ip : Text) : Prop where
  path : portalBoundary ⟨.http, path, headers⟩ = .app → portalPath path = true
  signedIn : ∀ (db : AuthDb δ) (now : Nat) (user : SessionUser),
    (signedInUser services db ⟨headers, cookie, ip⟩ now).1 = .ok user → user.role ≠ .admin
  login : ∀ (db : AuthDb δ) (wait : Nat) (body : LoginBody) (token : Text) (salt : List UInt8)
    (now : Nat),
    ¬CreatesAdminSession db (login services db wait body ⟨headers, cookie, ip⟩ token salt now).2

def adminDb (services : Services δ) : AuthDb δ :=
  ⟨Dict.empty.set 1 ⟨"admin".toList, hashPassword services.scrypt "secret".toList [], none, none,
      none⟩,
    Dict.empty.set (services.tokenHash ['t']) ⟨1, 0, 100, [], []⟩, []⟩

theorem signedInUser_adminDb (services : Services δ) (request : WebRequest)
    (hcookie : request.cookie = some ['t']) (hportal : portalOnly request = false) :
    ∃ user, (signedInUser services (adminDb services) request 0).1 = .ok user ∧
      user.role = .admin := by
  have hfound : ∃ db, getSessionUser services (adminDb services) request.cookie 0 =
      (some ⟨1, "admin".toList, none, none, .admin⟩, db) := by
    rw [hcookie]
    simp only [getSessionUser, adminDb, Dict.get?_set_self]
    split
    · cases ‹['t'] = []›
    · split
      · rename_i hexpired
        cases hexpired
      · split
        · exact ⟨_, rfl⟩
        · exact ⟨_, rfl⟩
  obtain ⟨db, hfound⟩ := hfound
  refine ⟨⟨1, "admin".toList, none, none, .admin⟩, ?_, rfl⟩
  unfold signedInUser
  rw [hfound]
  simp [hportal]

theorem portal_checks_agree_iff [DecidableEq δ] (services : Services δ) (headers : Headers) :
    (∀ path cookie ip, restricted ⟨.http, path, headers⟩ = true →
      Confined services headers path cookie ip) ↔
    (restricts headers = true →
      (headers.find? fun header => header.1 = portalHeader).map Prod.snd = some "1".toList) := by
  constructor
  · intro hconfined hrestricts
    have hsafe := (hconfined [] (some ['t']) [] hrestricts).signedIn (adminDb services) 0
    by_contra hfirst
    have hportal : portalOnly ⟨headers, some ['t'], []⟩ = false := decide_eq_false hfirst
    obtain ⟨user, huser, hadmin⟩ := signedInUser_adminDb services _ rfl hportal
    exact hsafe user huser hadmin
  · intro hfirst path cookie ip hrestricted
    have hportal : portalOnly ⟨headers, cookie, ip⟩ = true := decide_eq_true (hfirst hrestricted)
    refine ⟨portalPath_of_app hrestricted, ?_, ?_⟩
    · intro db now user huser hadmin
      rw [not_portalOnly_of_admin huser hadmin] at hportal
      cases hportal
    · intro db wait body token salt now
      exact not_createsAdminSession_login hportal

-- A header that the client sent stands before the one the gateway added.
theorem repeated_header_admits_admin :
    let services : Services Unit := ⟨fun _ _ _ _ _ => (), id, fun _ => none, 100, []⟩
    let headers : Headers := [(portalHeader, "0".toList), (portalHeader, "1".toList)]
    restricted ⟨.http, "/api/portal/me".toList, headers⟩ = true ∧
      portalBoundary ⟨.http, "/api/portal/me".toList, headers⟩ = .app ∧
      ¬Confined services headers "/api/portal/me".toList (some ['t']) [] := by
  intro services headers
  refine ⟨by decide, by decide, fun hconfined => ?_⟩
  have hportal : portalOnly ⟨headers, some ['t'], []⟩ = false := by decide
  obtain ⟨user, huser, hadmin⟩ := signedInUser_adminDb services _ rfl hportal
  exact hconfined.signedIn (adminDb services) 0 user huser hadmin

end Agreement

end OpenvpnServer.Accounts
