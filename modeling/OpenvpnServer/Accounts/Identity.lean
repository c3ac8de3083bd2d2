import OpenvpnServer.Lib.Run

namespace OpenvpnServer.Accounts

open OpenvpnServer.Lib

-- The certificates of one name. Serials are numbered in the order of issue, and
-- `identities` gives each of them the first serial of its key.
structure Pki where
  -- pki/issued/<name>.crt
  current : Option Nat
  -- pki/renewed/issued/<name>.crt
  previous : Option Nat
  identities : List Nat
  -- status R in index.txt
  revoked : List Nat
  deriving DecidableEq, Repr

namespace Pki

def empty : Pki := ⟨none, none, [], []⟩

def identity (pki : Pki) (serial : Nat) : Option Nat := pki.identities[serial]?

def currentIdentity (pki : Pki) : Option Nat := pki.current.bind pki.identity

-- genclient.sh: refuses a name whose certificate is still there.
def create (pki : Pki) : Option Pki :=
  match pki.current with
  | some _ => none
  | none =>
      let serial := pki.identities.length
      some { pki with current := some serial, identities := pki.identities ++ [serial] }

-- renew.sh: the same key, one renewal at a time.
def renew (pki : Pki) : Option Pki :=
  match pki.current, pki.previous with
  | some serial, none =>
      match pki.identity serial with
      | some owner =>
          some { pki with
            current := some pki.identities.length
            previous := some serial
            identities := pki.identities ++ [owner] }
      | none => none
  | _, _ => none

-- revoke.sh --renewed
def revokePrevious (pki : Pki) : Option Pki :=
  match pki.previous with
  | some serial => some { pki with previous := none, revoked := serial :: pki.revoked }
  | none => none

-- revoke.sh: the previous certificate first, then the current one.
def revoke (pki : Pki) : Option Pki :=
  let pki := pki.revokePrevious.getD pki
  match pki.current with
  | some serial => some { pki with current := none, revoked := serial :: pki.revoked }
  | none => none

-- `relay.eligible`: the serial of the current certificate, if it is not revoked
-- and its validity period, which only the clock decides, includes now.
def eligible (pki : Pki) (inPeriod : Bool) : Option Nat :=
  match pki.current with
  | some serial => if serial ∉ pki.revoked ∧ inPeriod then some serial else none
  | none => none

end Pki

-- The settings row relay_client:<name>, with the identity that was current when
-- its secret was generated.
structure Grant where
  serial : Nat
  secret : Nat
  madeFor : Option Nat
  deriving DecidableEq, Repr

-- The users row of the name, with the identity that was current when it was set up.
structure Account where
  id : Nat
  serial : Nat
  madeFor : Option Nat
  deriving DecidableEq, Repr

-- What a request carries between its atomic steps.
inductive Request where
  -- the serial its `find_client` showed
  | renewFound (serial : Nat)
  | renewIssued (serial : Nat)
  | renewEligible (serial cert : Nat)
  | renewBound (serial : Nat)
  | renewEligibleAgain (serial cert : Nat)
  | revokeFound
  | revokeIssued
  | deleteFound
  | deleteRemoved
  | deleteAccount (id : Option Nat)
  | deleteGrant
  | profileEligible (cert : Nat)
  | accountEligible (cert : Nat)
  -- the secret presented and the grant read
  | authorizing (secret : Nat) (grant : Grant)
  -- a login or a signed-in request, and the account read
  | signingIn (account : Account)
  | finished
  deriving DecidableEq, Repr

structure IdentityState where
  pki : Pki
  grant : Option Grant
  account : Option Account
  nextAccount : Nat
  requests : List Request
  deriving DecidableEq, Repr

def IdentityState.init : IdentityState := ⟨.empty, none, none, 1, []⟩

inductive IdentityStep where
  | create
  | relayRevoke
  | revokePrevious
  -- `find_client` of a renew, revoke or delete request
  | renew
  | revoke
  | delete
  -- the read of `eligible` a profile download or an account setup starts with
  | profile (inPeriod : Bool)
  | setPortalAccount (inPeriod : Bool)
  -- the read of the grant or of the account
  | authorize (secret : Nat)
  | signIn
  -- the next step of a request: `inPeriod` for a read of the certificate,
  -- `secret` for a secret to be generated
  | next (i : Nat) (inPeriod : Bool) (secret : Nat)
  deriving DecidableEq, Repr

namespace IdentityState

def add (s : IdentityState) (request : Request) : IdentityState :=
  { s with requests := s.requests ++ [request] }

def put (s : IdentityState) (i : Nat) (request : Request) : IdentityState :=
  { s with requests := s.requests.set i request }

-- The transaction of `profile`.
def profileTx (s : IdentityState) (cert secret : Nat) : IdentityState :=
  match s.grant with
  | some grant =>
      if grant.serial ≠ cert then
        { s with grant := some ⟨cert, secret, s.pki.currentIdentity⟩ }
      else s
  | none => { s with grant := some ⟨cert, secret, s.pki.currentIdentity⟩ }

-- The transaction of `renewed`: the secret stays, its serial follows.
def renewedTx (s : IdentityState) (serial cert : Nat) : IdentityState :=
  { s with grant := s.grant.map fun grant =>
      if grant.serial = serial then { grant with serial := cert } else grant }

-- UPDATE users SET client_serial = ? WHERE client_name = ? AND client_serial = ?
def renewUsers (s : IdentityState) (serial cert : Nat) : IdentityState :=
  { s with account := s.account.map fun account =>
      if account.serial = serial then { account with serial := cert } else account }

-- The transaction of `set_portal_account`.
def accountTx (s : IdentityState) (cert : Nat) : IdentityState :=
  match s.account with
  | some account => { s with account := some ⟨account.id, cert, s.pki.currentIdentity⟩ }
  | none =>
      { s with
        account := some ⟨s.nextAccount, cert, s.pki.currentIdentity⟩
        nextAccount := s.nextAccount + 1 }

-- `relay.authorize` after the grant was read.
def authorizes (s : IdentityState) (secret : Nat) (grant : Grant) (inPeriod : Bool) : Bool :=
  decide (secret = grant.secret) && decide (s.pki.eligible inPeriod = some grant.serial)

-- `login` and `signed_in_user` after the account was read.
def admits (s : IdentityState) (account : Account) (inPeriod : Bool) : Bool :=
  decide (s.pki.eligible inPeriod = some account.serial)

def advance (s : IdentityState) (i : Nat) (inPeriod : Bool) (secret : Nat) :
    Request → Option IdentityState
  | .renewFound serial =>
      match s.pki.renew with
      | some pki => some ({ s with pki }.put i (.renewIssued serial))
      | none => some (s.put i .finished)
  | .renewIssued serial =>
      match s.pki.eligible inPeriod with
      | some cert => some (s.put i (.renewEligible serial cert))
      | none => some (s.put i (.renewBound serial))
  | .renewEligible serial cert => some ((s.renewedTx serial cert).put i (.renewBound serial))
  | .renewBound serial =>
      match s.pki.eligible inPeriod with
      | some cert => some (s.put i (.renewEligibleAgain serial cert))
      | none => some (s.put i .finished)
  | .renewEligibleAgain serial cert => some ((s.renewUsers serial cert).put i .finished)
  | .revokeFound =>
      match s.pki.revoke with
      | some pki => some ({ s with pki }.put i .revokeIssued)
      | none => some (s.put i .finished)
  | .revokeIssued => some ({ s with grant := none }.put i .finished)
  -- rmcert.sh refuses while an unexpired certificate is there
  | .deleteFound =>
      if s.pki.current.isSome && inPeriod then some (s.put i .finished)
      else some (s.put i .deleteRemoved)
  | .deleteRemoved => some (s.put i (.deleteAccount (s.account.map Account.id)))
  | .deleteAccount id =>
      let account := s.account.filter fun account => some account.id ≠ id
      some ({ s with account }.put i .deleteGrant)
  | .deleteGrant => some ({ s with grant := none }.put i .finished)
  | .profileEligible cert => some ((s.profileTx cert secret).put i .finished)
  | .accountEligible cert => some ((s.accountTx cert).put i .finished)
  | .authorizing _ _ => some (s.put i .finished)
  | .signingIn _ => some (s.put i .finished)
  | .finished => none

def step (s : IdentityState) : IdentityStep → Option IdentityState
  | .create => s.pki.create.map fun pki => { s with pki }
  | .relayRevoke => some { s with grant := none }
  | .revokePrevious => s.pki.revokePrevious.map fun pki => { s with pki }
  | .renew => s.pki.current.map fun serial => s.add (.renewFound serial)
  | .revoke => s.pki.current.map fun _ => s.add .revokeFound
  | .delete => if s.pki.current = none then some (s.add .deleteFound) else none
  | .profile inPeriod => (s.pki.eligible inPeriod).map fun cert => s.add (.profileEligible cert)
  | .setPortalAccount inPeriod =>
      (s.pki.eligible inPeriod).map fun cert => s.add (.accountEligible cert)
  | .authorize secret => s.grant.map fun grant => s.add (.authorizing secret grant)
  | .signIn => s.account.map fun account => s.add (.signingIn account)
  | .next i inPeriod secret =>
      match s.requests[i]? with
      | some request => s.advance i inPeriod secret request
      | none => none

end IdentityState

end OpenvpnServer.Accounts
