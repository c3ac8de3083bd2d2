import OpenvpnServer.Accounts.Portal
import OpenvpnServer.Lib.Run

namespace OpenvpnServer.Accounts

open OpenvpnServer.Lib

section Tables

-- A row of share_tokens, stored under the hash of its token.
structure ShareToken where
  clientName : Text
  createdAt : Nat
  expiresAt : Nat
  usedAt : Option Nat
  createdBy : Text
  deriving DecidableEq

-- A profile_link_used event. Which link and which request it came from is history,
-- no column of the table.
structure LinkEvent where
  ts : Nat
  clientName : Text
  detail : Text
  hash : Text
  request : Nat
  deriving DecidableEq

def eventRetention : Nat := 365 * 86400

end Tables

section Requests

inductive LinkKind where
  | page
  | download
  deriving DecidableEq, Repr

inductive LinkAnswer where
  | page
  | profile (hash name content : Text)
  | refused (error : HttpError)
  deriving DecidableEq

inductive LinkPhase where
  | arrived (kind : LinkKind) (hash ip : Text)
  -- the limiter let it pass
  | attempted (kind : LinkKind) (hash ip : Text)
  -- the row was there, not used and not expired
  | found (kind : LinkKind) (hash ip name : Text)
  | admitted (hash ip name : Text)
  | built (hash ip name content : Text)
  | spent (hash name content : Text)
  | answered (answer : LinkAnswer)
  deriving DecidableEq

structure ShareState where
  tokens : Dict Text ShareToken
  events : List LinkEvent
  -- the names with a certificate under pki/issued
  issued : List Text
  requests : List LinkPhase
  -- every event ever recorded, also those deleted since
  recorded : List LinkEvent
  deriving DecidableEq

-- What happens elsewhere during a step: the limiter's answer, the time, and what
-- `build_profile` returns or raises.
structure StepEnv where
  wait : Nat
  now : Nat
  profile : Except HttpError Text

inductive ShareStep where
  | view (hash ip : Text)
  | download (hash ip : Text)
  -- the next step of a request
  | next (i : Nat) (env : StepEnv)
  -- `create_client` and `revoke_client`, and what `drop_share_links` does after them
  | issue (name : Text)
  | unissue (name : Text)
  | dropLinks (name : Text)
  | rollup (now : Nat)

end Requests

namespace ShareState

def add (s : ShareState) (phase : LinkPhase) : ShareState :=
  { s with requests := s.requests ++ [phase] }

def put (s : ShareState) (i : Nat) (phase : LinkPhase) : ShareState :=
  { s with requests := s.requests.set i phase }

def refuse (s : ShareState) (i : Nat) (error : HttpError) : ShareState :=
  s.put i (.answered (.refused error))

def linkInvalid : HttpError := ⟨404, "This link is invalid, expired or already used".toList⟩

-- UPDATE share_tokens SET used_at = ? WHERE token_hash = ? AND used_at IS NULL, with
-- the event in the same transaction.
def spend (s : ShareState) (i : Nat) (hash ip name content : Text) (now : Nat) : ShareState :=
  match s.tokens.get? hash with
  | some row =>
      if row.usedAt = none then
        let event : LinkEvent := ⟨now, name, ip, hash, i⟩
        { s with
          tokens := s.tokens.set hash { row with usedAt := some now }
          events := s.events ++ [event]
          recorded := s.recorded ++ [event] }.put i (.spent hash name content)
      else s.refuse i linkInvalid
  | none => s.refuse i linkInvalid

def advance (s : ShareState) (i : Nat) (env : StepEnv) : LinkPhase → Option ShareState
  -- shared_client
  | .arrived kind hash ip =>
      if env.wait ≠ 0 then
        some (s.refuse i ⟨429,
          "Too many attempts, try again in ".toList ++ Nat.toDigits 10 env.wait ++ ['s']⟩)
      else some (s.put i (.attempted kind hash ip))
  | .attempted kind hash ip =>
      match s.tokens.get? hash with
      | some row =>
          if row.usedAt = none ∧ env.now < row.expiresAt then
            some (s.put i (.found kind hash ip row.clientName))
          else some (s.refuse i linkInvalid)
      | none => some (s.refuse i linkInvalid)
  | .found kind hash ip name =>
      if name ∈ s.issued then
        match kind with
        | .page => some (s.put i (.answered .page))
        | .download => some (s.put i (.admitted hash ip name))
      else some (s.refuse i linkInvalid)
  -- shared_profile
  | .admitted hash ip name =>
      match env.profile with
      | .ok content => some (s.put i (.built hash ip name content))
      | .error error => some (s.refuse i error)
  | .built hash ip name content => some (s.spend i hash ip name content env.now)
  | .spent hash name content => some (s.put i (.answered (.profile hash name content)))
  | .answered _ => none

def step (s : ShareState) : ShareStep → Option ShareState
  | .view hash ip => some (s.add (.arrived .page hash ip))
  | .download hash ip => some (s.add (.arrived .download hash ip))
  | .next i env =>
      match s.requests[i]? with
      | some phase => s.advance i env phase
      | none => none
  | .issue name => some { s with issued := name :: s.issued }
  | .unissue name => some { s with issued := s.issued.filter fun other => other ≠ name }
  | .dropLinks name =>
      some { s with tokens := s.tokens.filter fun _ row => row.clientName ≠ name }
  | .rollup now =>
      some { s with
        tokens := s.tokens.filter fun _ row => now ≤ row.expiresAt
        events := s.events.filter fun event => now ≤ event.ts + eventRetention }

end ShareState

end OpenvpnServer.Accounts
