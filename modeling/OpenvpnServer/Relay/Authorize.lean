import Mathlib.Data.List.AList
import OpenvpnServer.Lib.Run
import OpenvpnServer.Relay.Policy

namespace OpenvpnServer.Relay

open OpenvpnServer.Lib

-- The bytes of an Authorization header.
abbrev Token := List UInt8

def bearer : Token := [66, 101, 97, 114, 101, 114, 32]

def wellFormedToken (token : Token) : Bool :=
  bearer.isPrefixOf token && token.length ≤ 512

inductive AuthError where
  | accessDenied
  | authUnavailable
  -- The context's own error: its caller left or its deadline passed.
  | contextEnded
  deriving DecidableEq, Repr

-- What one request to the policy service comes to. The body is the decoded
-- policy, `none` when decoding failed.
inductive Answer where
  | badRequest
  | transportError
  | status (code : Nat) (body : Option Policy)
  deriving DecidableEq, Repr

-- Everything the outside decides about one `authorizeBackend` call: whether a
-- slot was free, the answer to each attempt, and whether the context ended in
-- the pause after it.
structure BackendRun where
  slotFree : Bool
  answers : Nat → Answer
  endedInPause : Nat → Bool

section Backend

variable (unicodeLower : Char → Char)

def attempts (run : BackendRun) : Nat → Nat → Except AuthError CompiledPolicy
  | _, 0 => .error .authUnavailable
  | attempt, remaining + 1 =>
      let retry :=
        if attempt = 2 then .error .authUnavailable
        else if run.endedInPause attempt then .error .contextEnded
        else attempts run (attempt + 1) remaining
      match run.answers attempt with
      | .badRequest => .error .authUnavailable
      | .transportError => retry
      | .status code body =>
          if code = 200 then
            match body.bind (Policy.compile unicodeLower) with
            | none => .error .authUnavailable
            | some p => .ok p
          else if code = 401 ∨ code = 403 then .error .accessDenied
          else if code ≠ 502 ∧ code ≠ 503 ∧ code ≠ 504 then .error .authUnavailable
          else retry

def authorizeBackend (token : Token) (run : BackendRun) : Except AuthError CompiledPolicy :=
  if !run.slotFree then .error .authUnavailable
  else if !wellFormedToken token then .error .accessDenied
  else attempts unicodeLower run 0 3

end Backend

-- A moment of a run: the clock's reading and the number of steps before it.
structure Stamp where
  time : Nat
  turn : Nat
  deriving DecidableEq, Repr

-- One `authorizeBackend` call, with the entry that shares it if it was started
-- through the cache. `result` is set when the backend returns; `finished` and
-- `expires` when the goroutine publishes it under the lock, or at once for a
-- check that its starter runs itself.
structure Check where
  token : Token
  shared : Bool
  starter : Nat
  startedAt : Nat
  result : Option (Except AuthError CompiledPolicy)
  finished : Option Stamp
  expires : Option Nat

def Check.new (token : Token) (shared : Bool) (starter startedAt : Nat) : Check :=
  ⟨token, shared, starter, startedAt, none, none, none⟩

inductive Phase where
  | entered
  | waiting (check : Nat)
  | running (check : Nat)
  | returned (check : Nat) (result : Except AuthError CompiledPolicy)
  | refused
  | gaveUp

-- One `authorize` call: its token, when it entered and how far it has come.
structure Caller where
  token : Token
  entered : Stamp
  cancelled : Bool
  phase : Phase

structure AuthState (κ : Type) where
  now : Nat
  turns : Nat
  policies : AList fun _ : κ => Nat
  checks : List Check
  callers : List Caller

def AuthState.init (κ : Type) : AuthState κ := ⟨0, 0, ∅, [], []⟩

inductive AuthLabel where
  | enter (token : Token)
  -- the locked section of `authorize`
  | lookup (caller : Nat)
  | backend (check : Nat) (run : BackendRun)
  -- the locked section of the goroutine
  | publish (check : Nat)
  | deliver (caller : Nat)
  | cancel (caller : Nat)
  | giveUp (caller : Nat)
  | tick (duration : Nat)

def maxEntries : Nat := 1024

-- Three seconds, in nanoseconds.
def checkTimeout : Nat := 3000000000

section Machine

variable {κ : Type} [DecidableEq κ]

def AuthState.setPhase (s : AuthState κ) (c : Nat) (caller : Caller) (phase : Phase) :
    AuthState κ :=
  { s with callers := s.callers.set c { caller with phase := phase } }

def AuthState.expiry (s : AuthState κ) (id : Nat) : Option Nat :=
  s.checks[id]?.bind Check.expires

-- `entry.expires.IsZero() || time.Now().Before(entry.expires)`
def AuthState.usable (s : AuthState κ) (id : Nat) : Bool :=
  match s.expiry id with
  | none => true
  | some expires => s.now < expires

def AuthState.purge (s : AuthState κ) : AList fun _ : κ => Nat :=
  ⟨s.policies.entries.filter fun entry => s.usable entry.2,
    s.policies.nodupKeys.sublist List.filter_sublist⟩

-- The context a check runs in has ended: at its deadline, or with its caller
-- unless the check is shared (`context.WithoutCancel`).
def AuthState.contextDone (s : AuthState κ) (check : Check) : Bool :=
  decide (check.startedAt + checkTimeout ≤ s.now) ||
    (!check.shared && s.callers[check.starter]?.any Caller.cancelled)

def AuthState.startDirect (s : AuthState κ) (c : Nat) (caller : Caller) : AuthState κ :=
  let id := s.checks.length
  let s := { s with checks := s.checks ++ [Check.new caller.token false c s.now] }
  s.setPhase c caller (.running id)

variable (sha256 : Token → κ) (policyTTL : Nat)

def AuthState.startShared (s : AuthState κ) (c : Nat) (caller : Caller) : AuthState κ :=
  let id := s.checks.length
  let s := { s with
    policies := s.policies.insert (sha256 caller.token) id
    checks := s.checks ++ [Check.new caller.token true c s.now] }
  s.setPhase c caller (.waiting id)

-- No usable entry: make room if the map is full, and run the check outside the
-- cache if that did not help.
def AuthState.start (s : AuthState κ) (c : Nat) (caller : Caller) : AuthState κ :=
  if maxEntries ≤ s.policies.keys.length then
    let s := { s with policies := s.purge }
    if maxEntries ≤ s.policies.keys.length then s.startDirect c caller
    else s.startShared sha256 c caller
  else s.startShared sha256 c caller

-- `authorize` up to its first wait. A `policyTTL` of 0 stands for any that is
-- not positive.
def AuthState.authorize (s : AuthState κ) (c : Nat) (caller : Caller) : AuthState κ :=
  if !wellFormedToken caller.token then s.setPhase c caller .refused
  else if policyTTL = 0 then s.startDirect c caller
  else
    match s.policies.lookup (sha256 caller.token) with
    | some id => if s.usable id then s.setPhase c caller (.waiting id) else s.start sha256 c caller
    | none => s.start sha256 c caller

-- A failed check is taken out of the map in the locked section that makes it
-- visible to the callers waiting for it.
def AuthState.publish (s : AuthState κ) (id : Nat) (check : Check) (failed : Bool) :
    AuthState κ :=
  let published :=
    { check with finished := some ⟨s.now, s.turns⟩, expires := some (s.now + policyTTL) }
  { s with
    policies := if failed then s.policies.erase (sha256 check.token) else s.policies
    checks := s.checks.set id published }

variable (unicodeLower : Char → Char)

def AuthState.act (s : AuthState κ) : AuthLabel → Option (AuthState κ)
  | .enter token =>
      some { s with callers := s.callers ++ [⟨token, ⟨s.now, s.turns⟩, false, .entered⟩] }
  | .lookup c =>
      match s.callers[c]? with
      | some caller =>
          match caller.phase with
          | .entered => some (s.authorize sha256 policyTTL c caller)
          | _ => none
      | none => none
  | .backend id run =>
      match s.checks[id]? with
      | some check =>
          if check.result.isSome then none
          else if (run.endedInPause 0 || run.endedInPause 1) && !s.contextDone check then none
          else
            let finished := if check.shared then none else some ⟨s.now, s.turns⟩
            let result := some (authorizeBackend unicodeLower check.token run)
            let check := { check with result := result, finished := finished }
            some { s with checks := s.checks.set id check }
      | none => none
  | .publish id =>
      match s.checks[id]? with
      | some check =>
          match check.shared, check.result, check.finished with
          | true, some (.ok _), none => some (s.publish sha256 policyTTL id check false)
          | true, some (.error _), none => some (s.publish sha256 policyTTL id check true)
          | _, _, _ => none
      | none => none
  | .deliver c =>
      match s.callers[c]? with
      | some caller =>
          match caller.phase with
          | .waiting id | .running id =>
              match s.checks[id]? with
              | some ⟨_, _, _, _, some result, some _, _⟩ =>
                  some (s.setPhase c caller (.returned id result))
              | _ => none
          | _ => none
      | none => none
  | .cancel c =>
      match s.callers[c]? with
      | some caller => some { s with callers := s.callers.set c { caller with cancelled := true } }
      | none => none
  | .giveUp c =>
      match s.callers[c]? with
      | some caller =>
          match caller.phase, caller.cancelled with
          | .waiting _, true => some (s.setPhase c caller .gaveUp)
          | _, _ => none
      | none => none
  | .tick duration => some { s with now := s.now + duration }

def AuthState.step (s : AuthState κ) (label : AuthLabel) : Option (AuthState κ) :=
  (s.act sha256 policyTTL unicodeLower label).map fun next => { next with turns := s.turns + 1 }

end Machine

end OpenvpnServer.Relay
