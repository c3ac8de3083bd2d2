import OpenvpnServer.Lib.Run
import OpenvpnServer.Relay.Flow

-- `connectTCP` as it runs: one goroutine for each address of an attempt, the receiving
-- loop, and the contexts. Every select takes any of its ready cases.
namespace OpenvpnServer.Relay.Race

open OpenvpnServer.Lib OpenvpnServer.Lib.Netip

inductive Attempt where
  | first
  | second
  deriving DecidableEq, Repr

-- The connection of the dial to the `index`-th address.
structure ConnId where
  attempt : Attempt
  index : Nat
  deriving DecidableEq, Repr

inductive ConnState where
  | unopened
  | open
  | closed
  deriving DecidableEq, Repr

-- Where a goroutine of `dialTCP` stands: before its timer, in `DialContext`, in the select
-- that hands its result over, before `conn.Close()`, or behind all of it.
inductive Phase where
  | waiting
  | dialing
  | offering (err : Option DialError)
  | closing
  | ended
  deriving DecidableEq, Repr

structure Dialer where
  phase : Phase
  conn : ConnState
  deriving DecidableEq, Repr

-- What the two functions return. Without an address it is the zero `AddrPort`.
structure Result where
  conn : Option ConnId
  addr : Option AddrPort
  err : Option DialError
  deriving DecidableEq, Repr

def Result.failed (err : DialError) : Result := ⟨none, none, some err⟩

-- The caller's goroutine: in the receiving loop with some turns left, before the deferred
-- `cancel` of `dialTCP`, at the check of the first attempt's error, in the pause, or back.
inductive Main where
  | receiving (attempt : Attempt) (turns : Nat) (last : DialError)
  | leaving (attempt : Attempt) (result : Result)
  | checking (result : Result)
  | pausing
  | returned (result : Result)
  deriving DecidableEq, Repr

-- `expired` is the context of `connectTCP`, `done` those of its attempts; there is none of
-- the second attempt before its start.
structure State where
  dialers : Attempt → List Dialer
  done : Attempt → Bool
  expired : Bool
  main : Main

inductive Action where
  | timer
  | quit
  | dialed (err : Option DialError)
  | drop
  | close
  deriving DecidableEq, Repr

inductive Call where
  | cancelled
  | exhausted
  | leave
  | check
  | retry
  | giveUp
  deriving DecidableEq, Repr

-- `expire` and `expireAttempt` are timeouts and cancellations.
inductive Step where
  | dialer (id : ConnId) (action : Action)
  | handOver (id : ConnId)
  | call (call : Call)
  | expire
  | expireAttempt (attempt : Attempt)
  deriving DecidableEq, Repr

variable (addresses : List AddrPort)

def started : List Dialer := addresses.map fun _ => ⟨.waiting, .unopened⟩

def init : State where
  dialers
    | .first => started addresses
    | .second => []
  done
    | .first => false
    | .second => true
  expired := false
  main := .receiving .first addresses.length .noDestination

def State.dialer? (s : State) (id : ConnId) : Option Dialer := (s.dialers id.attempt)[id.index]?

def State.setDialer (s : State) (id : ConnId) (dialer : Dialer) : State :=
  { s with
    dialers := Function.update s.dialers id.attempt
      ((s.dialers id.attempt).set id.index dialer) }

def State.cancel (s : State) (attempt : Attempt) : State :=
  { s with done := Function.update s.done attempt true }

def dialerStep (done : Bool) (dialer : Dialer) : Action → Option Dialer
  | .timer => if dialer.phase = .waiting then some { dialer with phase := .dialing } else none
  | .quit =>
      if dialer.phase = .waiting ∧ done = true then some { dialer with phase := .ended } else none
  | .dialed none => if dialer.phase = .dialing then some ⟨.offering none, .open⟩ else none
  | .dialed (some err) =>
      if dialer.phase = .dialing then some { dialer with phase := .offering (some err) } else none
  | .drop =>
      match dialer.phase with
      | .offering none => if done then some { dialer with phase := .closing } else none
      | .offering (some _) => if done then some { dialer with phase := .ended } else none
      | _ => none
  | .close => if dialer.phase = .closing then some ⟨.ended, .closed⟩ else none

-- The receiver takes the result of a goroutine that waits in its select.
def receive (id : ConnId) (turns : Nat) : Option DialError → Main
  | none => .leaving id.attempt ⟨some id, addresses[id.index]?, none⟩
  | some err => .receiving id.attempt turns err

def handOver (s : State) (id : ConnId) : Option State :=
  match s.main, s.dialer? id with
  | .receiving attempt (turns + 1) _, some ⟨.offering err, conn⟩ =>
      if attempt = id.attempt then
        some { s.setDialer id ⟨.ended, conn⟩ with main := receive addresses id turns err }
      else none
  | _, _ => none

-- Returning from `connectTCP` cancels its context. `retry` starts all goroutines of the
-- second attempt at once: what one does before the next is started it can do behind that.
def callStep (s : State) : Call → Option State
  | .cancelled =>
      match s.main with
      | .receiving attempt (_ + 1) _ =>
          if s.done attempt then some { s with main := .leaving attempt (.failed .contextEnded) }
          else none
      | _ => none
  | .exhausted =>
      match s.main with
      | .receiving attempt 0 last => some { s with main := .leaving attempt (.failed last) }
      | _ => none
  | .leave =>
      match s.main with
      | .leaving .first result => some { s.cancel .first with main := .checking result }
      | .leaving .second result =>
          some { s.cancel .second with main := .returned result, expired := true }
      | _ => none
  | .check =>
      match s.main with
      | .checking result =>
          if result.err = none ∨ s.expired = true then
            some { s with main := .returned result, expired := true }
          else if result.err ≠ some .refused then
            some { s with main := .returned ⟨none, result.addr, result.err⟩, expired := true }
          else some { s with main := .pausing }
      | _ => none
  | .retry =>
      match s.main with
      | .pausing =>
          some { s with
            dialers := Function.update s.dialers .second (started addresses)
            done := Function.update s.done .second s.expired
            main := .receiving .second addresses.length .noDestination }
      | _ => none
  | .giveUp =>
      match s.main with
      | .pausing =>
          if s.expired then some { s with main := .returned (.failed .contextEnded) } else none
      | _ => none

def step (s : State) : Step → Option State
  | .dialer id action =>
      ((s.dialer? id).bind fun dialer => dialerStep (s.done id.attempt) dialer action).map
        (s.setDialer id)
  | .handOver id => handOver addresses s id
  | .call call => callStep addresses s call
  | .expire => if s.expired then none else some { s with expired := true }
  | .expireAttempt attempt => if s.done attempt then none else some (s.cancel attempt)

end OpenvpnServer.Relay.Race
