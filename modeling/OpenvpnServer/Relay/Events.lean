import OpenvpnServer.Lib.Ring
import OpenvpnServer.Relay.Activity

-- The relay's latest events: `record` keeps them in a ring, a status read lists them.
namespace OpenvpnServer.Relay

open OpenvpnServer.Lib

-- An event with the kind and the times that `snapshot` gives it.
structure RecordedEvent extends FlowEvent where
  method : Text
  upstreamError : Text
  time : Int
  kind : Text
  duration : Int
  deriving DecidableEq

def maxEvents : Nat := 500

def maxFailureLogs : Nat := 20

-- `events` and `next` of the source are the cells of the ring and its index.
structure EventLog where
  events : Ring RecordedEvent maxEvents
  logSecond : Int
  logCount : Nat
  logsSuppressed : Nat
  deriving DecidableEq

namespace EventLog

def new : EventLog where
  events := .empty (by decide)
  logSecond := 0
  logCount := 0
  logsSuppressed := 0

-- The section of `record` under the mutex, in the second `second`, and whether the
-- event is printed afterwards. Of repeated failures only the first ones of a second are.
def record (a : EventLog) (e : RecordedEvent) (second : Int) : EventLog × Bool :=
  let logCount := if a.logSecond ≠ second then 0 else a.logCount
  let failure := e.kind ≠ "connected".toList ∧ e.kind ≠ "closed".toList
  let suppressed := failure ∧ maxFailureLogs ≤ logCount
  ({ events := a.events.push e
     logSecond := second
     logCount := if failure ∧ ¬suppressed then logCount + 1 else logCount
     logsSuppressed := if suppressed then a.logsSuppressed + 1 else a.logsSuppressed },
    e.kind ≠ "connected".toList ∧ ¬suppressed)

-- One call after the other; `a.mu` keeps them apart.
def recordAll (a : EventLog) (calls : List (RecordedEvent × Int)) : EventLog :=
  calls.foldl (fun a call => (a.record call.1 call.2).1) a

-- The events of a status read; `selected` is the client of the query, empty for all.
def statusEvents (a : EventLog) (selected : Text) : List RecordedEvent :=
  let events := a.events.cells.drop a.events.next ++ a.events.cells.take a.events.next
  if selected ≠ [] then events.filter fun e => e.client = selected else events

theorem events_recordAll (a : EventLog) (calls : List (RecordedEvent × Int)) :
    (a.recordAll calls).events = (calls.map Prod.fst).foldl Ring.push a.events := by
  induction calls generalizing a with
  | nil => rfl
  | cons call rest ih =>
      rw [recordAll, List.foldl_cons, ← recordAll, ih, List.map_cons, List.foldl_cons]
      rfl

-- A read without a client shows the last events in the order of their calls, and one
-- with a client those of them that are this client's.
theorem status_lists_latest_events (calls : List (RecordedEvent × Int)) :
    (new.recordAll calls).statusEvents [] = (calls.map Prod.fst).rtake maxEvents ∧
      ∀ c name, (new.recordAll calls).statusEvents (c :: name) =
        ((calls.map Prod.fst).rtake maxEvents).filter fun e => e.client = c :: name := by
  have hlatest : (new.recordAll calls).events.toList = (calls.map Prod.fst).rtake maxEvents := by
    rw [events_recordAll, Ring.toList_foldl_push, new, Ring.toList_empty, List.nil_append]
  refine ⟨?_, fun c name => ?_⟩
  · rw [← hlatest, statusEvents, if_neg (by simp)]
    rfl
  · rw [← hlatest, statusEvents, if_pos (List.cons_ne_nil c name)]
    rfl

end EventLog

end OpenvpnServer.Relay
