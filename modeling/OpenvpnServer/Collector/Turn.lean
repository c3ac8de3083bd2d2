import OpenvpnServer.Collector.Logs

namespace OpenvpnServer.Collector

open OpenvpnServer.Lib

structure World where
  collector : CollectorState
  db : Database
  deriving DecidableEq

def World.init : World := ⟨.new, .empty⟩

-- The steps the collector's thread, a restart of its process and the hourly
-- maintenance are made of. `fails` says that the database fails the step's
-- transaction for a reason of its own.
inductive Turn where
  | poll (status : Status) (now : Nat) (fails : Bool)
  -- the management interface or the status could not be read
  | down (now : Nat) (fails : Bool)
  -- a new process, whose first act is `close_stale_sessions`
  | restart (closes : Bool)
  | readLogs (now : Nat) (files : List LogRead) (stops : Option Nat)
  | rollup (now : Nat)
  deriving DecidableEq

def World.step (w : World) : Turn → World
  | .poll status now fails =>
      let (collector, db) := w.collector.poll w.db status now fails
      ⟨collector, db⟩
  | .down now fails =>
      let (collector, db) := w.collector.handleDown w.db now fails
      ⟨collector, db⟩
  | .restart closes => ⟨.new, if closes then w.db.closeStaleSessions else w.db⟩
  | .readLogs now files stops =>
      let (pending, db) := readLogs now stops files (w.collector.pending, w.db)
      ⟨{ w.collector with pending }, db⟩
  | .rollup now => ⟨w.collector, w.db.rollup now⟩

-- The last counters committed for each connection.
abbrev Counters := Dict Key Bytes

-- A run with its history: the counters last committed for each connection, and
-- the clients of the status last committed.
structure Traced where
  world : World
  counters : Counters
  polled : List Client
  deriving DecidableEq

def Traced.init : Traced := ⟨.init, .empty, []⟩

def Traced.step (t : Traced) (turn : Turn) : Traced :=
  let world := t.world.step turn
  match turn with
  | .poll status now fails =>
      match pollOutcome t.world.collector t.world.db status now fails with
      | .committed _ _ =>
          { world
            counters := status.counted.foldl (fun counters cl => counters.set cl.key cl.bytes)
              t.counters
            polled := status.clients }
      | _ => { t with world }
  | _ => { t with world }

end OpenvpnServer.Collector
