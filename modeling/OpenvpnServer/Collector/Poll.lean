import OpenvpnServer.Collector.Database

namespace OpenvpnServer.Collector

open OpenvpnServer.Lib

-- One CLIENT_LIST line of a status.
structure Client where
  cn : Text
  realAddress : Text
  vpnIp : Text
  bytes : Bytes
  connectedSince : Nat
  username : Text
  cid : Nat
  cipher : Text
  deriving DecidableEq, Repr

structure Status where
  time : Nat
  clients : List Client
  fromFile : Bool
  deriving DecidableEq, Repr

structure Key where
  cid : Nat
  connectedSince : Nat
  cn : Text
  deriving DecidableEq, Repr

structure Entry where
  sessionId : Nat
  bytes : Bytes
  deriving DecidableEq, Repr

abbrev Active := Dict Key Entry

structure Peer where
  ts : Nat
  cn : Option Text
  plat : Option Text
  ver : Option Text
  guiVer : Option Text
  deriving DecidableEq, Repr

structure CollectorState where
  statusTime : Option Nat
  active : Active
  pending : Dict Text Peer
  resync : Bool
  -- live["connected"]
  connected : Bool
  deriving DecidableEq

def CollectorState.new : CollectorState := ⟨none, .empty, .empty, false, false⟩

-- Past the TLS handshake: a certificate was accepted and an address given.
def Client.counted (cl : Client) : Bool :=
  cl.cn ≠ [] ∧ cl.cn ≠ "UNDEF".toList ∧ cl.vpnIp ≠ []

def Client.key (cl : Client) : Key := ⟨cl.cid, cl.connectedSince, cl.cn⟩

def Status.counted (status : Status) : List Client := status.clients.filter Client.counted

section Transaction

variable (now : Nat)

-- `connected_since or now`
def Client.connectedAt (cl : Client) : Nat := if cl.connectedSince = 0 then now else cl.connectedSince

def Client.row (cl : Client) : Session :=
  { clientName := cl.cn, cid := some cl.cid, realAddress := cl.realAddress
    vpnIp := some cl.vpnIp, username := some cl.username, cipher := some cl.cipher
    connectedAt := cl.connectedAt now, lastSeen := now, disconnectedAt := none
    bytes := cl.bytes, proto := none, platform := none, clientVer := none, endReason := none
    grp := none }

def Session.reopened (cl : Client) (row : Session) : Session :=
  { row with disconnectedAt := none, lastSeen := now, bytes := cl.bytes }

def Session.refreshed (cl : Client) (row : Session) : Session :=
  { row with
    lastSeen := now
    bytes := cl.bytes
    vpnIp := if cl.vpnIp ≠ [] then some cl.vpnIp else row.vpnIp
    cipher := if cl.cipher ≠ [] then some cl.cipher else row.cipher }

-- Growth of a counter since a row was last written; a row never shrinks a total.
def grownBy (counter before : Nat) : Int := max ((counter : Int) - before) 0

-- Growth since the last poll; a smaller counter has started again at zero.
def countedSince (counter before : Nat) : Int :=
  if (counter : Int) - before < 0 then counter else (counter : Int) - before

def minuteOf : Nat := now - now % 60

-- One client of the status: known from the last poll, known from an earlier run
-- by its row, or new.
def pollClient (state : Active × Database) (cl : Client) : Active × Database :=
  let (active, db) := state
  match active.get? cl.key with
  | some entry =>
      let db := db.updateSession entry.sessionId (Session.refreshed now cl)
      (active.set cl.key { entry with bytes := cl.bytes },
        db.addTraffic (minuteOf now) cl.cn (countedSince cl.bytes.1 entry.bytes.1)
          (countedSince cl.bytes.2 entry.bytes.2))
  | none =>
      match db.findSession cl.cn cl.cid (cl.connectedAt now) with
      | some (id, prev) =>
          let db := db.updateSession id (Session.reopened now cl)
          (active.set cl.key ⟨id, cl.bytes⟩,
            db.addTraffic (minuteOf now) cl.cn (grownBy cl.bytes.1 prev.bytes.1)
              (grownBy cl.bytes.2 prev.bytes.2))
      | none =>
          let (id, db) := db.insertSession (cl.row now)
          (active.set cl.key ⟨id, cl.bytes⟩,
            db.addTraffic (minuteOf now) cl.cn cl.bytes.1 cl.bytes.2)

def closeOne (reason : Option Text) (state : Active × Database) (key : Key) : Active × Database :=
  let (active, db) := state
  match active.get? key with
  | none => (active, db)
  | some entry => (active.erase key, db.updateSession entry.sessionId (Session.closed now reason))

def closeSessions (reason : Option Text) (keys : List Key) (state : Active × Database) :
    Active × Database :=
  keys.foldl (closeOne now reason) state

def Session.closedUnless (ids : List Nat) (id : Nat) (row : Session) : Session :=
  if row.disconnectedAt = none ∧ id ∉ ids then { row with disconnectedAt := some row.lastSeen }
  else row

-- UPDATE .. SET disconnected_at = last_seen .. AND id NOT IN (..). An empty list
-- is a syntax error, so the statement, and with it the transaction, fails.
def Database.closeOthers (db : Database) (ids : List Nat) : Option Database :=
  if ids = [] then none
  else some { db with sessions := db.sessions.mapValues (Session.closedUnless ids) }

-- The two loops of the transaction of `poll`: the listed clients, then those of
-- `_active` that are no longer listed.
def pollLoops (active : Active) (db : Database) (status : Status) : Active × Database :=
  let polled := status.counted.foldl (pollClient now) (active, db)
  let gone := polled.1.keys.filter (· ∉ status.counted.map Client.key)
  closeSessions now none gone polled

-- The whole transaction; `none` when a statement is rejected.
def pollTx (resync : Bool) (active : Active) (db : Database) (status : Status) :
    Option (Active × Database) :=
  let (active, db) := pollLoops now active db status
  if resync then (db.closeOthers (active.values.map Entry.sessionId)).map fun db => (active, db)
  else some (active, db)

end Transaction

-- What `run` makes of an exception out of `poll` or `_handle_down`.
def CollectorState.forget (c : CollectorState) : CollectorState :=
  { c with active := .empty, statusTime := none, resync := true }

-- The status file has not been rewritten since the last poll.
def CollectorState.unchanged (c : CollectorState) (status : Status) : Bool :=
  status.fromFile && decide (c.statusTime = some status.time) && c.connected

inductive PollOutcome where
  | skipped
  | committed (active : Active) (db : Database)
  | rolledBack

-- `fails` says whether the database fails for a reason of its own.
def pollOutcome (c : CollectorState) (db : Database) (status : Status) (now : Nat) (fails : Bool) :
    PollOutcome :=
  if c.unchanged status then .skipped
  else if fails then .rolledBack
  else
    match pollTx now c.resync c.active db status with
    | none => .rolledBack
    | some (active, db) => .committed active db

def CollectorState.poll (c : CollectorState) (db : Database) (status : Status) (now : Nat) (fails : Bool) :
    CollectorState × Database :=
  match pollOutcome c db status now fails with
  | .skipped => (c, db)
  | .rolledBack => (c.forget, db)
  | .committed active db =>
      ({ c with active, statusTime := some status.time, resync := false, connected := true }, db)

-- `_handle_down`, and what `run` makes of its failure.
def CollectorState.handleDown (c : CollectorState) (db : Database) (now : Nat) (fails : Bool) :
    CollectorState × Database :=
  if c.active.entries = [] then ({ c with statusTime := none, connected := false }, db)
  else if fails then (c.forget, db)
  else
    let (active, db) := closeSessions now (some "server down".toList) c.active.keys (c.active, db)
    ({ c with active, statusTime := none, connected := false }, db)

end OpenvpnServer.Collector
