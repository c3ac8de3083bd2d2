import OpenvpnServer.Lib.GroupBy
import OpenvpnServer.Relay.Activity.Theorems

-- The UI's record of the relay's sessions in the table relay_sessions, and the
-- thread that keeps it.
namespace OpenvpnServer.Relay.History

open OpenvpnServer.Lib

structure Row where
  grp : Text
  clientName : Text
  credentialID : Text
  transport : Text
  startedAt : Int
  lastSeen : Int
  sampledAt : Int
  active : Int
  accepted : Int
  denied : Int
  failed : Int
  bytesUp : Int
  bytesDown : Int
  uncounted : Int
  deriving DecidableEq

abbrev Table := Dict Text Row

def idleSeconds : Int := 300

def pollSeconds : Int := 5

def retention : Int := 365 * 86400

section Record

-- The group seen last; of groups seen at the same time the first one counts.
def latestGroup (groups : List (Int × Text)) : Option (Int × Text) :=
  groups.foldl (fun best group => match best with
    | none => some group
    | some old => if old.1 < group.1 then some group else some old) none

-- The group of the latest row that a new session continues.
def previousGroup (table : Table) (row : RelaySession) : Option Text :=
  let candidates := table.values.filter fun old =>
    old.clientName = row.client && old.credentialID = row.credentialID &&
      row.startedAt - idleSeconds ≤ old.lastSeen && old.startedAt ≤ row.startedAt
  (latestGroup (candidates.map fun old => (old.lastSeen, old.grp))).map Prod.snd

def newRow (now : Int) (grp : Text) (row : RelaySession) : Row where
  grp := grp
  clientName := row.client
  credentialID := row.credentialID
  transport := row.transport
  startedAt := row.startedAt
  lastSeen := row.lastSeen
  sampledAt := now
  active := row.active
  accepted := row.accepted
  denied := row.denied
  failed := row.failed
  bytesUp := row.bytesUp
  bytesDown := row.bytesDown
  uncounted := row.uncounted

-- ON CONFLICT (id) DO UPDATE
def Row.merge (old : Row) (now : Int) (row : RelaySession) : Row :=
  { old with
    lastSeen := max old.lastSeen row.lastSeen
    sampledAt := now
    active := row.active
    accepted := max old.accepted row.accepted
    denied := max old.denied row.denied
    failed := max old.failed row.failed
    bytesUp := max old.bytesUp row.bytesUp
    bytesDown := max old.bytesDown row.bytesDown
    uncounted := max old.uncounted row.uncounted }

-- Sessions without a client or a credential are not kept.
def complete (row : RelaySession) : Bool := row.client ≠ [] && row.credentialID ≠ []

def recordRow (now : Int) (table : Table) (row : RelaySession) : Table :=
  if complete row = false then table
  else
    table.set row.id (match table.get? row.id with
      | some old => old.merge now row
      | none => newRow now ((previousGroup table row).getD row.id) row)

-- A new relay process has no flows of its predecessor.
def endOthers (instanceName : Text) (table : Table) : Table :=
  if instanceName = [] then table
  else
    table.mapValues fun id row =>
      if 0 < row.active ∧ like (instanceName ++ [':', '%']) id = false then { row with active := 0 }
      else row

def dropExpired (now : Int) (table : Table) : Table :=
  table.filter fun _ row => now - retention ≤ row.lastSeen

def record (instanceName : Text) (rows : List RelaySession) (now : Int) (table : Table) : Table :=
  dropExpired now (rows.foldl (recordRow now) (endOthers instanceName table))

end Record

section Sessions

structure Visit where
  id : Text
  memberIds : List Text
  client : Text
  startedAt : Int
  lastSeen : Int
  active : Int
  accepted : Int
  denied : Int
  failed : Int
  bytesUp : Int
  bytesDown : Int
  uncountedFlows : Int
  state : VisitState
  endedAt : Option Int
  deriving DecidableEq

def sumOf (rows : List (Text × Row)) (value : Row → Int) : Int :=
  (rows.map fun entry => value entry.2).sum

-- One row of the answer. The active flows of a row count while it is sampled.
def visitOf (now : Int) (rows : List (Text × Row)) (key : Text × Text) : Visit :=
  let members := rows.filter fun entry => entry.2.grp = key.1 && entry.2.clientName = key.2
  let lastSeen := ((members.map fun entry => entry.2.lastSeen).max?).getD 0
  let active := sumOf members fun row =>
    if now - 3 * pollSeconds ≤ row.sampledAt then row.active else 0
  let state : VisitState :=
    if active ≠ 0 then .active else if now - lastSeen ≤ idleSeconds then .idle else .ended
  { id := key.1
    memberIds := members.map Prod.fst
    client := key.2
    startedAt := ((members.map fun entry => entry.2.startedAt).min?).getD 0
    lastSeen := lastSeen
    active := active
    accepted := sumOf members Row.accepted
    denied := sumOf members Row.denied
    failed := sumOf members Row.failed
    bytesUp := sumOf members Row.bytesUp
    bytesDown := sumOf members Row.bytesDown
    uncountedFlows := sumOf members Row.uncounted
    state := state
    endedAt := if state = .ended then some lastSeen else none }

-- ORDER BY MIN(started_at) DESC, grp DESC
def Visit.listedBefore (i j : Visit) : Prop :=
  j.startedAt < i.startedAt ∨ i.startedAt = j.startedAt ∧ j.id ≤ i.id

instance : DecidableRel Visit.listedBefore := fun i j =>
  inferInstanceAs (Decidable (j.startedAt < i.startedAt ∨ i.startedAt = j.startedAt ∧ j.id ≤ i.id))

def sessions (client credential : Option Text) (now : Int) (table : Table) : List Visit :=
  let rows := table.entries.filter fun entry =>
    client.all (entry.2.clientName = ·) && credential.all (entry.2.credentialID = ·)
  let keys := fromKeys (rows.map fun entry => (entry.2.grp, entry.2.clientName))
  ((keys.map (visitOf now rows)).insertionSort Visit.listedBefore).take 200

end Sessions

section Collector

-- `{row['id']: row for row in status.get('sessions', [])}`
def snapshots (rows : List RelaySession) : Dict Text RelaySession :=
  rows.foldl (fun snapshots row => snapshots.set row.id row) .empty

-- The rows that differ from those of the last answer that was recorded.
def changed (seen : Dict Text RelaySession) (snapshots : Dict Text RelaySession) :
    List RelaySession :=
  (snapshots.entries.filter fun entry => seen.get? entry.1 ≠ some entry.2).map Prod.snd

-- The running relay and the UI. `used` are the names of all relay processes, `answered`
-- and `clock` what the running one answered so far and its time at the last answer. In
-- `full` every turn recorded its whole answer.
structure System where
  relay : Traced
  used : List Text
  answered : List RelaySession
  clock : Option Int
  table : Table
  seen : Dict Text RelaySession
  full : Table

def System.init (instanceName transport : Text) : System where
  relay := .init instanceName transport
  used := [instanceName]
  answered := []
  clock := none
  table := .empty
  seen := .empty
  full := .empty

inductive Step where
  | relay (label : FlowStep)
  | restartRelay (instanceName transport : Text)
  | restartUi
  -- a turn that gets no answer
  | unread
  -- a turn with an answer at the relay's time; the transaction is committed or rolled back
  | turn (relayNow now : Int) (committed : Bool)

def System.answer (s : System) (relayNow : Int) : List RelaySession :=
  (s.relay.log.status [] relayNow).sessions

def System.asked (s : System) (relayNow : Int) : System :=
  { s with answered := s.answer relayNow ++ s.answered, clock := some relayNow }

def System.recorded (s : System) (relayNow now : Int) : System :=
  { s.asked relayNow with
    table := record s.relay.log.instanceName (changed s.seen (snapshots (s.answer relayNow))) now
      s.table
    seen := snapshots (s.answer relayNow)
    full := record s.relay.log.instanceName (s.answer relayNow) now s.full }

def System.step (s : System) : Step → Option System
  | .relay label => (s.relay.step label).map fun relay => { s with relay := relay }
  | .restartRelay instanceName transport =>
      some { s with
        relay := .init instanceName transport
        used := instanceName :: s.used
        answered := []
        clock := none }
  | .restartUi => some { s with seen := .empty }
  | .unread => some s
  | .turn relayNow now committed =>
      some (if committed then s.recorded relayNow now else s.asked relayNow)

end Collector

end OpenvpnServer.Relay.History
