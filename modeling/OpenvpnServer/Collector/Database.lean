import Mathlib.Data.List.Sort
import OpenvpnServer.Lib.Dict
import OpenvpnServer.Lib.Text

namespace OpenvpnServer.Collector

open OpenvpnServer.Lib

abbrev Bytes := Nat × Nat

-- Protocol and "ip:port" of a real address as OpenVPN prints it.
def splitAddress (address : Text) : Option Text × Text :=
  match cutFirst ':' address with
  | some (head, rest) =>
      if head.take 3 = "udp".toList ∨ head.take 3 = "tcp".toList then (some (head.take 3), rest)
      else (none, address)
  | none => (none, address)

def realIp (address : Text) : Text :=
  match cutLast ':' (splitAddress address).2 with
  | some (ip, _) => ip
  | none => []

-- A row of vpn_sessions; its id is the key it is stored under. `cid` is NULL in
-- the rows that only the log told of.
structure Session where
  clientName : Text
  cid : Option Nat
  realAddress : Text
  vpnIp : Option Text
  username : Option Text
  cipher : Option Text
  connectedAt : Nat
  lastSeen : Nat
  disconnectedAt : Option Nat
  bytes : Bytes
  proto : Option Text
  platform : Option Text
  clientVer : Option Text
  endReason : Option Text
  grp : Option Nat
  deriving DecidableEq

-- A traffic table, keyed by the start of the bucket and the client.
abbrev Traffic := Dict (Nat × Text) Bytes

structure Rejection where
  day : Nat
  clientName : Text
  reason : Text
  address : Text
  deriving DecidableEq

structure Database where
  sessions : Dict Nat Session
  -- the identity column's next value
  nextId : Nat
  minute : Traffic
  hour : Traffic
  day : Traffic
  -- count and time of the latest one
  rejections : Dict Rejection (Nat × Nat)
  deriving DecidableEq

def Database.empty : Database := ⟨.empty, 1, .empty, .empty, .empty, .empty⟩

section Traffic

-- INSERT ... ON CONFLICT DO UPDATE, adding to the row that is there.
def Traffic.add (table : Traffic) (key : Nat × Text) (bytes : Bytes) : Traffic :=
  table.set key (match table.get? key with
    | none => bytes
    | some old => old + bytes)

def Database.addTraffic (db : Database) (minute : Nat) (name : Text) (dIn dOut : Int) :
    Database :=
  if dIn ≤ 0 ∧ dOut ≤ 0 then db
  else { db with minute := db.minute.add (minute, name) ((max dIn 0).toNat, (max dOut 0).toNat) }

def minuteRetention : Nat := 2 * 86400

def hourRetention : Nat := 90 * 86400

-- SELECT (ts / width) * width, client_name, SUM(..) WHERE ts < cutoff GROUP BY 1, 2
def Traffic.grouped (table : Traffic) (width cutoff : Nat) : Traffic :=
  (table.filter fun key _ => key.1 < cutoff).entries.foldl
    (fun groups row => groups.add (row.1.1 / width * width, row.1.2) row.2) .empty

def Traffic.addAll (table groups : Traffic) : Traffic :=
  groups.entries.foldl (fun table row => table.add row.1 row.2) table

def Traffic.since (table : Traffic) (cutoff : Nat) : Traffic :=
  table.filter fun key _ => cutoff ≤ key.1

-- Old minutes into hours, then old hours, those just written included, into days.
def Database.rollup (db : Database) (now : Nat) : Database :=
  let hour := db.hour.addAll (db.minute.grouped 3600 (now - minuteRetention))
  { db with
    minute := db.minute.since (now - minuteRetention)
    day := db.day.addAll (hour.grouped 86400 (now - hourRetention))
    hour := hour.since (now - hourRetention)
    rejections := db.rejections.filter fun key _ => now - hourRetention ≤ key.day }

end Traffic

def Database.addRejection (db : Database) (ts : Nat) (name reason address : Text) : Database :=
  let key : Rejection := ⟨ts - ts % 86400, name, reason, address⟩
  let row := match db.rejections.get? key with
    | none => (1, ts)
    | some (count, lastTs) => (count + 1, max lastTs ts)
  { db with rejections := db.rejections.set key row }

section Sessions

-- Newest first: ORDER BY connected_at DESC, id DESC.
def newer (a b : Nat × Session) : Prop :=
  b.2.connectedAt < a.2.connectedAt ∨ (b.2.connectedAt = a.2.connectedAt ∧ b.1 ≤ a.1)

instance (a b : Nat × Session) : Decidable (newer a b) := by
  unfold newer
  infer_instance

instance : Std.Total newer := ⟨fun a b => by unfold newer; omega⟩

instance : IsTrans (Nat × Session) newer := ⟨fun a b c => by unfold newer; omega⟩

def Database.newest20 (db : Database) (wanted : Session → Bool) : List (Nat × Session) :=
  ((db.sessions.entries.filter fun row => wanted row.2).insertionSort newer).take 20

def Session.closedStale (row : Session) : Session :=
  if row.disconnectedAt = none then { row with disconnectedAt := some row.lastSeen } else row

def Database.closeStaleSessions (db : Database) : Database :=
  { db with sessions := db.sessions.mapValues fun _ row => row.closedStale }

def later (best : Option (Nat × Session)) (row : Nat × Session) : Option (Nat × Session) :=
  match best with
  | none => some row
  | some other => if other.1 < row.1 then some row else some other

-- The most recent row of a connection, matched by name, client id and start time.
def Database.findSession (db : Database) (name : Text) (cid connectedAt : Nat) :
    Option (Nat × Session) :=
  (db.sessions.entries.filter fun row => decide
    (row.2.clientName = name ∧ row.2.cid = some cid ∧ row.2.connectedAt = connectedAt)).foldl
      later none

def Database.latestSession (db : Database) (name address : Text) (since : Nat) :
    Option (Nat × Session) :=
  (db.newest20 fun row => decide
    (row.clientName = name ∧ (since ≤ row.connectedAt ∨ row.disconnectedAt = none))).find?
      fun row => (splitAddress row.2.realAddress).2 = (splitAddress address).2

def mergeGap : Nat := 15 * 60

def Database.sessionGroup (db : Database) (name address : Text) (connectedAt : Nat) :
    Option Nat :=
  match (db.newest20 fun row => row.clientName = name).find?
      (fun row => realIp row.2.realAddress = realIp address) with
  | none => none
  | some (_, row) =>
      if connectedAt ≤ row.disconnectedAt.getD row.lastSeen + mergeGap then row.grp else none

-- `row` carries the fields given by the caller; protocol and visit are filled in.
def Database.insertSession (db : Database) (row : Session) : Nat × Database :=
  let grp := (db.sessionGroup row.clientName row.realAddress row.connectedAt).getD db.nextId
  let row := { row with proto := (splitAddress row.realAddress).1, grp := some grp }
  (db.nextId, { db with sessions := db.sessions.set db.nextId row, nextId := db.nextId + 1 })

def Database.updateSession (db : Database) (id : Nat) (f : Session → Session) : Database :=
  { db with sessions := db.sessions.modify id f }

-- UPDATE .. SET disconnected_at, end_reason .. WHERE id = ? AND disconnected_at IS NULL
def Session.closed (now : Nat) (reason : Option Text) (row : Session) : Session :=
  if row.disconnectedAt = none then
    { row with disconnectedAt := some now, endReason := row.endReason.or reason }
  else row

end Sessions

end OpenvpnServer.Collector
