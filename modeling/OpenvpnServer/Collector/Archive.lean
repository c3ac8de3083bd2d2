import OpenvpnServer.Collector.Bytes
import OpenvpnServer.Collector.Handshake

namespace OpenvpnServer.Collector

open OpenvpnServer.Lib

section Archive

-- f"{name}#{now}"
def archiveKey (name : Text) (now : Nat) : Text := name ++ '#' :: Nat.toDigits 10 now

def renamed (name key client : Text) : Text := if client = name then key else client

-- UPDATE .. SET client_name = key WHERE client_name = name. It fails if a row gets
-- the primary key of another.
def Traffic.rename (name key : Text) (table : Traffic) : Option Traffic :=
  let entries := table.entries.map fun row => ((row.1.1, renamed name key row.1.2), row.2)
  if h : (entries.map Prod.fst).Nodup then some ⟨entries, h⟩ else none

def Traffic.has (name : Text) (table : Traffic) : Bool :=
  table.entries.any fun row => row.1.2 = name

def Database.hasHistory (db : Database) (name : Text) : Bool :=
  db.sessions.values.any (fun row => row.clientName = name) ||
    db.minute.has name || db.hour.has name || db.day.has name

-- `archive_client_history` without <before>; `none` when the transaction fails.
def Database.archiveClientHistory (db : Database) (name : Text) (now : Nat) : Option Database :=
  if db.hasHistory name then do
    let key := archiveKey name now
    let minute ← db.minute.rename name key
    let hour ← db.hour.rename name key
    let day ← db.day.rename name key
    let sessions := db.sessions.mapValues fun _ row =>
      { row with clientName := renamed name key row.clientName }
    some { db with sessions, minute, hour, day }
  else some db

end Archive

section History

-- A connection by what its row keeps of it for good. In a row that only the log
-- told of there is no client id.
structure Connection where
  cid : Option Nat
  since : Nat
  address : Text
  deriving DecidableEq, Repr

def Session.connection (row : Session) : Connection :=
  ⟨row.cid, row.connectedAt, row.realAddress⟩

def Client.connection (now : Nat) (cl : Client) : Connection :=
  ⟨some cl.cid, cl.connectedAt now, cl.realAddress⟩

def countedBytes (now : Nat) (state : Active × Database) (cl : Client) : Bytes :=
  match state.1.get? cl.key with
  | some entry =>
      ((countedSince cl.bytes.1 entry.bytes.1).toNat, (countedSince cl.bytes.2 entry.bytes.2).toNat)
  | none =>
      match state.2.findSession cl.cn cl.cid (cl.connectedAt now) with
      | some (_, prev) =>
          ((grownBy cl.bytes.1 prev.bytes.1).toNat, (grownBy cl.bytes.2 prev.bytes.2).toNat)
      | none => cl.bytes

def countedFor (now : Nat) (wanted : Client → Bool) :
    List Client → Active × Database → Bytes
  | [], _ => 0
  | cl :: rest, state =>
      (if wanted cl then countedBytes now state cl else 0) +
        countedFor now wanted rest (pollClient now state cl)

-- The collector with the history of one client name: the archive key, once there
-- is one, the bytes counted so far for connections of the old certificate, and
-- those of other connections before the archive step and since.
structure History where
  world : World
  archivedAs : Option Text
  oldBytes : Bytes
  archivedNew : Bytes
  newBytes : Bytes
  deriving DecidableEq

def History.init : History := ⟨.init, none, 0, 0, 0⟩

inductive HistoryStep where
  | turn (turn : Turn)
  -- `_create_client`, from the certificate's creation on
  | archive (now : Nat)
  deriving DecidableEq

variable (name : Text) (old : Connection → Bool)

def History.counted (h : History) (status : Status) (now : Nat) (wanted : Bool) : Bytes :=
  countedFor now (fun cl => decide (cl.cn = name) && (old (cl.connection now) == wanted))
    status.counted (h.world.collector.active, h.world.db)

def History.step (h : History) : HistoryStep → Option History
  | .turn turn =>
      let world := h.world.step turn
      match turn with
      | .poll status now fails =>
          match pollOutcome h.world.collector h.world.db status now fails with
          | .committed _ _ =>
              some { h with
                world
                oldBytes := h.oldBytes + h.counted name old status now true
                newBytes := h.newBytes + h.counted name old status now false }
          | _ => some { h with world }
      | _ => some { h with world }
  | .archive now =>
      if h.archivedAs = none then
        match h.world.db.archiveClientHistory name now with
        | none => some h
        | some db =>
            some { h with
              world := { h.world with db }
              archivedAs := some (archiveKey name now)
              archivedNew := h.newBytes
              newBytes := 0 }
      else none

-- What is under the name after the archive step is of connections of the new
-- certificate, and what is of the old one's is under the archive key.
structure CleanHistory (h : History) (key : Text) : Prop where
  rows : ∀ id row, h.world.db.sessions.get? id = some row → row.clientName = name →
    old row.connection = false
  archivedRows : ∀ id row, h.world.db.sessions.get? id = some row →
    row.clientName = name ∨ row.clientName = key → old row.connection = true →
      row.clientName = key
  bytes : h.world.db.trafficOf name = h.newBytes
  archivedBytes : h.world.db.trafficOf key = h.oldBytes + h.archivedNew

end History

end OpenvpnServer.Collector
