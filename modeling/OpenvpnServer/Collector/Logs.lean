import OpenvpnServer.Collector.Poll

namespace OpenvpnServer.Collector

open OpenvpnServer.Lib

inductive InfoKey where
  | plat
  | ver
  | guiVer
  deriving DecidableEq, Repr

-- A log line as `parse_rejection` and `parse_connection` understand it.
inductive LogLine where
  | rejection (ts : Nat) (client reason address : Text)
  | info (ts : Nat) (address : Text) (key : InfoKey) (value : Text)
  | opened (ts : Nat) (address : Text) (cn : Text)
  | ended (ts : Nat) (address : Text) (cn : Option Text) (reason : Text)
  deriving DecidableEq, Repr

def Peer.new (ts : Nat) : Peer := ⟨ts, none, none, none, none⟩

def Peer.setInfo (peer : Peer) (value : Text) : InfoKey → Peer
  | .plat => { peer with plat := some value }
  | .ver => { peer with ver := some value }
  | .guiVer => { peer with guiVer := some value }

-- `peer.get("GUI_VER") or peer.get("VER")`
def Peer.version (peer : Peer) : Option Text :=
  match peer.guiVer with
  | some (c :: rest) => some (c :: rest)
  | _ => peer.ver

def Session.withDevice (address : Text) (peer : Peer) (row : Session) : Session :=
  { row with
    platform := peer.plat
    clientVer := peer.version
    proto := (splitAddress address).1.or row.proto }

-- A session the log tells of that no status ever listed.
def Session.ofLog (cn address : Text) (peer : Peer) (ts : Nat) (reason : Text) : Session :=
  { clientName := cn, cid := none, realAddress := address, vpnIp := none, username := none
    cipher := none, connectedAt := peer.ts, lastSeen := ts, disconnectedAt := some ts
    bytes := (0, 0), proto := none, platform := none, clientVer := none
    endReason := some reason, grp := none }

abbrev Pending := Dict Text Peer

-- One line of the log, within the transaction of its file.
def logLine (state : Pending × Database) (line : LogLine) : Pending × Database :=
  let (pending, db) := state
  match line with
  | .rejection ts client reason address => (pending, db.addRejection ts client reason address)
  | .info ts address key value =>
      (pending.set address (((pending.get? address).getD (Peer.new ts)).setInfo value key), db)
  | .opened ts address cn =>
      let peer := (pending.get? address).getD (Peer.new ts)
      (pending.set address { peer with ts := ts, cn := some cn }, db)
  | .ended _ address none _ => (pending.erase address, db)
  | .ended ts address (some cn) reason =>
      let peer := pending.get? address
      let since := match peer with
        | some peer => peer.ts - 30
        | none => 0
      match db.latestSession cn address since, peer with
      | some (id, _), none =>
          (pending.erase address,
            db.updateSession id fun row => { row with endReason := some reason })
      | some (id, _), some peer =>
          let db := db.updateSession id fun row => { row with endReason := some reason }
          (pending.erase address, db.updateSession id (Session.withDevice address peer))
      | none, some peer =>
          if peer.cn = some cn then
            let (id, db) := db.insertSession (Session.ofLog cn address peer ts reason)
            (pending.erase address, db.updateSession id (Session.withDevice address peer))
          else (pending.erase address, db)
      | none, none => (pending.erase address, db)

def pendingMaxAge : Nat := 600

def describeOne (now : Nat) (state : Pending × Database) (item : Text × Peer) :
    Pending × Database :=
  let (pending, db) := state
  let (address, peer) := item
  match peer.cn.bind fun cn => db.latestSession cn address (peer.ts - 30) with
  | some (id, _) => (pending.erase address, db.updateSession id (Session.withDevice address peer))
  | none => if peer.ts + pendingMaxAge < now then (pending.erase address, db) else (pending, db)

-- `_describe_sessions`, over the handshakes pending when it starts. A transaction
-- that fails after some of them leaves only its changes to the handshakes.
def describeSessions (now : Nat) (stops : Option Nat) (state : Pending × Database) :
    Pending × Database :=
  match stops with
  | none => state.1.entries.foldl (describeOne now) state
  | some count => (((state.1.entries.take count).foldl (describeOne now) state).1, state.2)

-- The whole lines read from one log file, and whether their transaction
-- committed. Of one that did not, these are the lines it got to: what they did
-- to the pending handshakes stays.
structure LogRead where
  lines : List LogLine
  commits : Bool
  deriving DecidableEq

-- `read_logs`. The first transaction that fails ends it.
def readLogs (now : Nat) (stops : Option Nat) :
    List LogRead → Pending × Database → Pending × Database
  | [], (pending, db) =>
      if pending.entries = [] then (pending, db) else describeSessions now stops (pending, db)
  | file :: rest, (pending, db) =>
      let read := file.lines.foldl logLine (pending, db)
      if file.commits then readLogs now stops rest read else (read.1, db)

end OpenvpnServer.Collector
