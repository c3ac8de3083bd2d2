import Mathlib.Data.Char
import Mathlib.Data.List.Lex
import Mathlib.Data.List.Sort
import OpenvpnServer.Lib.Dict
import OpenvpnServer.Lib.Ipaddress
import OpenvpnServer.Lib.Python

-- The relay's counters: live flows, visits and clients. The ring of the latest
-- events and the cap on log lines are left out.
namespace OpenvpnServer.Relay

open OpenvpnServer.Lib OpenvpnServer.Lib.Ipaddress

structure FlowEvent where
  sessionID : Text
  id : Nat
  status : Nat
  client : Text
  guest : Bool
  protocol : Text
  target : Text
  reason : Text
  bytesUp : Int
  bytesDown : Int
  counted : Bool
  deriving DecidableEq

structure FlowLog where
  identity : Text
  event : FlowEvent
  start : Int
  opened : Bool
  ended : Bool
  -- `finish` has left its section under the log's mutex.
  settled : Bool
  up : Int
  down : Int
  deriving DecidableEq

inductive VisitState where
  | idle
  | active
  | ended
  deriving DecidableEq

structure RelaySession where
  id : Text
  client : Text
  credentialID : Text
  transport : Text
  startedAt : Int
  lastSeen : Int
  endedAt : Int
  active : Int
  accepted : Int
  denied : Int
  failed : Int
  bytesUp : Int
  bytesDown : Int
  uncounted : Int
  state : Option VisitState
  deriving DecidableEq

structure ClientActivity where
  openFlows : Int
  client : Text
  guest : Bool
  active : Int
  tcp : Int
  udp : Int
  destinations : Nat
  accepted : Int
  denied : Int
  failed : Int
  bytesUp : Int
  bytesDown : Int
  uncounted : Int
  lastSeen : Int
  lastError : Text
  lastErrorAt : Int
  deriving DecidableEq

-- `flows` are all flows that were begun; `active` are the keys of the source's map.
structure ActivityLog where
  instanceName : Text
  transport : Text
  sequence : Nat
  flows : Dict Nat FlowLog
  active : List Nat
  sessionSequence : Nat
  sessions : Dict Text RelaySession
  currentSessions : Dict Text Text
  clients : Dict Text ClientActivity
  reasons : Dict Text Nat
  total : Nat
  denied : Nat
  failed : Nat
  bytesUp : Int
  bytesDown : Int
  tcpUp : Int
  tcpDown : Int
  deriving DecidableEq

def newActivity (instanceName transport : Text) : ActivityLog where
  instanceName := instanceName
  transport := transport
  sequence := 0
  flows := .empty
  active := []
  sessionSequence := 0
  sessions := .empty
  currentSessions := .empty
  clients := .empty
  reasons := .empty
  total := 0
  denied := 0
  failed := 0
  bytesUp := 0
  bytesDown := 0
  tcpUp := 0
  tcpDown := 0

def relaySessionIdleSeconds : Int := 5 * 60

def maxSessionHistory : Nat := 2048

def maxClientHistory : Nat := 2048

def FlowLog.new (id : Nat) (start : Int) : FlowLog where
  identity := []
  event :=
    { sessionID := [], id := id, status := 0, client := [], guest := false, protocol := []
      target := [], reason := "request_rejected".toList, bytesUp := 0, bytesDown := 0
      counted := false }
  start := start
  opened := false
  ended := false
  settled := false
  up := 0
  down := 0

inductive Ending where
  | closed
  | denied
  | failed
  deriving DecidableEq

def FlowLog.ending (f : FlowLog) : Ending :=
  if f.opened then .closed else if 500 ≤ f.event.status then .failed else .denied

-- `snapshot("connected")` of a live flow, without its kind and times.
def FlowLog.snapshot (f : FlowLog) : FlowEvent :=
  { f.event with
    reason := "connection_opened".toList
    bytesUp := f.up
    bytesDown := f.down }

def RelaySession.isOver (row : RelaySession) (now : Int) : Bool :=
  row.active = 0 && relaySessionIdleSeconds < now - row.lastSeen

def FlowLog.withSession (f : FlowLog) (session : Text) : FlowLog :=
  { f with event := { f.event with sessionID := session } }

def RelaySession.touch (row : RelaySession) (now : Int) : RelaySession :=
  { row with lastSeen := max row.lastSeen now }

namespace ActivityLog

section Sessions

def sessionKey (client identity : Text) : Text := client ++ '\x00' :: identity

def sessionID (instanceName : Text) (n : Nat) : Text := instanceName ++ ':' :: decimal n

def olderSession (sessions : Dict Text RelaySession) (oldest : Option RelaySession) (id : Text) :
    Option RelaySession :=
  match sessions.get? id with
  | none => oldest
  | some row =>
      if row.active = 0 ∧ oldest.all (fun best => row.lastSeen < best.lastSeen) then some row
      else oldest

-- The row to give up; `order` is the order in which the map is ranged over.
def oldestSession (sessions : Dict Text RelaySession) (order : List Text) : Option RelaySession :=
  order.foldl (olderSession sessions) none

def evictSession (a : ActivityLog) (order : List Text) : ActivityLog :=
  if maxSessionHistory ≤ a.sessions.keys.length then
    match oldestSession a.sessions order with
    | none => a
    | some oldest =>
        let oldKey := sessionKey oldest.client oldest.credentialID
        { a with
          sessions := a.sessions.erase oldest.id
          currentSessions :=
            if a.currentSessions.get? oldKey = some oldest.id then a.currentSessions.erase oldKey
            else a.currentSessions }
  else a

def newSession (a : ActivityLog) (f : FlowLog) (now : Int) : RelaySession where
  id := sessionID a.instanceName (a.sessionSequence + 1)
  client := f.event.client
  credentialID := f.identity
  transport := a.transport
  startedAt := now
  lastSeen := now
  endedAt := 0
  active := 0
  accepted := 0
  denied := 0
  failed := 0
  bytesUp := 0
  bytesDown := 0
  uncounted := 0
  state := none

def openSession (a : ActivityLog) (f : FlowLog) (now : Int) : ActivityLog :=
  let row := a.newSession f now
  { a with
    sessionSequence := a.sessionSequence + 1
    sessions := a.sessions.set row.id row
    currentSessions := a.currentSessions.set (sessionKey f.event.client f.identity) row.id }

def currentSession (a : ActivityLog) (f : FlowLog) (now : Int) : Option RelaySession :=
  (a.sessions.get? ((a.currentSessions.get? (sessionKey f.event.client f.identity)).getD [])).filter
    fun row => !row.isOver now

-- The log, the flow with its session set, and the session's key.
def sessionLocked (a : ActivityLog) (order : List Text) (f : FlowLog) (now : Int) :
    ActivityLog × FlowLog × Option Text :=
  if f.event.client = [] then (a, f, none)
  else if f.event.sessionID ≠ [] then
    (a, f, (a.sessions.get? f.event.sessionID).map fun _ => f.event.sessionID)
  else
    let opened :=
      match a.currentSession f now with
      | some row => (a, row.id)
      | none =>
          let evicted := a.evictSession order
          (evicted.openSession f now, (evicted.newSession f now).id)
    ({ opened.1 with sessions := opened.1.sessions.modify opened.2 (·.touch now) },
      f.withSession opened.2, some opened.2)

def chargeSession (located : ActivityLog × FlowLog × Option Text)
    (charge : RelaySession → RelaySession) : Dict Text RelaySession :=
  match located.2.2 with
  | none => located.1.sessions
  | some id => located.1.sessions.modify id charge

end Sessions

section Clients

def olderClient (clients : Dict Text ClientActivity) (best : Text × Int) (name : Text) :
    Text × Int :=
  match clients.get? name with
  | none => best
  | some c =>
      if c.openFlows = 0 ∧ (best.2 = 0 ∨ c.lastSeen < best.2) then (name, c.lastSeen) else best

-- The name to give up and when it was last seen; zero stands for none so far.
def oldestClient (clients : Dict Text ClientActivity) (order : List Text) : Text × Int :=
  order.foldl (olderClient clients) ([], 0)

def newClient (e : FlowEvent) (now : Int) : ClientActivity where
  openFlows := 0
  client := e.client
  guest := e.guest
  active := 0
  tcp := 0
  udp := 0
  destinations := 0
  accepted := 0
  denied := 0
  failed := 0
  bytesUp := 0
  bytesDown := 0
  uncounted := 0
  lastSeen := now
  lastError := []
  lastErrorAt := 0

def evictClient (clients : Dict Text ClientActivity) (order : List Text) :
    Dict Text ClientActivity :=
  if maxClientHistory ≤ clients.keys.length then
    let oldest := oldestClient clients order
    if oldest.2 ≠ 0 then clients.erase oldest.1 else clients
  else clients

def clientLocked (clients : Dict Text ClientActivity) (order : List Text) (e : FlowEvent)
    (now : Int) : Dict Text ClientActivity :=
  match clients.get? e.client with
  | some c => clients.set e.client { c with lastSeen := now }
  | none => (evictClient clients order).set e.client (newClient e now)

end Clients

section Flows

def begin (a : ActivityLog) (now : Int) : ActivityLog :=
  { a with
    sequence := a.sequence + 1
    flows := a.flows.set (a.sequence + 1) (.new (a.sequence + 1) now) }

def openedFlow (f : FlowLog) : FlowLog :=
  { f with
    opened := true
    event := { f.event with reason := "connection_closed".toList, status := 200 } }

def sessionConnected (row : RelaySession) : RelaySession :=
  { row with active := row.active + 1, accepted := row.accepted + 1 }

def clientConnected (guest : Bool) (c : ClientActivity) : ClientActivity :=
  { c with accepted := c.accepted + 1, openFlows := c.openFlows + 1, guest := guest }

-- `orders` are the orders in which sessions and clients are ranged over.
def connected (a : ActivityLog) (orders : List Text × List Text) (f : FlowLog) (now : Int) :
    ActivityLog :=
  let f := openedFlow f
  let located := a.sessionLocked orders.1 f f.start
  let clients := clientLocked located.1.clients orders.2 f.event now
  { located.1 with
    flows := located.1.flows.set f.event.id located.2.1
    sessions := chargeSession located sessionConnected
    active := located.1.active.insert f.event.id
    total := located.1.total + 1
    clients := clients.modify f.event.client (clientConnected f.event.guest) }

def sessionFinished (f : FlowLog) (now : Int) (row : RelaySession) : RelaySession :=
  { row with
    lastSeen := now
    active := if f.opened then row.active - 1 else row.active
    denied := if f.ending = .denied then row.denied + 1 else row.denied
    failed := if f.ending = .failed then row.failed + 1 else row.failed
    bytesUp := if f.event.counted then row.bytesUp + f.up else row.bytesUp
    bytesDown := if f.event.counted then row.bytesDown + f.down else row.bytesDown
    uncounted := if !f.event.counted && f.opened then row.uncounted + 1 else row.uncounted }

def clientFinished (f : FlowLog) (now : Int) (c : ClientActivity) : ClientActivity :=
  let kept := f.ending = .closed ∧ f.event.reason = "connection_closed".toList
  { c with
    guest := if f.ending = .closed then c.guest else f.event.guest
    denied := if f.ending = .denied then c.denied + 1 else c.denied
    failed := if f.ending = .failed then c.failed + 1 else c.failed
    bytesUp := if f.event.counted then c.bytesUp + f.up else c.bytesUp
    bytesDown := if f.event.counted then c.bytesDown + f.down else c.bytesDown
    uncounted := if !f.event.counted && f.opened then c.uncounted + 1 else c.uncounted
    lastError := if kept then c.lastError else f.event.reason
    lastErrorAt := if kept then c.lastErrorAt else now
    openFlows := if f.opened then c.openFlows - 1 else c.openFlows }

-- A row made beyond the limit goes again unless it has open flows.
def trimClient (clients : Dict Text ClientActivity) (name : Text) : Dict Text ClientActivity :=
  if maxClientHistory < clients.keys.length ∧
      (clients.get? name).any (fun c => c.openFlows = 0) then clients.erase name
  else clients

-- The section of `finish` under the log's mutex.
def settle (a : ActivityLog) (orders : List Text × List Text) (f : FlowLog) (now : Int) :
    ActivityLog :=
  let ending := f.ending
  let clients := (clientLocked a.clients orders.2 f.event now).modify f.event.client
    (clientFinished f now)
  let located := a.sessionLocked orders.1 f now
  let tcp := f.event.protocol = "TCP".toList
  { located.1 with
    flows := located.1.flows.set f.event.id { located.2.1 with settled := true }
    active := located.1.active.erase f.event.id
    failed := if ending = .failed then a.failed + 1 else a.failed
    denied := if ending = .denied then a.denied + 1 else a.denied
    reasons := a.reasons.set f.event.reason ((a.reasons.get? f.event.reason).getD 0 + 1)
    bytesUp := a.bytesUp + f.up
    bytesDown := a.bytesDown + f.down
    tcpUp := if tcp then a.tcpUp + f.up else a.tcpUp
    tcpDown := if tcp then a.tcpDown + f.down else a.tcpDown
    sessions := chargeSession located (sessionFinished f now)
    clients := trimClient clients f.event.client }

end Flows

section Status

def addToSession (now : Int) (flow : FlowEvent) (row : RelaySession) : RelaySession :=
  { row with
    lastSeen := now
    bytesUp := if flow.counted then row.bytesUp + flow.bytesUp else row.bytesUp
    bytesDown := if flow.counted then row.bytesDown + flow.bytesDown else row.bytesDown
    uncounted := if flow.counted then row.uncounted else row.uncounted + 1 }

def closeVisit (now : Int) (row : RelaySession) : RelaySession :=
  if 0 < row.active then { row with state := some .active }
  else if relaySessionIdleSeconds < now - row.lastSeen then
    { row with state := some .ended, endedAt := row.lastSeen }
  else { row with state := some .idle }

def sessionSnapshot (history : List RelaySession) (flows : List FlowEvent) (now : Int) :
    List RelaySession :=
  let rows := history.foldl (fun rows row => rows.set row.id row) (Dict.empty : Dict Text _)
  let rows := flows.foldl (fun rows flow => rows.modify flow.sessionID (addToSession now flow)) rows
  (rows.values.map (closeVisit now)).insertionSort fun i j => j.startedAt ≤ i.startedAt

def addToClient (f : FlowEvent) (c : ClientActivity) : ClientActivity :=
  { c with
    active := c.active + 1
    tcp := if f.protocol = "TCP".toList then c.tcp + 1 else c.tcp
    udp := if f.protocol = "UDP".toList then c.udp + 1 else c.udp
    bytesUp := if f.counted then c.bytesUp + f.bytesUp else c.bytesUp
    bytesDown := if f.counted then c.bytesDown + f.bytesDown else c.bytesDown
    uncounted := if f.counted then c.uncounted else c.uncounted + 1 }

def addFlow (rows : Dict Text ClientActivity) (f : FlowEvent) : Dict Text ClientActivity :=
  rows.set f.client (addToClient f ((rows.get? f.client).getD (newClient f 0)))

def destinationsOf (active : List FlowEvent) (client : Text) : List Text :=
  fromKeys ((active.filter fun f => f.client = client).map FlowEvent.target)

-- More live flows first, then those seen later, then by name.
def listedBefore (i j : ClientActivity) : Prop :=
  j.active < i.active ∨ i.active = j.active ∧
    (j.lastSeen < i.lastSeen ∨ i.lastSeen = j.lastSeen ∧ i.client ≤ j.client)

instance : DecidableRel listedBefore := fun i j =>
  inferInstanceAs (Decidable (j.active < i.active ∨ i.active = j.active ∧
    (j.lastSeen < i.lastSeen ∨ i.lastSeen = j.lastSeen ∧ i.client ≤ j.client)))

def summarizeClients (history : List ClientActivity) (active : List FlowEvent) :
    List ClientActivity :=
  let rows := history.foldl (fun rows row => rows.set row.client row) (Dict.empty : Dict Text _)
  let rows := active.foldl addFlow rows
  (rows.values.map fun c =>
    { c with destinations := (destinationsOf active c.client).length }).insertionSort listedBefore

structure StatusAnswer where
  total : Nat
  denied : Nat
  failed : Nat
  clients : List ClientActivity
  active : List FlowEvent
  sessions : List RelaySession

def selects (selected client : Text) : Bool := selected = [] || client = selected

def liveEvents (a : ActivityLog) (selected : Text) : List FlowEvent :=
  ((a.active.filterMap a.flows.get?).filter fun f => selects selected f.event.client).map
    FlowLog.snapshot

-- `selected` is the client of the query, empty for all of them.
def status (a : ActivityLog) (selected : Text) (now : Int) : StatusAnswer :=
  let active := a.liveEvents selected
  let history := a.clients.values.filter fun c => selects selected c.client
  let sessions := a.sessions.values.filter fun row => selects selected row.client
  { total := a.total
    denied := a.denied
    failed := a.failed
    clients := summarizeClients history active
    active := active
    sessions := sessionSnapshot sessions active now }

end Status

end ActivityLog

inductive FlowStep where
  | begin (now : Int)
  -- ServeHTTP before the flow is connected
  | identify (id : Nat) (client : Text) (guest : Bool) (identity : Text)
  | describe (id : Nat) (protocol target : Text) (counted : Bool)
  | reject (id : Nat) (status : Nat) (reason : Text)
  | reason (id : Nat) (reason : Text)
  | add (id : Nat) (up down : Int)
  | connected (id : Nat) (orders : List Text × List Text) (now : Int)
  -- the two sections of `finish`
  | finish (id : Nat)
  | settle (id : Nat) (orders : List Text × List Text) (now : Int)
  deriving DecidableEq

def FlowLog.setReason (f : FlowLog) (reason : Text) : FlowLog :=
  if f.ended then f else { f with event := { f.event with reason := reason } }

def FlowLog.identify (f : FlowLog) (client : Text) (guest : Bool) (identity : Text) : FlowLog :=
  { f with identity := identity, event := { f.event with client := client, guest := guest } }

def FlowLog.describe (f : FlowLog) (protocol target : Text) (counted : Bool) : FlowLog :=
  { f with
    event := { f.event with protocol := protocol, target := target, counted := counted } }

def FlowLog.reject (f : FlowLog) (status : Nat) (reason : Text) : FlowLog :=
  let f := f.setReason reason
  { f with event := { f.event with status := status } }

def FlowLog.add (f : FlowLog) (up down : Int) : FlowLog :=
  { f with up := f.up + up, down := f.down + down }

namespace ActivityLog

def update (a : ActivityLog) (id : Nat) (change : FlowLog → FlowLog) : Option ActivityLog :=
  (a.flows.get? id).map fun f => { a with flows := a.flows.set id (change f) }

-- A second `finish` returns at once, so only an unsettled flow gets to the second section.
def step (a : ActivityLog) : FlowStep → Option ActivityLog
  | .begin now => some (a.begin now)
  | .identify id client guest identity => a.update id (·.identify client guest identity)
  | .describe id protocol target counted => a.update id (·.describe protocol target counted)
  | .reject id status reason => a.update id (·.reject status reason)
  | .reason id reason => a.update id (·.setReason reason)
  | .add id up down => a.update id (·.add up down)
  | .connected id orders now => (a.flows.get? id).map fun f => a.connected orders f now
  | .finish id => a.update id fun f => { f with ended := true }
  | .settle id orders now =>
      ((a.flows.get? id).filter fun f => f.ended && !f.settled).map fun f => a.settle orders f now

end ActivityLog

end OpenvpnServer.Relay
