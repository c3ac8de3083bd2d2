import OpenvpnServer.Collector.Handshake
import OpenvpnServer.Collector.Turn
import OpenvpnServer.Lib.Run

-- OpenVPN beside the collector: its connections, the lines it appends to its log and
-- the status file it rewrites, in any order with the collector's polls and reads.
namespace OpenvpnServer.Collector

open OpenvpnServer.Lib

-- A connection as OpenVPN has it; its place in the list of all is its client id.
structure Link where
  cn : Text
  address : Text
  since : Nat
  -- when the handshake completed
  opened : Option Nat
  -- why it ended
  ended : Option Text
  deriving DecidableEq

def Link.live (conn : Link) : Bool := conn.ended = none

-- An entry that a status may have for the connection.
def Link.listedAs (conn : Link) (cl : Client) : Bool :=
  conn.live && conn.opened.isSome && decide (cl.connectedSince = conn.since) &&
    decide (cl.cn = conn.cn) && decide (cl.realAddress = conn.address)

-- The connections of a client whose handshake completed since `since`.
def crowd (conns : List Link) (cn : Text) (since : Nat) : List Nat :=
  (List.range conns.length).filter fun d =>
    (conns[d]?).any fun other => other.cn = cn && other.opened.any (since ≤ ·)

-- `unread` are the lines of the log that the collector has not read, each with the
-- connection it is about; `status` is the status file; `polled` is set between a poll
-- and the read of the logs that ends the turn.
structure Site where
  conns : List Link
  unread : List (Nat × LogLine)
  status : Status
  world : World
  polled : Bool
  deriving DecidableEq

def Site.init : Site := ⟨[], [], ⟨0, [], true⟩, .init, false⟩

inductive SiteStep where
  | begin (cn address : Text) (now : Nat)
  | info (cid ts : Nat) (key : InfoKey) (value : Text)
  | opened (cid now : Nat)
  | ended (cid now : Nat) (reason : Text)
  | rewrite (status : Status)
  | poll (now : Nat)
  -- `count` lines fit into what `read_logs` reads at once
  | readLogs (now count : Nat)
  deriving DecidableEq

namespace Site

-- A new address belongs to no live connection. The lines of a connection come in
-- order, and its end line has its name only after the handshake. A status lists
-- connections that are up.
def step (s : Site) : SiteStep → Option Site
  | .begin cn address now =>
      if 0 < now ∧ s.conns.all (fun conn => !(conn.live && conn.address = address)) = true then
        some { s with conns := s.conns ++ [⟨cn, address, now, none, none⟩] }
      else none
  | .info cid ts key value =>
      (s.conns[cid]?.filter fun conn => conn.live && conn.opened = none).map fun conn =>
        { s with unread := s.unread ++ [(cid, .info ts conn.address key value)] }
  | .opened cid now =>
      (s.conns[cid]?.filter fun conn => conn.live && conn.opened = none).map fun conn =>
        { s with
          conns := s.conns.set cid { conn with opened := some now }
          unread := s.unread ++ [(cid, .opened now conn.address conn.cn)] }
  | .ended cid now reason =>
      (s.conns[cid]?.filter fun conn => conn.live).map fun conn =>
        { s with
          conns := s.conns.set cid { conn with ended := some reason }
          unread := s.unread ++
            [(cid, .ended now conn.address (conn.opened.map fun _ => conn.cn) reason)] }
  | .rewrite status =>
      if status.counted.all (fun cl => (s.conns[cl.cid]?).any (·.listedAs cl)) = true then
        some { s with status := status }
      else none
  | .poll now =>
      if s.polled then none
      else some { s with world := s.world.step (.poll s.status now false), polled := true }
  | .readLogs now count =>
      if s.polled then
        some
          { s with
            world := s.world.step
              (.readLogs now [⟨(s.unread.take count).map Prod.snd, true⟩] none)
            unread := s.unread.drop count
            polled := false }
      else none

section Orderly

variable (s : Site)

def active : Active := s.world.collector.active

def pending : Pending := s.world.collector.pending

def db : Database := s.world.db

def Heard (c : Nat) : Prop := ∀ line ∈ s.unread, line.1 ≠ c

def Listed (c : Nat) : Prop := ∃ cl ∈ s.status.counted, cl.cid = c

def Seen (c : Nat) : Prop := ∃ entry ∈ s.db.sessions.entries, entry.2.cid = some c

-- The connection has ended, its lines have been read, and a status without it polled.
def Settled (c : Nat) (conn : Link) : Prop :=
  conn.ended ≠ none ∧ s.Heard c ∧ ¬s.Listed c ∧ ∀ key ∈ s.active.keys, key.cid ≠ c

instance (c : Nat) : Decidable (s.Heard c) :=
  inferInstanceAs (Decidable (∀ line ∈ s.unread, line.1 ≠ c))

instance (c : Nat) : Decidable (s.Listed c) :=
  inferInstanceAs (Decidable (∃ cl ∈ s.status.counted, cl.cid = c))

instance (c : Nat) : Decidable (s.Seen c) :=
  inferInstanceAs (Decidable (∃ entry ∈ s.db.sessions.entries, entry.2.cid = some c))

instance (c : Nat) (conn : Link) : Decidable (s.Settled c conn) :=
  inferInstanceAs (Decidable (conn.ended ≠ none ∧ s.Heard c ∧ ¬s.Listed c ∧
    ∀ key ∈ s.active.keys, key.cid ≠ c))

-- What a read of the logs needs of a connection. A connection whose end is about to be
-- read has been polled if the status file lists it. Until then it is among the twenty
-- latest of its client. And one that is up and in no polled status completed its
-- handshake at most ten minutes ago.
def InTime (now c : Nat) (conn : Link) : Prop :=
  (conn.ended ≠ none → ¬s.Heard c → s.Listed c → s.Seen c) ∧
    (conn.ended = none ∨ ¬s.Heard c → (crowd s.conns conn.cn conn.since).length ≤ 20) ∧
    (conn.ended = none → ¬s.Seen c → ∀ ts ∈ conn.opened, now ≤ ts + pendingMaxAge)

instance (now c : Nat) (conn : Link) : Decidable (s.InTime now c conn) :=
  inferInstanceAs (Decidable (_ ∧ _ ∧ _))

-- A client comes back from an address and port, whatever the protocol, once its last
-- connection from there is settled and completed its handshake more than half a minute
-- ago; the clock does not go back during a handshake; and a read of the logs reaches
-- their end, in time for every connection.
def Orderly : SiteStep → Prop
  | .begin cn address now => ∀ c < s.conns.length, ∀ conn ∈ s.conns[c]?,
      conn.cn = cn ∧ (splitAddress conn.address).2 = (splitAddress address).2 →
        s.Settled c conn ∧ ∀ ts ∈ conn.opened, ts + 30 < now
  | .opened cid now => ∀ conn ∈ s.conns[cid]?, conn.since ≤ now
  | .readLogs now count => s.unread.length ≤ count ∧
      ∀ c < s.conns.length, ∀ conn ∈ s.conns[c]?, s.InTime now c conn
  | _ => True

instance (e : SiteStep) : Decidable (s.Orderly e) :=
  match e with
  | .begin cn address now => inferInstanceAs (Decidable (∀ c < s.conns.length,
      ∀ conn ∈ s.conns[c]?, conn.cn = cn ∧ (splitAddress conn.address).2 = (splitAddress address).2 →
        s.Settled c conn ∧ ∀ ts ∈ conn.opened, ts + 30 < now))
  | .opened cid now => inferInstanceAs (Decidable (∀ conn ∈ s.conns[cid]?, conn.since ≤ now))
  | .readLogs now count => inferInstanceAs (Decidable (s.unread.length ≤ count ∧
      ∀ c < s.conns.length, ∀ conn ∈ s.conns[c]?, s.InTime now c conn))
  | .info _ _ _ _ => isTrue trivial
  | .ended _ _ _ => isTrue trivial
  | .rewrite _ => isTrue trivial
  | .poll _ => isTrue trivial

end Orderly

end Site

end OpenvpnServer.Collector
