import Mathlib.Data.List.DropRight
import OpenvpnServer.Collector.Handshake

namespace OpenvpnServer.Collector

open OpenvpnServer.Lib

-- A log file as `read_logs` finds it; `data` is none if it cannot be opened.
structure LogFile where
  name : Text
  inode : Nat
  data : Option (List UInt8)
  deriving DecidableEq

-- The settings "logpos:<name>": the inode and the offset read up to.
abbrev Positions := Dict Text (Nat × Nat)

def newline : UInt8 := 10

def LogFile.position (positions : Positions) (file : LogFile) (size : Nat) : Nat :=
  let (inode, offset) := (positions.get? file.name).getD (0, 0)
  if inode = file.inode ∧ offset ≤ size then offset else 0

-- fh.seek(pos); fh.read(max_bytes)
def LogFile.chunk (maxBytes : Nat) (positions : Positions) (file : LogFile) : List UInt8 :=
  file.data.elim [] fun data => (data.drop (file.position positions data.length)).take maxBytes

-- data[:end], the whole lines of what was read; the rest is read next time
def LogFile.whole (maxBytes : Nat) (positions : Positions) (file : LogFile) : List UInt8 :=
  (file.chunk maxBytes positions).rdropWhile fun byte => byte ≠ newline

def LogFile.readTo (maxBytes : Nat) (positions : Positions) (file : LogFile) : Nat × Nat :=
  (file.inode, file.data.elim 0 (fun data => file.position positions data.length) +
    (file.whole maxBytes positions).length)

structure LogState where
  pending : Pending
  rows : Database
  positions : Positions
  deriving DecidableEq

-- Where the database fails: in the transaction of the file at this place of the
-- list, which has got to so many of its lines by then, or in
-- `_describe_sessions` after so many handshakes.
inductive Fault where
  | reading (index count : Nat)
  | describing (count : Nat)
  deriving DecidableEq, Repr

def Fault.next : Fault → Option Fault
  | .reading 0 _ => none
  | .reading (index + 1) count => some (.reading index count)
  | .describing count => some (.describing count)

def Fault.stops : Fault → Option Nat
  | .reading _ _ => none
  | .describing count => some count

section ReadLogs

-- The lines of some bytes that `parse_rejection` or `parse_connection` knows.
variable (parse : List UInt8 → List LogLine) (maxBytes now : Nat)

def LogFile.lines (positions : Positions) (file : LogFile) : List LogLine :=
  parse (file.whole maxBytes positions)

def LogState.readFile (s : LogState) (file : LogFile) : LogState :=
  let (pending, rows) := (file.lines parse maxBytes s.positions).foldl logLine (s.pending, s.rows)
  ⟨pending, rows, s.positions.set file.name (file.readTo maxBytes s.positions)⟩

-- A transaction that is rolled back has changed the pending handshakes only.
def LogState.failFile (s : LogState) (file : LogFile) (count : Nat) : LogState :=
  let lines := (file.lines parse maxBytes s.positions).take count
  { s with pending := (lines.foldl logLine (s.pending, s.rows)).1 }

def LogState.describe (s : LogState) (fault : Option Fault) : LogState :=
  if s.pending.entries = [] then s
  else
    let (pending, rows) := describeSessions now (fault.bind Fault.stops) (s.pending, s.rows)
    { s with pending, rows }

-- `read_logs` over files and positions.
def LogState.readLogs (fault : Option Fault) : List LogFile → LogState → LogState
  | [], s => s.describe now fault
  | file :: rest, s =>
      if file.whole maxBytes s.positions = [] then s.readLogs (fault.bind Fault.next) rest
      else
        match fault with
        | some (.reading 0 count) => s.failFile parse maxBytes file count
        | _ => (s.readFile parse maxBytes file).readLogs (fault.bind Fault.next) rest

-- The transactions this makes.
def logReads (fault : Option Fault) : List LogFile → Positions → List LogRead
  | [], _ => []
  | file :: rest, positions =>
      if file.whole maxBytes positions = [] then logReads (fault.bind Fault.next) rest positions
      else
        let lines := file.lines parse maxBytes positions
        match fault with
        | some (.reading 0 count) => [⟨lines.take count, false⟩]
        | _ => ⟨lines, true⟩ :: logReads (fault.bind Fault.next) rest
            (positions.set file.name (file.readTo maxBytes positions))

attribute [local simp] LogState.readLogs logReads

variable {parse maxBytes now}

theorem bind_next_stops (fault : Option Fault) :
    (fault.bind Fault.next).bind Fault.stops = fault.bind Fault.stops := by
  cases fault with
  | none => rfl
  | some fault =>
      cases fault with
      | reading index count => cases index <;> rfl
      | describing count => rfl

-- Pending handshakes and rows evolve as in `readLogs`.
theorem readLogs_eq_logReads (s : LogState) (fault : Option Fault) (files : List LogFile) :
    ((s.readLogs parse maxBytes now fault files).pending,
      (s.readLogs parse maxBytes now fault files).rows) =
      Collector.readLogs now (fault.bind Fault.stops)
        (logReads parse maxBytes fault files s.positions) (s.pending, s.rows) := by
  induction files generalizing s fault with
  | nil =>
      unfold LogState.readLogs LogState.describe logReads Collector.readLogs
      by_cases he : s.pending.entries = []
      · rw [if_pos he, if_pos he]
      · rw [if_neg he, if_neg he]
  | cons file rest ih =>
      unfold LogState.readLogs logReads
      by_cases hw : file.whole maxBytes s.positions = []
      · rw [if_pos hw, if_pos hw, ih, bind_next_stops]
      · rw [if_neg hw, if_neg hw]
        split
        · rfl
        · rw [ih, bind_next_stops]
          conv_rhs => unfold Collector.readLogs
          rfl

end ReadLogs

end OpenvpnServer.Collector
