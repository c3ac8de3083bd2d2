import Mathlib.Algebra.Group.Prod
import OpenvpnServer.Collector.Database
import OpenvpnServer.Lib.GroupBy

namespace OpenvpnServer.Collector

open OpenvpnServer.Lib

structure TrafficRow where
  ts : Int
  clientName : Text
  bytes : Bytes
  deriving DecidableEq

structure TrafficTables where
  minute : List TrafficRow
  hour : List TrafficRow
  day : List TrafficRow

def Traffic.rows (table : Traffic) : List TrafficRow :=
  table.entries.map fun entry => ⟨entry.1.1, entry.1.2, entry.2⟩

def Database.tables (db : Database) : TrafficTables := ⟨db.minute.rows, db.hour.rows, db.day.rows⟩

def TrafficRow.within (start stop : Int) (row : TrafficRow) : Bool :=
  start ≤ row.ts && row.ts < stop

-- _TRAFFIC_UNION
def TrafficTables.union (tables : TrafficTables) (start stop : Int) : List TrafficRow :=
  tables.minute.filter (·.within start stop) ++ tables.hour.filter (·.within start stop) ++
    tables.day.filter (·.within start stop)

-- WHERE client_name = ?, left out for None and for an empty name.
def ofClient (client : Option Text) (row : TrafficRow) : Bool :=
  match client with
  | none => true
  | some name => name = [] || row.clientName = name

section Queries

variable (tables : TrafficTables) (start stop : Int)

def totalsByClient : Dict Text Bytes :=
  Dict.groupSum TrafficRow.clientName TrafficRow.bytes (tables.union start stop)

def totals (client : Option Text) : Bytes :=
  (((tables.union start stop).filter (ofClient client)).map TrafficRow.bytes).sum

structure Point where
  ts : Int
  bytes : Bytes
  deriving DecidableEq

-- ((ts + ?) / ?) * ? - ?, the division truncating
def bucketOf (bucket tz ts : Int) : Int := (ts + tz).tdiv bucket * bucket - tz

def series (bucket : Int) (client : Option Text) (tz : Int) : List Point :=
  (Dict.groupSum (fun row : TrafficRow => bucketOf bucket tz row.ts) TrafficRow.bytes
    ((tables.union start stop).filter (ofClient client))).sorted.map fun group =>
      ⟨group.1, group.2⟩

end Queries

section Fill

-- {p["ts"]: p for p in points}
def byTs (points : List Point) : Dict Int Point :=
  points.foldl (fun found p => found.set p.ts p) .empty

-- while t < end: .. t += bucket
def fillFrom (found : Dict Int Point) (stop bucket : Int) : Nat → Int → List Point
  | 0, _ => []
  | fuel + 1, t =>
      if t < stop then
        ⟨t, match found.get? t with
          | some p => p.bytes
          | none => 0⟩ :: fillFrom found stop bucket fuel (t + bucket)
      else []

-- A bucket is at least a second, so the loop ends within `end - first` turns.
def fillSeries (points : List Point) (start stop bucket tz : Int) : List Point :=
  let first := (start + tz).fdiv bucket * bucket - tz
  fillFrom (byTs points) stop bucket (stop - first).toNat first

end Fill

end OpenvpnServer.Collector
