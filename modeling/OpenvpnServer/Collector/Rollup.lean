import Mathlib.Algebra.Group.Prod
import Mathlib.Tactic.Abel
import OpenvpnServer.Collector.Database
import OpenvpnServer.Lib.GroupBy
import OpenvpnServer.Lib.Run

namespace OpenvpnServer.Collector

open OpenvpnServer.Lib

theorem Traffic.add_eq (table : Traffic) (key : Nat × Text) (bytes : Bytes) :
    table.add key bytes = Dict.accumulate table key bytes := by
  unfold Traffic.add Dict.accumulate
  cases Dict.get? table key <;> rfl

theorem Traffic.addAll_eq (table groups : Traffic) :
    table.addAll groups = Dict.accumulateAll Prod.fst Prod.snd groups.entries table := by
  simp only [Traffic.addAll, Dict.accumulateAll, Traffic.add_eq]

theorem Traffic.grouped_eq (table : Traffic) (width cutoff : Nat) :
    table.grouped width cutoff =
      Dict.groupSum (fun row => (row.1.1 / width * width, row.1.2)) Prod.snd
        (table.filter fun key _ => key.1 < cutoff).entries := by
  simp only [Traffic.grouped, Dict.groupSum, Dict.accumulateAll, Traffic.add_eq]

section Totals

variable {N : Type*} [AddCommMonoid N] {f : Nat × Text → Bytes → N}

def Database.trafficTotal (f : Nat × Text → Bytes → N) (db : Database) : N :=
  Dict.total f db.minute + Dict.total f db.hour + Dict.total f db.day

variable (hf : ∀ key a b, f key (a + b) = f key a + f key b)

include hf

theorem total_addAll (table groups : Traffic) :
    Dict.total f (table.addAll groups) = Dict.total f table + Dict.total f groups := by
  rw [Traffic.addAll_eq, Dict.total_accumulateAll hf]
  rfl

theorem total_grouped_since {width : Nat}
    (hplace : ∀ ts name bytes, f (ts / width * width, name) bytes = f (ts, name) bytes)
    (table : Traffic) (cutoff : Nat) :
    Dict.total f (table.grouped width cutoff) + Dict.total f (table.since cutoff) =
      Dict.total f table := by
  have hgrouped : Dict.total f (table.grouped width cutoff) =
      Dict.total f (table.filter fun key _ => key.1 < cutoff) := by
    rw [Traffic.grouped_eq, Dict.groupSum, Dict.total_accumulateAll hf, Dict.total_empty, zero_add]
    simp only [hplace]
    rfl
  have hsince : table.since cutoff = table.filter fun key _ => !decide (key.1 < cutoff) := by
    unfold Traffic.since
    congr 1
    funext key _
    rw [← decide_not, decide_eq_decide]
    omega
  rw [hgrouped, hsince]
  exact Dict.total_filter_add f table fun key _ => key.1 < cutoff

theorem trafficTotal_rollup
    (hday : ∀ ts name bytes, f (ts / 86400 * 86400, name) bytes = f (ts, name) bytes)
    (db : Database) (now : Nat) : (db.rollup now).trafficTotal f = db.trafficTotal f := by
  have hhour (ts : Nat) (name : Text) (bytes : Bytes) :
      f (ts / 3600 * 3600, name) bytes = f (ts, name) bytes := by
    have hts : ts / 3600 * 3600 / 86400 * 86400 = ts / 86400 * 86400 := by omega
    rw [← hday, hts, hday]
  have hminutes := total_grouped_since hf hhour db.minute (now - minuteRetention)
  have hhours := total_grouped_since hf hday
    (db.hour.addAll (db.minute.grouped 3600 (now - minuteRetention))) (now - hourRetention)
  rw [total_addAll hf] at hhours
  simp only [Database.trafficTotal, Database.rollup, total_addAll hf]
  calc
    _ = Dict.total f (db.minute.since (now - minuteRetention)) +
        (Dict.total f (Traffic.grouped _ 86400 (now - hourRetention)) +
          Dict.total f (Traffic.since _ (now - hourRetention))) +
        Dict.total f db.day := by abel
    _ = Dict.total f (db.minute.since (now - minuteRetention)) +
        (Dict.total f db.hour +
          Dict.total f (db.minute.grouped 3600 (now - minuteRetention))) +
        Dict.total f db.day := by rw [hhours]
    _ = _ := by
        rw [← hminutes]
        abel

end Totals

section Aligned

structure Aligned (db : Database) : Prop where
  hour : ∀ key ∈ db.hour.keys, 3600 ∣ key.1
  day : ∀ key ∈ db.day.keys, 86400 ∣ key.1

theorem mem_keys_addAll (table groups : Traffic) (key : Nat × Text) :
    key ∈ (table.addAll groups).keys ↔ key ∈ groups.keys ∨ key ∈ table.keys := by
  rw [Traffic.addAll_eq, Dict.mem_keys_accumulateAll]
  rfl

theorem dvd_of_mem_keys_grouped {table : Traffic} {width cutoff : Nat} {key : Nat × Text}
    (h : key ∈ (table.grouped width cutoff).keys) : width ∣ key.1 := by
  rw [Traffic.grouped_eq, Dict.mem_keys_groupSum, List.mem_map] at h
  obtain ⟨row, _, rfl⟩ := h
  exact Nat.dvd_mul_left _ _

theorem mem_keys_of_mem_keys_since {table : Traffic} {cutoff : Nat} {key : Nat × Text}
    (h : key ∈ (table.since cutoff).keys) : key ∈ table.keys :=
  (List.filter_sublist.map Prod.fst).subset h

theorem aligned_rollup {db : Database} (h : Aligned db) (now : Nat) : Aligned (db.rollup now) := by
  constructor
  · intro key hkey
    rcases (mem_keys_addAll _ _ _).mp (mem_keys_of_mem_keys_since hkey) with hnew | hold
    · exact dvd_of_mem_keys_grouped hnew
    · exact h.hour key hold
  · intro key hkey
    rcases (mem_keys_addAll _ _ _).mp hkey with hnew | hold
    · exact dvd_of_mem_keys_grouped hnew
    · exact h.day key hold

theorem aligned_addTraffic {db : Database} (h : Aligned db) (minute : Nat) (name : Text)
    (dIn dOut : Int) : Aligned (db.addTraffic minute name dIn dOut) := by
  unfold Database.addTraffic
  split
  · exact h
  · exact ⟨h.hour, h.day⟩

end Aligned

section Ops

-- now or int(time.time())
def rollupTime (clock : Nat) : Option Nat → Nat
  | none => clock
  | some now => if now = 0 then clock else now

inductive TrafficOp where
  | add (minute : Nat) (name : Text) (dIn dOut : Int)
  | rollup (now : Option Nat) (clock : Nat)
  deriving DecidableEq

def trafficStep (db : Database) : TrafficOp → Option Database
  | .add minute name dIn dOut => some (db.addTraffic minute name dIn dOut)
  | .rollup now clock => some (db.rollup (rollupTime clock now))

def OnMinute (_ : Database) : TrafficOp → Prop
  | .add minute _ _ _ => 60 ∣ minute
  | .rollup _ _ => True

instance (db : Database) (op : TrafficOp) : Decidable (OnMinute db op) :=
  match op with
  | .add minute _ _ _ => inferInstanceAs (Decidable (60 ∣ minute))
  | .rollup _ _ => isTrue trivial

theorem aligned_empty : Aligned Database.empty :=
  ⟨fun _ h => absurd h List.not_mem_nil, fun _ h => absurd h List.not_mem_nil⟩

theorem aligned_of_reaches {db : Database}
    (hr : Reaches trafficStep OnMinute Database.empty db) : Aligned db := by
  refine hr.invariant ?_ aligned_empty
  intro before op after hbefore _ hstep
  cases op with
  | add minute name dIn dOut =>
      cases hstep
      exact aligned_addTraffic hbefore minute name dIn dOut
  | rollup now clock =>
      cases hstep
      exact aligned_rollup hbefore _

end Ops

end OpenvpnServer.Collector
