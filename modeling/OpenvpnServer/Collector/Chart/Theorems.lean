import Mathlib.Data.Int.ModEq
import Mathlib.Tactic.Ring
import OpenvpnServer.Collector.Chart
import OpenvpnServer.Collector.Rollup
import OpenvpnServer.Lib.Run

namespace OpenvpnServer.Collector

open OpenvpnServer.Lib

section Grid

variable {found : Dict Int Point} {stop bucket : Int}

def bytesAt (found : Dict Int Point) (t : Int) : Bytes := ((found.get? t).map Point.bytes).getD 0

theorem fillFrom_succ (fuel : Nat) (t : Int) :
    fillFrom found stop bucket (fuel + 1) t =
      if t < stop then ⟨t, bytesAt found t⟩ :: fillFrom found stop bucket fuel (t + bucket)
      else [] := by
  rw [fillFrom, bytesAt]
  cases found.get? t <;> rfl

theorem ts_of_mem_head?_fillFrom {fuel : Nat} {t : Int} {p : Point}
    (h : p ∈ (fillFrom found stop bucket fuel t).head?) : p.ts = t := by
  cases fuel with
  | zero => cases h
  | succ fuel =>
      rw [fillFrom_succ] at h
      split at h
      · cases h
        rfl
      · cases h

theorem isChain_fillFrom (fuel : Nat) (t : Int) :
    (fillFrom found stop bucket fuel t).IsChain fun p q => q.ts = p.ts + bucket := by
  induction fuel generalizing t with
  | zero => exact .nil
  | succ fuel ih =>
      rw [fillFrom_succ]
      split
      · refine List.isChain_cons.mpr ⟨fun q hq => ?_, ih (t + bucket)⟩
        exact ts_of_mem_head?_fillFrom hq
      · exact .nil

theorem mem_fillFrom (hbucket : 0 < bucket) {fuel : Nat} {t : Int} (hfuel : stop - t ≤ fuel)
    (p : Point) :
    p ∈ fillFrom found stop bucket fuel t ↔
      (∃ i : Nat, p.ts = t + i * bucket) ∧ p.ts < stop ∧ p.bytes = bytesAt found p.ts := by
  induction fuel generalizing t with
  | zero =>
      refine iff_of_false List.not_mem_nil ?_
      rintro ⟨⟨i, hi⟩, hstop, -⟩
      have hpos : 0 ≤ (i : Int) * bucket := Int.mul_nonneg (by omega) (by omega)
      omega
  | succ fuel ih =>
      rw [fillFrom_succ]
      split
      · rename_i ht
        rw [List.mem_cons, ih (by omega)]
        constructor
        · rintro (rfl | ⟨⟨i, hi⟩, hstop, hbytes⟩)
          · exact ⟨⟨0, by simp⟩, ht, rfl⟩
          · refine ⟨⟨i + 1, ?_⟩, hstop, hbytes⟩
            rw [hi, Nat.cast_add, Nat.cast_one, add_mul]
            omega
        · rintro ⟨⟨i, hi⟩, hstop, hbytes⟩
          cases i with
          | zero =>
              refine .inl ?_
              have hts : p.ts = t := by simpa using hi
              obtain ⟨ts, bytes⟩ := p
              subst hts
              exact congrArg _ hbytes
          | succ i =>
              refine .inr ⟨⟨i, ?_⟩, hstop, hbytes⟩
              rw [hi, Nat.cast_add, Nat.cast_one, add_mul]
              omega
      · rename_i ht
        refine iff_of_false List.not_mem_nil ?_
        rintro ⟨⟨i, hi⟩, hstop, -⟩
        have hpos : 0 ≤ (i : Int) * bucket := Int.mul_nonneg (by omega) (by omega)
        omega

theorem nodup_ts_fillFrom (hbucket : 0 < bucket) (fuel : Nat) (t : Int) :
    ((fillFrom found stop bucket fuel t).map Point.ts).Nodup := by
  have hchain : ((fillFrom found stop bucket fuel t).map Point.ts).IsChain (· < ·) := by
    rw [List.isChain_map]
    refine (isChain_fillFrom fuel t).imp fun p q hq => ?_
    omega
  exact (List.isChain_iff_pairwise.mp hchain).imp fun h => ne_of_lt h

end Grid

section Series

variable {tables : TrafficTables} {start stop bucket tz : Int} {client : Option Text}

def firstBucket (start bucket tz : Int) : Int := (start + tz).fdiv bucket * bucket - tz

theorem bucketOf_on_grid (hbucket : 0 < bucket) (hstart : 0 ≤ start + tz) {ts : Int}
    (hts : start ≤ ts) :
    (∃ i : Nat, bucketOf bucket tz ts = firstBucket start bucket tz + i * bucket) ∧
      bucketOf bucket tz ts ≤ ts := by
  rw [bucketOf, firstBucket, Int.tdiv_eq_ediv_of_nonneg (by omega),
    Int.fdiv_eq_ediv_of_nonneg _ (by omega)]
  constructor
  · have hle : (start + tz) / bucket ≤ (ts + tz) / bucket :=
      Int.ediv_le_ediv hbucket (by omega)
    refine ⟨((ts + tz) / bucket - (start + tz) / bucket).toNat, ?_⟩
    rw [Int.toNat_of_nonneg (by omega), sub_mul]
    omega
  · have hmul : (ts + tz) / bucket * bucket ≤ ts + tz := Int.ediv_mul_le _ (by omega)
    omega

theorem within_of_mem_union {row : TrafficRow} (h : row ∈ tables.union start stop) :
    start ≤ row.ts ∧ row.ts < stop := by
  simp only [TrafficTables.union, List.mem_append, List.mem_filter] at h
  rcases h with (⟨-, h⟩ | ⟨-, h⟩) | ⟨-, h⟩ <;> simpa [TrafficRow.within] using h

def seriesGroups (tables : TrafficTables) (start stop bucket : Int) (client : Option Text)
    (tz : Int) : Dict Int Bytes :=
  Dict.groupSum (fun row : TrafficRow => bucketOf bucket tz row.ts) TrafficRow.bytes
    ((tables.union start stop).filter (ofClient client))

theorem mem_series (p : Point) : p ∈ series tables start stop bucket client tz ↔
    (seriesGroups tables start stop bucket client tz).get? p.ts = some p.bytes := by
  rw [series, ← seriesGroups, List.mem_map]
  constructor
  · rintro ⟨group, hgroup, rfl⟩
    exact (Dict.mem_sorted _ _).mp hgroup
  · intro h
    exact ⟨(p.ts, p.bytes), (Dict.mem_sorted _ _).mpr h, rfl⟩

theorem get?_byTs_series (t : Int) :
    (byTs (series tables start stop bucket client tz)).get? t =
      ((seriesGroups tables start stop bucket client tz).get? t).map (Point.mk t) := by
  cases h : (byTs (series tables start stop bucket client tz)).get? t with
  | some p =>
      rcases Dict.get?_foldl_set h with ⟨hmem, rfl⟩ | hnone
      · rw [(mem_series p).mp hmem, Option.map_some]
      · cases hnone
  | none =>
      cases hgroup : (seriesGroups tables start stop bucket client tz).get? t with
      | none => rfl
      | some bytes =>
          have hmem : (⟨t, bytes⟩ : Point) ∈ series tables start stop bucket client tz :=
            (mem_series _).mpr hgroup
          have hfound : ∃ p, (byTs (series tables start stop bucket client tz)).get? t = some p :=
            Dict.exists_foldl_set (.inl ⟨_, hmem, rfl⟩)
          obtain ⟨p, hp⟩ := hfound
          rw [hp] at h
          cases h

theorem bytesAt_series (t : Int) :
    bytesAt (byTs (series tables start stop bucket client tz)) t =
      ((seriesGroups tables start stop bucket client tz).get? t).getD 0 := by
  rw [bytesAt, get?_byTs_series, Option.map_map]
  cases (seriesGroups tables start stop bucket client tz).get? t <;> rfl

theorem mem_fillSeries (points : List Point) (hbucket : 0 < bucket) (p : Point) :
    p ∈ fillSeries points start stop bucket tz ↔
      (∃ i : Nat, p.ts = firstBucket start bucket tz + i * bucket) ∧ p.ts < stop ∧
        p.bytes = bytesAt (byTs points) p.ts :=
  mem_fillFrom hbucket (Int.self_le_toNat _) p

theorem series_on_grid (hbucket : 0 < bucket) (hstart : 0 ≤ start + tz) {t : Int}
    (h : t ∈ (seriesGroups tables start stop bucket client tz).keys) :
    (∃ i : Nat, t = firstBucket start bucket tz + i * bucket) ∧ t < stop := by
  rw [seriesGroups, Dict.mem_keys_groupSum, List.mem_map] at h
  obtain ⟨row, hrow, rfl⟩ := h
  have hts := within_of_mem_union (List.mem_of_mem_filter hrow)
  obtain ⟨hgrid, hle⟩ := bucketOf_on_grid hbucket hstart hts.1
  exact ⟨hgrid, by omega⟩

theorem chart_adds_up (tables : TrafficTables) (client : Option Text)
    (start stop bucket tz : Int) (hbucket : 0 < bucket) (hstart : 0 ≤ start + tz) :
    let points := series tables start stop bucket client tz
    let filled := fillSeries points start stop bucket tz
    (filled.IsChain fun p q => q.ts = p.ts + bucket) ∧
      (∀ p ∈ filled, p.ts ≡ -tz [ZMOD bucket]) ∧
      (∀ p ∈ points, p ∈ filled) ∧
      (filled.map Point.bytes).sum = totals tables start stop client := by
  intro points filled
  refine ⟨isChain_fillFrom _ _, ?_, ?_, ?_⟩
  · intro p hp
    obtain ⟨⟨i, hi⟩, -, -⟩ := (mem_fillSeries points hbucket p).mp hp
    rw [hi, firstBucket, Int.modEq_iff_dvd]
    exact ⟨-((start + tz).fdiv bucket + i), by ring⟩
  · intro p hp
    have hgroup := (mem_series p).mp hp
    obtain ⟨hgrid, hstop⟩ := series_on_grid hbucket hstart
      ((Dict.mem_keys_iff _).mpr ⟨_, hgroup⟩)
    refine (mem_fillSeries points hbucket p).mpr ⟨hgrid, hstop, ?_⟩
    rw [bytesAt_series, hgroup, Option.getD_some]
  · have hbytes : filled.map Point.bytes = (filled.map Point.ts).map fun t =>
        ((seriesGroups tables start stop bucket client tz).get? t).getD 0 := by
      rw [List.map_map]
      refine List.map_congr_left fun p hp => ?_
      rw [((mem_fillSeries points hbucket p).mp hp).2.2, bytesAt_series, Function.comp_apply]
    have hnodup : (filled.map Point.ts).Nodup := nodup_ts_fillFrom hbucket _ _
    rw [hbytes, Dict.sum_get?_getD hnodup]
    · exact Dict.sum_values_groupSum _ _ _
    · intro t ht
      obtain ⟨hgrid, hstop⟩ := series_on_grid hbucket hstart ht
      refine List.mem_map.mpr ⟨⟨t, bytesAt (byTs points) t⟩, ?_, rfl⟩
      exact (mem_fillSeries points hbucket _).mpr ⟨hgrid, hstop, rfl⟩

theorem evening_chart_adds_up :
    let tables : TrafficTables :=
      ⟨[⟨4020, "a".toList, (1, 2)⟩, ⟨4080, "b".toList, (3, 4)⟩], [⟨7200, "a".toList, (5, 6)⟩], []⟩
    let points := series tables 4000 12000 3600 (some "a".toList) 1800
    let filled := fillSeries points 4000 12000 3600 1800
    (filled.IsChain fun p q => q.ts = p.ts + 3600) ∧
      (∀ p ∈ filled, p.ts ≡ -1800 [ZMOD 3600]) ∧
      (∀ p ∈ points, p ∈ filled) ∧
      (filled.map Point.bytes).sum = (6, 8) := by
  intro tables points filled
  have h := chart_adds_up tables (some "a".toList) 4000 12000 3600 1800 (by decide) (by decide)
  have htotals : totals tables 4000 12000 (some "a".toList) = (6, 8) := by decide
  rw [htotals] at h
  exact h

end Series

section Folding

variable {N : Type*} [AddCommMonoid N] {start stop : Int}

theorem sum_union (g : TrafficRow → N) (db : Database) (start stop : Int) :
    ((db.tables.union start stop).map g).sum = db.trafficTotal fun key bytes =>
      if start ≤ key.1 ∧ key.1 < stop then g ⟨key.1, key.2, bytes⟩ else 0 := by
  have htable (table : Traffic) : ((table.rows.filter (·.within start stop)).map g).sum =
      Dict.total (fun key bytes =>
        if start ≤ key.1 ∧ key.1 < stop then g ⟨key.1, key.2, bytes⟩ else 0) table := by
    rw [sum_map_filter, Traffic.rows, List.map_map, Dict.total]
    refine congrArg List.sum (List.map_congr_left fun entry _ => ?_)
    simp [TrafficRow.within]
  rw [TrafficTables.union, List.map_append, List.map_append, List.sum_append, List.sum_append]
  simp only [Database.tables, htable, Database.trafficTotal]

theorem sum_union_rollup (g : TrafficRow → N)
    (hadd : ∀ ts name a b, g ⟨ts, name, a + b⟩ = g ⟨ts, name, a⟩ + g ⟨ts, name, b⟩)
    (hday : ∀ (ts : Nat) name bytes,
      g ⟨(ts / 86400 * 86400 : Nat), name, bytes⟩ = g ⟨ts, name, bytes⟩)
    (hstart : 86400 ∣ start) (hstop : 86400 ∣ stop) (db : Database) (now : Nat) :
    (((db.rollup now).tables.union start stop).map g).sum =
      ((db.tables.union start stop).map g).sum := by
  rw [sum_union, sum_union]
  apply trafficTotal_rollup
  · intro key a b
    split
    · exact hadd _ _ _ _
    · exact (add_zero 0).symm
  · intro ts name bytes
    have hwithin : (start ≤ (ts / 86400 * 86400 : Nat) ∧ (ts / 86400 * 86400 : Nat) < stop) ↔
        (start ≤ ts ∧ ts < stop) := by
      omega
    simp only [hwithin, hday]

theorem ofClient_mk (client : Option Text) (ts : Int) (name : Text) (bytes : Bytes) :
    ofClient client ⟨ts, name, bytes⟩ = ofClient client ⟨0, name, 0⟩ := rfl

theorem totals_rollup (hstart : 86400 ∣ start) (hstop : 86400 ∣ stop) (db : Database) (now : Nat)
    (client : Option Text) :
    totals (db.rollup now).tables start stop client = totals db.tables start stop client := by
  rw [totals, totals, sum_map_filter, sum_map_filter]
  apply sum_union_rollup _ _ _ hstart hstop
  · intro ts name a b
    cases h : ofClient client ⟨0, name, 0⟩ <;> simp [ofClient_mk client ts, h]
  · intro ts name bytes
    rfl

theorem totalsByClient_rollup (hstart : 86400 ∣ start) (hstop : 86400 ∣ stop) (db : Database)
    (now : Nat) (name : Text) :
    (totalsByClient (db.rollup now).tables start stop).get? name =
      (totalsByClient db.tables start stop).get? name := by
  apply Dict.get?_eq_of_held
  intro name
  rw [totalsByClient, totalsByClient, Dict.held_groupSum, Dict.held_groupSum]
  apply sum_union_rollup _ _ _ hstart hstop
  · intro ts cn a b
    exact only_add _ a b
  · intro ts cn bytes
    rfl

theorem series_rollup (hstart : 86400 ∣ start) (hstop : 86400 ∣ stop) (db : Database) (now : Nat)
    (client : Option Text) :
    series (db.rollup now).tables start stop 86400 client 0 =
      series db.tables start stop 86400 client 0 := by
  rw [series, series]
  refine congrArg _ (Dict.sorted_congr ?_)
  apply Dict.get?_eq_of_held
  intro b
  rw [Dict.held_groupSum, Dict.held_groupSum, sum_map_filter, sum_map_filter]
  apply sum_union_rollup _ _ _ hstart hstop
  · intro ts name x y
    cases h : ofClient client ⟨0, name, 0⟩ <;> simp [ofClient_mk client ts, h, only_add]
  · intro ts name bytes
    have hbucket : bucketOf 86400 0 (ts / 86400 * 86400 : Nat) = bucketOf 86400 0 ts := by
      rw [bucketOf, bucketOf, Int.tdiv_eq_ediv_of_nonneg (by omega),
        Int.tdiv_eq_ediv_of_nonneg (by omega)]
      omega
    have hname : ofClient client ⟨(ts / 86400 * 86400 : Nat), name, bytes⟩ =
        ofClient client ⟨ts, name, bytes⟩ := rfl
    simp only [hname, hbucket]

theorem rollup_keeps_totals {db : Database}
    (hr : Reaches trafficStep OnMinute Database.empty db) (now : Option Nat) (clock : Nat) :
    let folded := db.rollup (rollupTime clock now)
    (∀ (client : Option Text) (start stop : Int), 86400 ∣ start → 86400 ∣ stop →
      totals folded.tables start stop client = totals db.tables start stop client ∧
      (∀ name, (totalsByClient folded.tables start stop).get? name =
        (totalsByClient db.tables start stop).get? name) ∧
      series folded.tables start stop 86400 client 0 = series db.tables start stop 86400 client 0) ∧
    Aligned db ∧ Aligned folded := by
  have haligned := aligned_of_reaches hr
  refine ⟨fun client start stop hstart hstop => ?_, haligned, aligned_rollup haligned _⟩
  exact ⟨totals_rollup hstart hstop db _ client, totalsByClient_rollup hstart hstop db _,
    series_rollup hstart hstop db _ client⟩

theorem late_traffic_keeps_totals :
    ∃ db, Reaches trafficStep OnMinute Database.empty db ∧
      totals db.tables 86400 172800 none = (7, 9) ∧
      totals (db.rollup (rollupTime 0 (some 9000000))).tables 86400 172800 none = (7, 9) := by
  have hread : (runSteps trafficStep Database.empty
      [.add 90000 "a".toList 1 2, .rollup (some 400000) 5, .add 90060 "a".toList 4 (-1),
        .rollup (some 300000) 5, .add 120000 "b".toList 2 7]).map
      (fun db => totals db.tables 86400 172800 none) = some (7, 9) := by decide
  obtain ⟨db, hrun, htotals⟩ := Option.map_eq_some_iff.mp hread
  have hr : Reaches trafficStep OnMinute Database.empty db :=
    Reaches.of_runSteps hrun (by decide)
  refine ⟨db, hr, htotals, ?_⟩
  rw [((rollup_keeps_totals hr (some 9000000) 0).1 none 86400 172800 (by decide) (by decide)).1,
    htotals]

end Folding

end OpenvpnServer.Collector
