import Mathlib.Algebra.Group.Prod
import Mathlib.Algebra.Order.Group.Nat
import Mathlib.Tactic.Abel
import OpenvpnServer.Collector.Lemmas
import OpenvpnServer.Collector.Rollup
import OpenvpnServer.Lib.Run

namespace OpenvpnServer.Collector

open OpenvpnServer.Lib

variable {db' : Database} {active' : Active}

section Totals

variable (name : Text)

def bytesOf (cn : Text) (bytes : Bytes) : Bytes := if cn = name then bytes else 0

theorem bytesOf_add (cn : Text) (a b : Bytes) :
    bytesOf name cn (a + b) = bytesOf name cn a + bytesOf name cn b := by
  unfold bytesOf
  split
  · rfl
  · rw [add_zero]

theorem bytesOf_zero (cn : Text) : bytesOf name cn 0 = 0 := by
  unfold bytesOf
  split <;> rfl

def Traffic.bytes (table : Traffic) : Bytes :=
  Dict.total (fun key bytes => bytesOf name key.2 bytes) table

def Database.trafficOf (db : Database) : Bytes :=
  db.minute.bytes name + db.hour.bytes name + db.day.bytes name

def Database.sessionBytes (db : Database) : Bytes :=
  Dict.total (fun _ row => bytesOf name row.clientName row.bytes) db.sessions

def Counters.bytes (counters : Counters) : Bytes :=
  Dict.total (fun key bytes => bytesOf name key.cn bytes) counters

theorem bytes_add (table : Traffic) (key : Nat × Text) (b : Bytes) :
    (table.add key b).bytes name = table.bytes name + bytesOf name key.2 b := by
  rw [Traffic.add_eq]
  exact Dict.total_accumulate (fun key => bytesOf_add name key.2) table key b

theorem trafficOf_rollup (db : Database) (now : Nat) :
    (db.rollup now).trafficOf name = db.trafficOf name :=
  trafficTotal_rollup (fun key => bytesOf_add name key.2) (fun _ _ _ => rfl) db now

theorem trafficOf_addTraffic (db : Database) (minute : Nat) (cn : Text) (d : Bytes) :
    (db.addTraffic minute cn d.1 d.2).trafficOf name = db.trafficOf name + bytesOf name cn d := by
  unfold Database.addTraffic
  split
  · rename_i h
    have hzero : d = 0 := Prod.ext (by have := h.1; simp; omega) (by have := h.2; simp; omega)
    rw [hzero, bytesOf_zero, add_zero]
  · have hd : ((max (d.1 : Int) 0).toNat, (max (d.2 : Int) 0).toNat) = d :=
      Prod.ext (by simp) (by simp)
    simp only [Database.trafficOf, hd, bytes_add]
    rw [add_right_comm _ (bytesOf name cn d), add_right_comm _ (bytesOf name cn d)]

end Totals

section Counted

structure Counted (counters : Counters) (active : Active) (db : Database) : Prop where
  rows : ∀ id row k, db.sessions.get? id = some row → row.key? = some k →
    counters.get? k = some row.bytes
  unkeyed : ∀ id row, db.sessions.get? id = some row → row.key? = none → row.bytes = 0
  known : ∀ k bytes, counters.get? k = some bytes →
    ∃ id row, db.sessions.get? id = some row ∧ row.key? = some k
  active : ∀ k entry, active.get? k = some entry → counters.get? k = some entry.bytes
  traffic : ∀ name, db.trafficOf name = counters.bytes name
  sessions : ∀ name, db.sessionBytes name = counters.bytes name

variable {counters : Counters} {active : Active} {db : Database}

-- The counter of connection `k` grows. `before` is what was committed for it, zero
-- for a connection without a row.
theorem Counted.counters_set {k : Key} {id : Nat} {before grown after : Bytes}
    (h : Counted counters active db)
    (hown : ∀ id' row', db.sessions.get? id' = some row' → (id' = id ↔ row'.key? = some k))
    (hbefore : (db.sessions.get? id = none ∧ before = 0) ∨
      ∃ old, db.sessions.get? id = some old ∧ old.bytes = before)
    (hgrown : grown + before = after) (name : Text) :
    Counters.bytes name (counters.set k after) =
      counters.bytes name + bytesOf name k.cn grown := by
  refine Dict.total_set_grown _ ?_
  rw [← hgrown, bytesOf_add]
  rcases hbefore with ⟨hnone, rfl⟩ | ⟨old, hold, rfl⟩
  · cases hk : counters.get? k with
    | none => simp [bytesOf_zero]
    | some b =>
        obtain ⟨i, r, hr, hrk⟩ := h.known k b hk
        rw [(hown i r hr).mpr hrk, hnone] at hr
        cases hr
  · have hk := h.rows id old k hold ((hown id old hold).mp rfl)
    simp [hk]

theorem Counted.setRow {k : Key} {id : Nat} {before grown after : Bytes}
    (h : Counted counters active db) (row : Session) (hkey : row.key? = some k)
    (hbytes : row.bytes = after)
    (hown : ∀ id' row', db.sessions.get? id' = some row' → (id' = id ↔ row'.key? = some k))
    (hbefore : (db.sessions.get? id = none ∧ before = 0) ∨
      ∃ old, db.sessions.get? id = some old ∧ old.bytes = before)
    (hs : db'.sessions = db.sessions.set id row) (hgrown : grown + before = after)
    (ht : ∀ name, db'.trafficOf name = db.trafficOf name + bytesOf name k.cn grown) :
    Counted (counters.set k after) (active.set k ⟨id, after⟩) db' := by
  have hother (i : Nat) (r : Session) (hne : i ≠ id) (hr : db.sessions.get? i = some r) :
      r.key? ≠ some k := fun hk => hne ((hown i r hr).mpr hk)
  refine ⟨?_, ?_, ?_, ?_, ?_, ?_⟩
  · intro i r k' hr hrk
    rw [hs] at hr
    rcases Dict.get?_set_cases hr with ⟨_, rfl⟩ | ⟨hne, hr⟩
    · obtain rfl : k = k' := Option.some.inj (hkey.symm.trans hrk)
      rw [Dict.get?_set_self, hbytes]
    · have hk' : k' ≠ k := by
        rintro rfl
        exact hother i r hne hr hrk
      rw [Dict.get?_set_ne _ _ hk']
      exact h.rows i r k' hr hrk
  · intro i r hr hrk
    rw [hs] at hr
    rcases Dict.get?_set_cases hr with ⟨_, rfl⟩ | ⟨_, hr⟩
    · rw [hkey] at hrk
      cases hrk
    · exact h.unkeyed i r hr hrk
  · intro k' b hk'
    rcases Dict.get?_set_cases hk' with ⟨rfl, _⟩ | ⟨hne, hk'⟩
    · exact ⟨id, row, by rw [hs, Dict.get?_set_self], hkey⟩
    · obtain ⟨i, r, hr, hrk⟩ := h.known k' b hk'
      have hi : i ≠ id := by
        intro hi
        have hmine := (hown i r hr).mp hi
        rw [hrk, Option.some.injEq] at hmine
        exact hne hmine
      exact ⟨i, r, by rw [hs, Dict.get?_set_ne _ _ hi]; exact hr, hrk⟩
  · intro k' entry he
    rcases Dict.get?_set_cases he with ⟨rfl, rfl⟩ | ⟨hne, he⟩
    · rw [Dict.get?_set_self]
    · rw [Dict.get?_set_ne _ _ hne]
      exact h.active k' entry he
  · intro name
    rw [ht, h.traffic, h.counters_set hown hbefore hgrown]
  · intro name
    rw [h.counters_set hown hbefore hgrown, ← h.sessions]
    unfold Database.sessionBytes
    rw [hs]
    refine Dict.total_set_grown _ ?_
    have hname : row.clientName = k.cn := (key?_eq_some_iff.mp hkey).1
    rw [hname, hbytes, ← hgrown, bytesOf_add]
    rcases hbefore with ⟨hnone, rfl⟩ | ⟨old, hold, rfl⟩
    · simp [hnone, bytesOf_zero]
    · have hcn : old.clientName = k.cn := (key?_eq_some_iff.mp ((hown id old hold).mp rfl)).1
      simp [hold, hcn]

variable {now : Nat} {cl : Client}

theorem counted_polled {state : Active × Database} (hl : Linked active db)
    (h : Counted counters active db)
    (hle : ∀ before, counters.get? cl.key = some before → before ≤ cl.bytes)
    (hp : Polled now active db cl state) :
    Counted (counters.set cl.key cl.bytes) state.1 state.2 := by
  -- a connection that has a row: both deltas are the growth of its counter
  have hknown (id : Nat) (row row' : Session) (hrow : db.sessions.get? id = some row)
      (hkey : row.key? = some cl.key) (hkey' : row'.key? = some cl.key)
      (hbytes : row'.bytes = cl.bytes) (dIn dOut : Int)
      (hd : ∀ grown : Bytes, grown + row.bytes = cl.bytes → dIn = grown.1 ∧ dOut = grown.2) :
      Counted (counters.set cl.key cl.bytes) (active.set cl.key ⟨id, cl.bytes⟩)
        (Database.addTraffic { db with sessions := db.sessions.set id row' } (minuteOf now) cl.cn
          dIn dOut) := by
    have hbefore := hle row.bytes (h.rows id row cl.key hrow hkey)
    have hgrown : (cl.bytes.1 - row.bytes.1, cl.bytes.2 - row.bytes.2) + row.bytes = cl.bytes :=
      Prod.ext (Nat.sub_add_cancel hbefore.1) (Nat.sub_add_cancel hbefore.2)
    obtain ⟨rfl, rfl⟩ := hd _ hgrown
    refine h.setRow row' hkey' hbytes ?_ (.inr ⟨row, hrow, rfl⟩) (by simp) hgrown ?_
    · intro id' r hr
      constructor
      · rintro rfl
        rw [hrow, Option.some.injEq] at hr
        exact hr ▸ hkey
      · exact fun hk => hl.unique id' id r row cl.key hr hrow hk hkey
    · intro name
      exact trafficOf_addTraffic name _ _ _ _
  cases hp with
  | known entry row he hrow hkey =>
      have hentry : entry.bytes = row.bytes :=
        Option.some.inj ((h.active _ entry he).symm.trans (h.rows _ row _ hrow hkey))
      refine hknown _ row (row.refreshed now cl) hrow hkey hkey rfl _ _ ?_
      intro grown hg
      rw [hentry, ← hg]
      simp only [countedSince, Prod.fst_add, Prod.snd_add]
      omega
  | reopened id row he hrow hkey =>
      refine hknown _ row (row.reopened now cl) hrow hkey hkey rfl _ _ ?_
      intro grown hg
      rw [← hg]
      simp only [grownBy, Prod.fst_add, Prod.snd_add]
      omega
  | inserted row he hnone hkey hname hbytes hopen =>
      refine h.setRow row hkey hbytes ?_ (.inl ⟨?_, rfl⟩) (by simp) (add_zero _) ?_
      · intro id' row' hrow'
        exact iff_of_false (hl.below id' row' hrow').ne (hnone id' row' hrow')
      · exact hl.get?_nextId
      · intro name
        exact trafficOf_addTraffic name _ _ _ _

theorem Counted.mapValues (h : Counted counters active db)
    {f : Nat → Session → Session}
    (hf : ∀ id row, (f id row).key? = row.key? ∧ (f id row).clientName = row.clientName ∧
      (f id row).bytes = row.bytes)
    (hs : db'.sessions = db.sessions.mapValues f)
    (ht : ∀ name, db'.trafficOf name = db.trafficOf name) : Counted counters active db' := by
  have hrow (i : Nat) (r : Session) (hr : db'.sessions.get? i = some r) :
      ∃ old, db.sessions.get? i = some old ∧ r.key? = old.key? ∧ r.bytes = old.bytes := by
    rw [hs, Dict.get?_mapValues, Option.map_eq_some_iff] at hr
    obtain ⟨old, hold, rfl⟩ := hr
    exact ⟨old, hold, (hf i old).1, (hf i old).2.2⟩
  refine ⟨?_, ?_, ?_, h.active, ?_, ?_⟩
  · intro i r k hr hk
    obtain ⟨old, hold, hkey, hb⟩ := hrow i r hr
    rw [hb]
    exact h.rows i old k hold (hkey ▸ hk)
  · intro i r hr hk
    obtain ⟨old, hold, hkey, hb⟩ := hrow i r hr
    rw [hb]
    exact h.unkeyed i old hold (hkey ▸ hk)
  · intro k b hk
    obtain ⟨i, r, hr, hrk⟩ := h.known k b hk
    refine ⟨i, f i r, ?_, (hf i r).1.trans hrk⟩
    rw [hs, Dict.get?_mapValues, hr]
    rfl
  · intro name
    rw [ht, h.traffic]
  · intro name
    rw [← h.sessions]
    unfold Database.sessionBytes
    rw [hs]
    exact Dict.total_mapValues _ _ fun i r => by rw [(hf i r).2.1, (hf i r).2.2]

theorem Counted.insertUnkeyed (hl : Linked active db) (h : Counted counters active db)
    {row : Session} (hkey : row.key? = none) (hbytes : row.bytes = 0) :
    Counted counters active (db.insertSession row).2 := by
  have hrow (i : Nat) (r : Session) (hr : (db.insertSession row).2.sessions.get? i = some r) :
      (r.key? = none ∧ r.bytes = 0) ∨ db.sessions.get? i = some r := by
    rcases Dict.get?_set_cases hr with ⟨_, rfl⟩ | ⟨_, hr⟩
    · exact .inl ⟨hkey, hbytes⟩
    · exact .inr hr
  refine ⟨?_, ?_, ?_, h.active, h.traffic, ?_⟩
  · intro i r k hr hk
    rcases hrow i r hr with ⟨hnone, _⟩ | hr
    · rw [hnone] at hk
      cases hk
    · exact h.rows i r k hr hk
  · intro i r hr hk
    rcases hrow i r hr with ⟨_, hzero⟩ | hr
    · exact hzero
    · exact h.unkeyed i r hr hk
  · intro k b hk
    obtain ⟨i, r, hr, hrk⟩ := h.known k b hk
    refine ⟨i, r, ?_, hrk⟩
    rw [Database.insertSession, Dict.get?_set_ne _ _ (hl.below i r hr).ne]
    exact hr
  · intro name
    rw [← h.sessions]
    unfold Database.sessionBytes
    rw [Database.insertSession, Dict.total_set_of_none _ hl.get?_nextId]
    simp only [hbytes, bytesOf_zero, add_zero]

theorem Counted.subset (h : Counted counters active db)
    (ha : ∀ k entry, active'.get? k = some entry → active.get? k = some entry) :
    Counted counters active' db :=
  ⟨h.rows, h.unkeyed, h.known, fun k entry he => h.active k entry (ha k entry he), h.traffic,
    h.sessions⟩

end Counted

section Runs

variable {counters : Counters} {active : Active} {db : Database}

structure Ledger (counters : Counters) (active : Active) (db : Database) : Prop where
  linked : Linked active db
  counted : Counted counters active db

theorem Ledger.mapValues (h : Ledger counters active db)
    {f : Nat → Session → Session}
    (hf : ∀ id row, (f id row).key? = row.key? ∧ (f id row).clientName = row.clientName ∧
      (f id row).bytes = row.bytes)
    (hdb : db' = { db with sessions := db.sessions.mapValues f }) : Ledger counters active db' := by
  subst hdb
  exact ⟨h.linked.mapValues (fun id row => (hf id row).1) rfl rfl,
    h.counted.mapValues hf rfl fun _ => rfl⟩

theorem Ledger.update (h : Ledger counters active db) (id : Nat) {f : Session → Session}
    (hf : ∀ row, (f row).key? = row.key? ∧ (f row).clientName = row.clientName ∧
      (f row).bytes = row.bytes) : Ledger counters active (db.updateSession id f) := by
  refine h.mapValues ?_ rfl
  intro id' row
  split
  · exact hf row
  · exact ⟨rfl, rfl, rfl⟩

theorem Ledger.subset (h : Ledger counters active db)
    (ha : ∀ k entry, active'.get? k = some entry → active.get? k = some entry) :
    Ledger counters active' db :=
  ⟨h.linked.subset ha, h.counted.subset ha⟩

theorem Ledger.closeSessions (h : Ledger counters active db) (now : Nat) (reason : Option Text)
    (keys : List Key) :
    Ledger counters (closeSessions now reason keys (active, db)).1
      (closeSessions now reason keys (active, db)).2 := by
  refine closeSessions_preserves (P := fun state => Ledger counters state.1 state.2) ?_ keys h
  intro active db k entry _ h
  exact (h.update _ closed_fields).subset fun k' entry' he => (Dict.get?_of_erase he).2

theorem Ledger.pollClients (now : Nat) (clients : List Client)
    (hnodup : (clients.map Client.key).Nodup)
    (hlisted : ∀ cl ∈ clients, 0 < cl.connectedSince ∧
      ∀ before ∈ counters.get? cl.key, before ≤ cl.bytes)
    (h : Ledger counters active db) :
    Ledger (clients.foldl (fun counters cl => counters.set cl.key cl.bytes) counters)
      (clients.foldl (pollClient now) (active, db)).1
      (clients.foldl (pollClient now) (active, db)).2 := by
  induction clients generalizing counters active db with
  | nil => exact h
  | cons cl rest ih =>
      rw [List.map_cons, List.nodup_cons] at hnodup
      obtain ⟨hsince, hle⟩ := hlisted cl List.mem_cons_self
      have hp := pollClient_polled now h.linked hsince
      refine ih hnodup.2 ?_ ⟨linked_polled h.linked hp, counted_polled h.linked h.counted hle hp⟩
      intro cl' hcl'
      obtain ⟨hsince', hle'⟩ := hlisted cl' (List.mem_cons_of_mem _ hcl')
      have hne : cl'.key ≠ cl.key := fun heq => hnodup.1 (heq ▸ List.mem_map_of_mem hcl')
      rw [Dict.get?_set_ne _ _ hne]
      exact ⟨hsince', hle'⟩

theorem Ledger.pollTx {now : Nat} {resync : Bool}
    {status : Status} (hnodup : (status.counted.map Client.key).Nodup)
    (hlisted : ∀ cl ∈ status.counted, 0 < cl.connectedSince ∧
      ∀ before ∈ counters.get? cl.key, before ≤ cl.bytes)
    (h : Ledger counters active db)
    (htx : pollTx now resync active db status = some (active', db')) :
    Ledger (status.counted.foldl (fun counters cl => counters.set cl.key cl.bytes) counters)
      active' db' := by
  have hpolled := (h.pollClients now status.counted hnodup hlisted).closeSessions now none
    ((status.counted.foldl (pollClient now) (active, db)).1.keys.filter
      (· ∉ status.counted.map Client.key))
  unfold Collector.pollTx pollLoops at htx
  dsimp only at htx
  split at htx
  · rw [Option.map_eq_some_iff] at htx
    obtain ⟨closed, hclosed, heq⟩ := htx
    cases heq
    unfold Database.closeOthers at hclosed
    split at hclosed
    · cases hclosed
    · cases hclosed
      refine hpolled.mapValues ?_ rfl
      intro id row
      unfold Session.closedUnless
      split <;> exact ⟨rfl, rfl, rfl⟩
  · cases htx
    exact hpolled

theorem ledger_logStable (counters : Counters) (active : Active) :
    LogStable (Ledger counters active) := by
  refine ⟨?_, ?_, ?_⟩
  · intro db id f hf h
    exact h.update id fun row => ⟨(hf row).1, (hf row).2.1, (hf row).2.2.1⟩
  · intro db row hkey hbytes _ h
    exact ⟨h.linked.insertUnkeyed hkey, h.counted.insertUnkeyed h.linked hkey hbytes⟩
  · intro db ts name reason address h
    exact ⟨h.linked.congr rfl rfl, ⟨h.counted.rows, h.counted.unkeyed, h.counted.known,
      h.counted.active, h.counted.traffic, h.counted.sessions⟩⟩

-- What is assumed of the statuses: every connection has a start time and is
-- listed at most once, and its counters are not below those last committed.
def WellListed (t : Traced) : Turn → Prop
  | .poll status _ _ =>
      (status.counted.map Client.key).Nodup ∧ ∀ cl ∈ status.counted, 0 < cl.connectedSince ∧
        ∀ before ∈ t.counters.get? cl.key, before ≤ cl.bytes
  | _ => True

instance (t : Traced) (turn : Turn) : Decidable (WellListed t turn) :=
  match turn with
  | .poll status _ _ => inferInstanceAs (Decidable ((status.counted.map Client.key).Nodup ∧
      ∀ cl ∈ status.counted, 0 < cl.connectedSince ∧
        ∀ before ∈ t.counters.get? cl.key, before ≤ cl.bytes))
  | .down .. | .restart .. | .readLogs .. | .rollup .. => isTrue trivial

theorem ledger_step {t : Traced} {turn : Turn} (hlisted : WellListed t turn)
    (h : Ledger t.counters t.world.collector.active t.world.db) :
    Ledger (t.step turn).counters (t.step turn).world.collector.active
      (t.step turn).world.db := by
  have hforgotten : Ledger t.counters .empty t.world.db := h.subset (by simp)
  cases turn with
  | poll status now fails =>
      unfold Traced.step World.step CollectorState.poll
      dsimp only
      cases ho : pollOutcome t.world.collector t.world.db status now fails with
      | skipped => exact h
      | rolledBack => exact hforgotten
      | committed active' db' =>
          exact h.pollTx hlisted.1 hlisted.2 (pollOutcome_committed ho).2
  | down now fails =>
      unfold Traced.step World.step CollectorState.handleDown
      dsimp only
      split
      · exact h
      · split
        · exact hforgotten
        · exact h.closeSessions now _ _
  | restart closes =>
      unfold Traced.step World.step
      dsimp only
      split
      · refine hforgotten.mapValues ?_ rfl
        intro id row
        unfold Session.closedStale
        split <;> exact ⟨rfl, rfl, rfl⟩
      · exact hforgotten
  | readLogs now files stops =>
      exact (ledger_logStable _ _).readLogs now stops files
        (show Ledger _ _ (t.world.collector.pending, t.world.db).2 from h)
  | rollup now =>
      refine ⟨h.linked.congr rfl rfl, h.counted.rows, h.counted.unkeyed, h.counted.known,
        h.counted.active, ?_, h.counted.sessions⟩
      intro name
      exact (trafficOf_rollup name t.world.db now).trans (h.counted.traffic name)

theorem ledger_init : Ledger Traced.init.counters Traced.init.world.collector.active
    Traced.init.world.db := by
  refine ⟨⟨?_, ?_, ?_⟩, ⟨?_, ?_, ?_, ?_, ?_, ?_⟩⟩ <;>
    simp [Traced.init, World.init, Database.empty, CollectorState.new, Database.trafficOf,
      Traffic.bytes, Database.sessionBytes, Counters.bytes]

-- No byte is lost or counted twice: for every client, the buckets and the rows
-- both add up to the counters last committed for its connections.
theorem no_byte_lost_or_doubled {t : Traced}
    (hr : Reaches (fun t turn => some (Traced.step t turn)) WellListed Traced.init t)
    (name : Text) :
    t.world.db.trafficOf name = t.world.db.sessionBytes name ∧
      t.world.db.sessionBytes name = t.counters.bytes name := by
  have h : Ledger t.counters t.world.collector.active t.world.db := by
    refine Reaches.invariant (P := fun t => Ledger t.counters t.world.collector.active t.world.db)
      hr ?_ ledger_init
    intro before turn after h hlisted hstep
    cases hstep
    exact ledger_step hlisted h
  rw [h.counted.traffic, h.counted.sessions]
  exact ⟨rfl, rfl⟩

-- A client seen by one poll, counted in a transaction that is rolled back, then
-- again after a restart, and folded into the hourly table.
def sampleStatus (received time : Nat) : Status :=
  { time, fromFile := true, clients :=
      [⟨"alice".toList, "udp4:203.0.113.5:1194".toList, "10.8.0.2".toList, (received, 7), 900, [], 3, []⟩] }

def sampleTurns : List Turn :=
  [.poll (sampleStatus 100 1000) 1000 false, .poll (sampleStatus 180 1010) 1010 true,
    .restart true, .poll (sampleStatus 250 1020) 1020 false, .rollup 200000]

def sampleTraced : Traced := sampleTurns.foldl Traced.step Traced.init

theorem sampleTraced_run :
    runSteps (fun t turn => some (Traced.step t turn)) Traced.init sampleTurns =
      some sampleTraced := rfl

theorem alice_counted_once :
    sampleTraced.world.db.trafficOf "alice".toList = (250, 7) ∧
      sampleTraced.world.db.trafficOf "alice".toList =
        sampleTraced.world.db.sessionBytes "alice".toList ∧
      sampleTraced.world.db.sessionBytes "alice".toList =
        sampleTraced.counters.bytes "alice".toList :=
  ⟨by decide, no_byte_lost_or_doubled
    (Reaches.of_runSteps sampleTraced_run (by decide)) "alice".toList⟩

end Runs

end OpenvpnServer.Collector
