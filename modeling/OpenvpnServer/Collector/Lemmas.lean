import OpenvpnServer.Collector.Turn

namespace OpenvpnServer.Collector

open OpenvpnServer.Lib

variable {row : Session} {k : Key} {db db' : Database} {id : Nat} {active : Active}
  {state : Pending × Database}

-- The connection a row belongs to; none for a row the log inserted.
def Session.key? (row : Session) : Option Key :=
  row.cid.map fun cid => ⟨cid, row.connectedAt, row.clientName⟩

section FindSession

theorem later_cases (best : Option (Nat × Session)) (row : Nat × Session) :
    later best row = some row ∨ (later best row = best ∧ best ≠ none) := by
  unfold later
  cases best with
  | none => exact .inl rfl
  | some other =>
      dsimp only
      split
      · exact .inl rfl
      · exact .inr ⟨rfl, by simp⟩

theorem foldl_later_mem (rows : List (Nat × Session)) (best : Option (Nat × Session)) :
    (rows.foldl later best = best ∨ ∃ row ∈ rows, rows.foldl later best = some row) ∧
      (rows.foldl later best = none → best = none ∧ rows = []) := by
  induction rows generalizing best with
  | nil => simp
  | cons row rest ih =>
      rw [List.foldl_cons]
      obtain ⟨hmem, hnone⟩ := ih (later best row)
      refine ⟨?_, ?_⟩
      · rcases hmem with heq | ⟨x, hx, heq⟩
        · rcases later_cases best row with hb | ⟨hb, _⟩
          · exact .inr ⟨row, List.mem_cons_self, heq.trans hb⟩
          · exact .inl (heq.trans hb)
        · exact .inr ⟨x, List.mem_cons_of_mem _ hx, heq⟩
      · intro hfound
        obtain ⟨hb', _⟩ := hnone hfound
        rcases later_cases best row with hb | ⟨hb, hne⟩
        · rw [hb] at hb'
          cases hb'
        · exact absurd (hb.symm.trans hb') hne

theorem key?_eq_some_iff :
    row.key? = some k ↔
      row.clientName = k.cn ∧ row.cid = some k.cid ∧ row.connectedAt = k.connectedSince := by
  unfold Session.key?
  cases k
  cases row.cid with
  | none => simp
  | some cid =>
      simp only [Option.map_some, Option.some.injEq, Key.mk.injEq]
      tauto

theorem findSession_some
    (h : db.findSession k.cn k.cid k.connectedSince = some (id, row)) :
    db.sessions.get? id = some row ∧ row.key? = some k := by
  obtain ⟨hmem | ⟨x, hx, heq⟩, _⟩ := foldl_later_mem _ none
  · rw [Database.findSession, hmem] at h
    cases h
  · rw [Database.findSession, heq, Option.some.injEq] at h
    subst h
    rw [List.mem_filter, decide_eq_true_eq] at hx
    exact ⟨db.sessions.get?_eq_some_iff.mpr hx.1, key?_eq_some_iff.mpr hx.2⟩

theorem findSession_none
    (h : db.findSession k.cn k.cid k.connectedSince = none)
    (hrow : db.sessions.get? id = some row) : row.key? ≠ some k := by
  intro hk
  have hempty := ((foldl_later_mem _ none).2 h).2
  have hmem : (id, row) ∈ db.sessions.entries := db.sessions.get?_eq_some_iff.mp hrow
  rw [List.filter_eq_nil_iff] at hempty
  exact hempty _ hmem (by simpa using key?_eq_some_iff.mp hk)

end FindSession

section Linked

-- A connection has at most one row, and an entry of `_active` names the row of
-- its connection.
structure Linked (active : Active) (db : Database) : Prop where
  below : ∀ id row, db.sessions.get? id = some row → id < db.nextId
  unique : ∀ id id' row row' k, db.sessions.get? id = some row →
    db.sessions.get? id' = some row' → row.key? = some k → row'.key? = some k → id = id'
  linked : ∀ k entry, active.get? k = some entry →
    ∃ row, db.sessions.get? entry.sessionId = some row ∧ row.key? = some k

@[simp] theorem addTraffic_sessions (db : Database) (minute : Nat) (name : Text) (dIn dOut : Int) :
    (db.addTraffic minute name dIn dOut).sessions = db.sessions := by
  unfold Database.addTraffic
  split <;> rfl

@[simp] theorem addTraffic_nextId (db : Database) (minute : Nat) (name : Text) (dIn dOut : Int) :
    (db.addTraffic minute name dIn dOut).nextId = db.nextId := by
  unfold Database.addTraffic
  split <;> rfl

theorem Linked.congr (h : Linked active db)
    (hs : db'.sessions = db.sessions) (hn : db'.nextId = db.nextId) : Linked active db' := by
  obtain ⟨h1, h2, h3⟩ := h
  rw [← hs] at h1 h2 h3
  rw [← hn] at h1
  exact ⟨h1, h2, h3⟩

theorem Linked.setRow
    (h : Linked active db) (row : Session) (hkey : row.key? = some k)
    (hown : ∀ id' row', db.sessions.get? id' = some row' → (id' = id ↔ row'.key? = some k))
    (hs : db'.sessions = db.sessions.set id row) (hid : id < db'.nextId)
    (hn : db.nextId ≤ db'.nextId) (bytes : Bytes) : Linked (active.set k ⟨id, bytes⟩) db' := by
  have hrow (i : Nat) (r : Session) (hr : db'.sessions.get? i = some r) :
      (i = id ∧ r = row) ∨ (i ≠ id ∧ db.sessions.get? i = some r) := by
    rw [hs] at hr
    exact Dict.get?_set_cases hr
  have hother (i : Nat) (r : Session) (hne : i ≠ id) (hr : db.sessions.get? i = some r) :
      r.key? ≠ some k := fun hk => hne ((hown i r hr).mpr hk)
  refine ⟨?_, ?_, ?_⟩
  · intro i r hr
    rcases hrow i r hr with ⟨rfl, _⟩ | ⟨_, hr⟩
    · exact hid
    · exact (h.below i r hr).trans_le hn
  · intro i i' r r' k' hr hr' hk hk'
    rcases hrow i r hr with ⟨rfl, rfl⟩ | ⟨hne, hr⟩ <;>
      rcases hrow i' r' hr' with ⟨rfl, rfl⟩ | ⟨hne', hr'⟩
    · rfl
    · rw [hkey, Option.some.injEq] at hk
      exact absurd (hk ▸ hk') (hother i' r' hne' hr')
    · rw [hkey, Option.some.injEq] at hk'
      exact absurd (hk' ▸ hk) (hother i r hne hr)
    · exact h.unique i i' r r' k' hr hr' hk hk'
  · intro k' entry he
    rcases Dict.get?_set_cases he with ⟨rfl, rfl⟩ | ⟨hk, he⟩
    · exact ⟨row, by rw [hs, Dict.get?_set_self], hkey⟩
    · obtain ⟨r, hr, hrk⟩ := h.linked k' entry he
      have hne : entry.sessionId ≠ id := by
        intro heq
        have := (hown _ r hr).mp heq
        rw [hrk, Option.some.injEq] at this
        exact hk this
      exact ⟨r, by rw [hs, Dict.get?_set_ne _ _ hne]; exact hr, hrk⟩

theorem Linked.mapValues (h : Linked active db)
    {f : Nat → Session → Session} (hf : ∀ id row, (f id row).key? = row.key?)
    (hs : db'.sessions = db.sessions.mapValues f) (hn : db'.nextId = db.nextId) :
    Linked active db' := by
  have hrow (i : Nat) (r : Session) (hr : db'.sessions.get? i = some r) :
      ∃ old, db.sessions.get? i = some old ∧ r.key? = old.key? := by
    rw [hs, Dict.get?_mapValues, Option.map_eq_some_iff] at hr
    obtain ⟨old, hold, rfl⟩ := hr
    exact ⟨old, hold, hf i old⟩
  refine ⟨?_, ?_, ?_⟩
  · intro i r hr
    obtain ⟨old, hold, _⟩ := hrow i r hr
    rw [hn]
    exact h.below i old hold
  · intro i i' r r' k hr hr' hk hk'
    obtain ⟨old, hold, heq⟩ := hrow i r hr
    obtain ⟨old', hold', heq'⟩ := hrow i' r' hr'
    exact h.unique i i' old old' k hold hold' (heq ▸ hk) (heq' ▸ hk')
  · intro k entry he
    obtain ⟨row, hr, hk⟩ := h.linked k entry he
    refine ⟨f entry.sessionId row, ?_, (hf _ row).trans hk⟩
    rw [hs, Dict.get?_mapValues, hr]
    rfl

theorem Linked.update (h : Linked active db) (id : Nat)
    {f : Session → Session} (hf : ∀ row, (f row).key? = row.key?) :
    Linked active (db.updateSession id f) := by
  refine h.mapValues (f := fun id' row => if id' = id then f row else row) ?_ rfl rfl
  intro id' row
  split
  · exact hf row
  · rfl

theorem Linked.subset {active' : Active} (h : Linked active db)
    (ha : ∀ k entry, active'.get? k = some entry → active.get? k = some entry) :
    Linked active' db :=
  ⟨h.below, h.unique, fun k entry he => h.linked k entry (ha k entry he)⟩

theorem Linked.get?_nextId (h : Linked active db) :
    db.sessions.get? db.nextId = none := by
  cases hr : db.sessions.get? db.nextId with
  | none => rfl
  | some row => exact absurd (h.below _ row hr) (Nat.lt_irrefl _)

theorem Linked.insertUnkeyed (h : Linked active db)
    (hrow : row.key? = none) : Linked active (db.insertSession row).2 := by
  have hnew (i : Nat) (r : Session) (hr : (db.insertSession row).2.sessions.get? i = some r) :
      (i = db.nextId ∧ r.key? = none) ∨ db.sessions.get? i = some r := by
    rcases Dict.get?_set_cases hr with ⟨hi, rfl⟩ | ⟨_, hr⟩
    · exact .inl ⟨hi, hrow⟩
    · exact .inr hr
  refine ⟨?_, ?_, ?_⟩
  · intro i r hr
    rcases hnew i r hr with ⟨rfl, _⟩ | hr
    · exact Nat.lt_succ_self _
    · exact (h.below i r hr).trans (Nat.lt_succ_self _)
  · intro i i' r r' k hr hr' hk hk'
    rcases hnew i r hr with ⟨_, hnone⟩ | hr
    · rw [hnone] at hk
      cases hk
    · rcases hnew i' r' hr' with ⟨_, hnone⟩ | hr'
      · rw [hnone] at hk'
        cases hk'
      · exact h.unique i i' r r' k hr hr' hk hk'
  · intro k entry he
    obtain ⟨r, hr, hk⟩ := h.linked k entry he
    refine ⟨r, ?_, hk⟩
    rw [Database.insertSession, Dict.get?_set_ne _ _ (h.below _ r hr).ne]
    exact hr

end Linked

section PollClient

variable {now : Nat} {active : Active} {db : Database} {cl : Client}

inductive Polled (now : Nat) (active : Active) (db : Database) (cl : Client) :
    Active × Database → Prop
  | known (entry : Entry) (row : Session) (he : active.get? cl.key = some entry)
      (hrow : db.sessions.get? entry.sessionId = some row) (hkey : row.key? = some cl.key) :
      Polled now active db cl
        (active.set cl.key ⟨entry.sessionId, cl.bytes⟩,
          Database.addTraffic
            { db with sessions := db.sessions.set entry.sessionId (row.refreshed now cl) }
            (minuteOf now) cl.cn (countedSince cl.bytes.1 entry.bytes.1)
            (countedSince cl.bytes.2 entry.bytes.2))
  | reopened (id : Nat) (row : Session) (he : active.get? cl.key = none)
      (hrow : db.sessions.get? id = some row) (hkey : row.key? = some cl.key) :
      Polled now active db cl
        (active.set cl.key ⟨id, cl.bytes⟩,
          Database.addTraffic { db with sessions := db.sessions.set id (row.reopened now cl) }
            (minuteOf now) cl.cn (grownBy cl.bytes.1 row.bytes.1) (grownBy cl.bytes.2 row.bytes.2))
  | inserted (row : Session) (he : active.get? cl.key = none)
      (hnone : ∀ id row, db.sessions.get? id = some row → row.key? ≠ some cl.key)
      (hkey : row.key? = some cl.key) (hname : row.clientName = cl.cn)
      (hbytes : row.bytes = cl.bytes) (hopen : row.disconnectedAt = none) :
      Polled now active db cl
        (active.set cl.key ⟨db.nextId, cl.bytes⟩,
          Database.addTraffic
            { db with sessions := db.sessions.set db.nextId row, nextId := db.nextId + 1 }
            (minuteOf now) cl.cn cl.bytes.1 cl.bytes.2)

theorem pollClient_polled (now : Nat) (h : Linked active db) (hsince : 0 < cl.connectedSince) :
    Polled now active db cl (pollClient now (active, db) cl) := by
  have hat : cl.connectedAt now = cl.connectedSince := if_neg (by omega)
  unfold pollClient
  dsimp only
  cases he : active.get? cl.key with
  | some entry =>
      obtain ⟨row, hrow, hkey⟩ := h.linked cl.key entry he
      dsimp only [Database.updateSession]
      rw [Dict.modify_eq_set _ _ hrow]
      exact .known entry row he hrow hkey
  | none =>
      dsimp only
      rw [hat]
      cases hf : db.findSession cl.cn cl.cid cl.connectedSince with
      | some found =>
          obtain ⟨id, row⟩ := found
          obtain ⟨hrow, hkey⟩ := findSession_some (k := cl.key) hf
          dsimp only [Database.updateSession]
          rw [Dict.modify_eq_set _ _ hrow]
          exact .reopened id row he hrow hkey
      | none =>
          refine .inserted _ he (fun id row => findSession_none (k := cl.key) hf) ?_ rfl rfl rfl
          rw [key?_eq_some_iff]
          exact ⟨rfl, rfl, hat⟩

@[simp] theorem key?_refreshed (row : Session) : (row.refreshed now cl).key? = row.key? := rfl

@[simp] theorem key?_reopened (row : Session) : (row.reopened now cl).key? = row.key? := rfl

theorem linked_polled {state : Active × Database} (h : Linked active db)
    (hp : Polled now active db cl state) : Linked state.1 state.2 := by
  have hown (id : Nat) (row : Session) (hrow : db.sessions.get? id = some row)
      (hkey : row.key? = some cl.key) (id' : Nat) (row' : Session)
      (hrow' : db.sessions.get? id' = some row') : id' = id ↔ row'.key? = some cl.key := by
    constructor
    · rintro rfl
      rw [hrow, Option.some.injEq] at hrow'
      exact hrow' ▸ hkey
    · exact fun hk => h.unique id' id row' row cl.key hrow' hrow hk hkey
  cases hp with
  | known entry row he hrow hkey =>
      refine h.setRow (row.refreshed now cl) hkey (hown _ row hrow hkey) ?_ ?_ ?_ _
      · simp
      · simpa using h.below _ row hrow
      · simp
  | reopened id row he hrow hkey =>
      refine h.setRow (row.reopened now cl) hkey (hown id row hrow hkey) ?_ ?_ ?_ _
      · simp
      · simpa using h.below _ row hrow
      · simp
  | inserted row he hnone hkey hname hbytes hopen =>
      refine h.setRow row hkey ?_ ?_ ?_ ?_ _
      · intro id' row' hrow'
        exact iff_of_false (h.below id' row' hrow').ne (hnone id' row' hrow')
      · simp
      · simp
      · simp

end PollClient

theorem pollOutcome_committed {c : CollectorState} {status : Status} {now : Nat}
    {fails : Bool} {active' : Active}
    (h : pollOutcome c db status now fails = .committed active' db') :
    c.unchanged status = false ∧ pollTx now c.resync c.active db status = some (active', db') := by
  unfold pollOutcome at h
  split at h
  · cases h
  · rename_i hu
    split at h
    · cases h
    · split at h
      · cases h
      · rename_i htx
        cases h
        exact ⟨Bool.not_eq_true _ ▸ hu, htx⟩

section Close

variable {now : Nat} {reason : Option Text}

theorem closeSessions_preserves {P : Active × Database → Prop}
    (hclose : ∀ active db k entry, active.get? k = some entry → P (active, db) →
      P (active.erase k, db.updateSession entry.sessionId (Session.closed now reason)))
    (keys : List Key) {state : Active × Database} (h : P state) :
    P (closeSessions now reason keys state) := by
  unfold closeSessions
  induction keys generalizing state with
  | nil => exact h
  | cons k rest ih =>
      refine ih ?_
      obtain ⟨active, db⟩ := state
      unfold closeOne
      dsimp only
      split
      · exact h
      · exact hclose active db k _ ‹_› h

theorem closed_fields (row : Session) :
    (row.closed now reason).key? = row.key? ∧
      (row.closed now reason).clientName = row.clientName ∧
      (row.closed now reason).bytes = row.bytes := by
  unfold Session.closed
  split <;> exact ⟨rfl, rfl, rfl⟩

end Close

section Logs

def Quiet (f : Session → Session) : Prop :=
  ∀ row, (f row).key? = row.key? ∧ (f row).clientName = row.clientName ∧
    (f row).bytes = row.bytes ∧ (f row).disconnectedAt = row.disconnectedAt

-- What reading the logs can do to the database: a property that survives these
-- three survives `read_logs`.
structure LogStable (P : Database → Prop) : Prop where
  update : ∀ db id f, Quiet f → P db → P (db.updateSession id f)
  insert : ∀ db row, row.key? = none → row.bytes = 0 → row.disconnectedAt ≠ none → P db →
    P (db.insertSession row).2
  reject : ∀ db ts name reason address, P db → P (db.addRejection ts name reason address)

theorem quiet_withDevice (address : Text) (peer : Peer) : Quiet (Session.withDevice address peer) :=
  fun _ => ⟨rfl, rfl, rfl, rfl⟩

theorem quiet_endReason (reason : Text) :
    Quiet fun row => { row with endReason := some reason } := fun _ => ⟨rfl, rfl, rfl, rfl⟩

variable {P : Database → Prop}

theorem LogStable.logLine (hP : LogStable P) (h : P state.2)
    (line : LogLine) : P (logLine state line).2 := by
  obtain ⟨pending, db⟩ := state
  cases line with
  | rejection ts client reason address => exact hP.reject _ _ _ _ _ h
  | info ts address key value => exact h
  | opened ts address cn => exact h
  | ended ts address cn reason =>
      cases cn with
      | none => exact h
      | some cn =>
          unfold Collector.logLine
          dsimp only
          split
          · exact hP.update _ _ _ (quiet_endReason reason) h
          · exact hP.update _ _ _ (quiet_withDevice _ _)
              (hP.update _ _ _ (quiet_endReason reason) h)
          · split
            · exact hP.update _ _ _ (quiet_withDevice _ _)
                (hP.insert _ _ rfl rfl (by simp [Session.ofLog]) h)
            · exact h
          · exact h

theorem LogStable.describeOne (hP : LogStable P) (now : Nat)
    (h : P state.2) (item : Text × Peer) : P (describeOne now state item).2 := by
  unfold Collector.describeOne
  dsimp only
  split
  · exact hP.update _ _ _ (quiet_withDevice _ _) h
  · split <;> exact h

theorem LogStable.readLogs (hP : LogStable P) (now : Nat) (stops : Option Nat)
    (files : List LogRead) (h : P state.2) :
    P (readLogs now stops files state).2 := by
  have hfold {α : Type} (f : Pending × Database → α → Pending × Database)
      (hf : ∀ state a, P state.2 → P (f state a).2) (l : List α) (state : Pending × Database)
      (h : P state.2) : P (l.foldl f state).2 := by
    induction l generalizing state with
    | nil => exact h
    | cons a rest ih => exact ih _ (hf state a h)
  induction files generalizing state with
  | nil =>
      obtain ⟨pending, db⟩ := state
      unfold Collector.readLogs
      split
      · exact h
      · unfold describeSessions
        split
        · exact hfold _ (fun state item h => hP.describeOne now h item) _ _ h
        · exact h
  | cons file rest ih =>
      obtain ⟨pending, db⟩ := state
      unfold Collector.readLogs
      dsimp only
      split
      · exact ih (hfold _ (fun state line h => hP.logLine h line) _ _ h)
      · exact h

end Logs

end OpenvpnServer.Collector
