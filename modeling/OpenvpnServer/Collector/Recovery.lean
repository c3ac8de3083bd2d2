import OpenvpnServer.Collector.Lemmas
import OpenvpnServer.Lib.Run

namespace OpenvpnServer.Collector

open OpenvpnServer.Lib

section Tracks

-- Every connection in `_active` has its row open, and unless memory was lost no
-- other row is.
structure Tracks (resync : Bool) (active : Active) (db : Database) : Prop where
  linked : Linked active db
  opened : ∀ k entry row, active.get? k = some entry →
    db.sessions.get? entry.sessionId = some row → row.disconnectedAt = none
  only : resync = false → ∀ id row, db.sessions.get? id = some row → row.disconnectedAt = none →
    ∃ k entry, active.get? k = some entry ∧ entry.sessionId = id

variable {resync : Bool} {active : Active} {db : Database}

theorem Linked.key_unique (h : Linked active db) {k k' : Key} {entry entry' : Entry}
    (he : active.get? k = some entry) (he' : active.get? k' = some entry')
    (hid : entry.sessionId = entry'.sessionId) : k = k' := by
  obtain ⟨row, hrow, hk⟩ := h.linked k entry he
  obtain ⟨row', hrow', hk'⟩ := h.linked k' entry' he'
  rw [hid, hrow', Option.some.injEq] at hrow
  rw [hrow, hk, Option.some.injEq] at hk'
  exact hk'

theorem Tracks.setRow {db' : Database} {k : Key} {id : Nat} {bytes : Bytes}
    (h : Tracks resync active db) (hl : Linked (active.set k ⟨id, bytes⟩) db') (row : Session)
    (hopen : row.disconnectedAt = none)
    (hown : ∀ row', db.sessions.get? id = some row' → row'.key? = some k)
    (hid : ∀ id' row', db.sessions.get? id' = some row' → row'.key? = some k → id' = id)
    (hs : db'.sessions = db.sessions.set id row) :
    Tracks resync (active.set k ⟨id, bytes⟩) db' := by
  refine ⟨hl, ?_, ?_⟩
  · intro k' entry r he hr
    rw [hs] at hr
    rcases Dict.get?_set_cases hr with ⟨_, rfl⟩ | ⟨hne, hr⟩
    · exact hopen
    · rcases Dict.get?_set_cases he with ⟨_, rfl⟩ | ⟨_, he⟩
      · exact absurd rfl hne
      · exact h.opened k' entry r he hr
  · intro hresync i r hr hnone
    rw [hs] at hr
    rcases Dict.get?_set_cases hr with ⟨rfl, _⟩ | ⟨hne, hr⟩
    · exact ⟨k, _, Dict.get?_set_self .., rfl⟩
    · obtain ⟨k', entry, he, heq⟩ := h.only hresync i r hr hnone
      have hk : k' ≠ k := by
        rintro rfl
        obtain ⟨r', hr', hrk⟩ := h.linked.linked k' entry he
        rw [heq] at hr'
        exact hne (hid i r' hr' hrk)
      exact ⟨k', entry, by rw [Dict.get?_set_ne _ _ hk]; exact he, heq⟩

theorem Tracks.polled {now : Nat} {cl : Client} {state : Active × Database}
    (h : Tracks resync active db) (hp : Polled now active db cl state) :
    Tracks resync state.1 state.2 := by
  have hl := linked_polled h.linked hp
  have hown (id : Nat) (row : Session) (hrow : db.sessions.get? id = some row)
      (hkey : row.key? = some cl.key) (row' : Session) (hrow' : db.sessions.get? id = some row') :
      row'.key? = some cl.key := by
    rw [hrow, Option.some.injEq] at hrow'
    exact hrow' ▸ hkey
  cases hp with
  | known entry row he hrow hkey =>
      refine h.setRow hl (row.refreshed now cl) (h.opened _ entry row he hrow)
        (hown _ row hrow hkey) ?_ (addTraffic_sessions ..)
      exact fun id' row' hrow' hk => h.linked.unique id' _ row' row _ hrow' hrow hk hkey
  | reopened id row he hrow hkey =>
      refine h.setRow hl (row.reopened now cl) rfl (hown _ row hrow hkey) ?_
        (addTraffic_sessions ..)
      exact fun id' row' hrow' hk => h.linked.unique id' _ row' row _ hrow' hrow hk hkey
  | inserted row he hnone hkey hname hbytes hopen =>
      refine h.setRow hl row hopen ?_ ?_ (addTraffic_sessions ..)
      · exact fun row' hrow' => absurd (h.linked.below _ row' hrow') (Nat.lt_irrefl _)
      · exact fun id' row' hrow' hk => absurd hk (hnone id' row' hrow')

theorem Tracks.close {now : Nat} {reason : Option Text} {k : Key} {entry : Entry}
    (h : Tracks resync active db) (he : active.get? k = some entry) :
    Tracks resync (active.erase k)
      (db.updateSession entry.sessionId (Session.closed now reason)) := by
  have hl : Linked (active.erase k)
      (db.updateSession entry.sessionId (Session.closed now reason)) :=
    (h.linked.update _ fun row => (closed_fields row).1).subset
      fun k' e he' => (Dict.get?_of_erase he').2
  refine ⟨hl, ?_, ?_⟩
  · intro k' entry' row he' hrow
    obtain ⟨hk, he'⟩ := Dict.get?_of_erase he'
    have hid : entry'.sessionId ≠ entry.sessionId :=
      fun hid => hk (h.linked.key_unique he' he hid)
    rw [Database.updateSession, Dict.get?_modify, if_neg hid] at hrow
    exact h.opened k' entry' row he' hrow
  · intro hresync id row hrow hnone
    rw [Database.updateSession, Dict.get?_modify] at hrow
    split at hrow
    · rw [Option.map_eq_some_iff] at hrow
      obtain ⟨old, _, rfl⟩ := hrow
      unfold Session.closed at hnone
      split at hnone
      · cases hnone
      · exact absurd hnone ‹_›
    · obtain ⟨k', entry', he', hid⟩ := h.only hresync id row hrow hnone
      refine ⟨k', entry', ?_, hid⟩
      have hk : k' ≠ k := by
        rintro rfl
        rw [he, Option.some.injEq] at he'
        exact ‹¬id = entry.sessionId› (hid ▸ he' ▸ rfl)
      rw [Dict.get?_erase, if_neg hk]
      exact he'

theorem Tracks.closeSessions (h : Tracks resync active db) (now : Nat) (reason : Option Text)
    (keys : List Key) :
    Tracks resync (closeSessions now reason keys (active, db)).1
      (closeSessions now reason keys (active, db)).2 := by
  refine closeSessions_preserves (P := fun state => Tracks resync state.1 state.2) ?_ keys h
  intro active db k entry he h
  exact h.close he

theorem Tracks.closeOthers {db' : Database} (h : Tracks resync active db)
    (hdb : db.closeOthers (active.values.map Entry.sessionId) = some db') :
    Tracks false active db' := by
  unfold Database.closeOthers at hdb
  split at hdb
  · cases hdb
  · cases hdb
    have hmem (k : Key) (entry : Entry) (he : active.get? k = some entry) :
        entry.sessionId ∈ active.values.map Entry.sessionId :=
      List.mem_map_of_mem ((Dict.mem_values_iff _).mpr ⟨k, he⟩)
    refine ⟨h.linked.mapValues (f := Session.closedUnless _) ?_ rfl rfl, ?_, ?_⟩
    · intro id row
      unfold Session.closedUnless
      split <;> rfl
    · intro k entry row he hrow
      rw [Dict.get?_mapValues, Option.map_eq_some_iff] at hrow
      obtain ⟨old, hold, rfl⟩ := hrow
      rw [Session.closedUnless, if_neg (fun hcond => hcond.2 (hmem k entry he))]
      exact h.opened k entry old he hold
    · intro _ id row hrow hnone
      rw [Dict.get?_mapValues, Option.map_eq_some_iff] at hrow
      obtain ⟨old, hold, rfl⟩ := hrow
      unfold Session.closedUnless at hnone
      split at hnone
      · cases hnone
      · rename_i hcond
        rw [not_and, not_not] at hcond
        obtain ⟨entry, hentry, hid⟩ := List.mem_map.mp (hcond hnone)
        obtain ⟨k, he⟩ := (Dict.mem_values_iff _).mp hentry
        exact ⟨k, entry, he, hid⟩

end Tracks

section PollTx

variable {resync : Bool} {active : Active} {db : Database} (now : Nat)

theorem Tracks.pollClients (h : Tracks resync active db) (clients : List Client)
    (hsince : ∀ cl ∈ clients, 0 < cl.connectedSince) :
    Tracks resync (clients.foldl (pollClient now) (active, db)).1
      (clients.foldl (pollClient now) (active, db)).2 := by
  induction clients generalizing active db with
  | nil => exact h
  | cons cl rest ih =>
      have hp := pollClient_polled now h.linked (hsince cl List.mem_cons_self)
      exact ih (h.polled hp) fun cl' hcl' => hsince cl' (List.mem_cons_of_mem _ hcl')

theorem pollClient_get? (state : Active × Database) (cl : Client) (k : Key) :
    (∃ entry, (pollClient now state cl).1.get? k = some entry) ↔
      k = cl.key ∨ ∃ entry, state.1.get? k = some entry := by
  have hset (entry : Entry) : (∃ e, (state.1.set cl.key entry).get? k = some e) ↔
      k = cl.key ∨ ∃ e, state.1.get? k = some e := by
    rw [Dict.get?_set]
    split <;> simp [*]
  obtain ⟨active, db⟩ := state
  unfold pollClient
  dsimp only
  split
  · exact hset _
  · split
    · exact hset _
    · exact hset _

theorem pollClients_get? (clients : List Client) (state : Active × Database) (k : Key) :
    (∃ entry, (clients.foldl (pollClient now) state).1.get? k = some entry) ↔
      k ∈ clients.map Client.key ∨ ∃ entry, state.1.get? k = some entry := by
  induction clients generalizing state with
  | nil => simp
  | cons cl rest ih =>
      rw [List.foldl_cons, ih, pollClient_get?, List.map_cons, List.mem_cons]
      tauto

theorem closeSessions_get? (reason : Option Text) (keys : List Key) (state : Active × Database)
    (k : Key) : (closeSessions now reason keys state).1.get? k =
      if k ∈ keys then none else state.1.get? k := by
  unfold closeSessions
  induction keys generalizing state with
  | nil => simp
  | cons x rest ih =>
      have hone : (closeOne now reason state x).1.get? k =
          if k = x then none else state.1.get? k := by
        obtain ⟨active, db⟩ := state
        unfold closeOne
        dsimp only
        split
        · rename_i hnone
          split
          · subst k
            exact hnone
          · rfl
        · exact Dict.get?_erase ..
      rw [List.foldl_cons, ih, hone]
      simp only [List.mem_cons]
      split <;> split <;> simp_all

theorem pollLoops_get? (active : Active) (db : Database) (status : Status) (k : Key) :
    (∃ entry, (pollLoops now active db status).1.get? k = some entry) ↔
      k ∈ status.counted.map Client.key := by
  have hpolled := pollClients_get? now status.counted (active, db) k
  have hgone : k ∈ (status.counted.foldl (pollClient now) (active, db)).1.keys.filter
      (· ∉ status.counted.map Client.key) ↔
      (∃ entry, (status.counted.foldl (pollClient now) (active, db)).1.get? k = some entry) ∧
        k ∉ status.counted.map Client.key := by
    rw [List.mem_filter, Dict.mem_keys_iff, decide_eq_true_eq]
  unfold pollLoops
  dsimp only
  rw [closeSessions_get?]
  by_cases hk : k ∈ status.counted.map Client.key
  · rw [if_neg (fun h => (hgone.mp h).2 hk)]
    exact iff_of_true (hpolled.mpr (.inl hk)) hk
  · refine iff_of_false ?_ hk
    rintro ⟨entry, he⟩
    split at he
    · cases he
    · rename_i hnot
      exact hnot (hgone.mpr ⟨⟨entry, he⟩, hk⟩)

theorem Tracks.pollTx {status : Status} (h : Tracks resync active db)
    (hsince : ∀ cl ∈ status.counted, 0 < cl.connectedSince) :
    (resync = true ∧ status.counted = [] ∧ pollTx now resync active db status = none) ∨
      ((resync = true → status.counted ≠ []) ∧ ∃ active' db',
        pollTx now resync active db status = some (active', db') ∧ Tracks false active' db' ∧
        ∀ k, (∃ entry, active'.get? k = some entry) ↔ k ∈ status.counted.map Client.key) := by
  have hclosed : Tracks resync (pollLoops now active db status).1
      (pollLoops now active db status).2 :=
    (h.pollClients now status.counted hsince).closeSessions now none _
  have hkeys := pollLoops_get? now active db status
  unfold Collector.pollTx
  dsimp only
  generalize pollLoops now active db status = closed at hclosed hkeys ⊢
  cases hresync : resync with
  | false =>
      subst hresync
      right
      refine ⟨by simp, closed.1, closed.2, rfl, hclosed, hkeys⟩
  | true =>
      rw [if_pos rfl]
      by_cases hempty : status.counted = []
      · left
        refine ⟨rfl, hempty, ?_⟩
        have hids : closed.1.values.map Entry.sessionId = [] := by
          rw [List.map_eq_nil_iff, List.eq_nil_iff_forall_not_mem]
          intro entry he
          obtain ⟨k, hk⟩ := (Dict.mem_values_iff _).mp he
          have := (hkeys k).mp ⟨entry, hk⟩
          rw [hempty] at this
          cases this
        rw [Database.closeOthers, if_pos hids]
        rfl
      · right
        refine ⟨fun _ => hempty, ?_⟩
        obtain ⟨cl, hcl⟩ := List.exists_mem_of_ne_nil _ hempty
        obtain ⟨entry, he⟩ := (hkeys cl.key).mpr (List.mem_map_of_mem hcl)
        have hids : closed.1.values.map Entry.sessionId ≠ [] :=
          List.ne_nil_of_mem (List.mem_map_of_mem ((Dict.mem_values_iff _).mpr ⟨_, he⟩))
        cases hdb : closed.2.closeOthers (closed.1.values.map Entry.sessionId) with
        | none => simp [Database.closeOthers, hids] at hdb
        | some db' => exact ⟨closed.1, db', rfl, hclosed.closeOthers hdb, hkeys⟩

end PollTx

section Runs

variable {resync : Bool} {active : Active} {db : Database}

theorem Tracks.congr {db' : Database} (h : Tracks resync active db)
    (hs : db'.sessions = db.sessions) (hn : db'.nextId = db.nextId) :
    Tracks resync active db' := by
  refine ⟨h.linked.congr hs hn, ?_, ?_⟩
  · rw [hs]
    exact h.opened
  · rw [hs]
    exact h.only

theorem Tracks.forget (h : Tracks resync active db) : Tracks true .empty db :=
  ⟨h.linked.subset (by simp), by simp, by simp⟩

theorem tracks_logStable (resync : Bool) (active : Active) : LogStable (Tracks resync active) := by
  refine ⟨?_, ?_, ?_⟩
  · intro db id f hf h
    refine ⟨h.linked.update id fun row => (hf row).1, ?_, ?_⟩
    · intro k entry row he hrow
      rw [Database.updateSession, Dict.get?_modify] at hrow
      split at hrow
      · rw [Option.map_eq_some_iff] at hrow
        obtain ⟨old, hold, rfl⟩ := hrow
        rw [(hf old).2.2.2]
        exact h.opened k entry old he hold
      · exact h.opened k entry row he hrow
    · intro hresync id' row hrow hnone
      rw [Database.updateSession, Dict.get?_modify] at hrow
      split at hrow
      · rw [Option.map_eq_some_iff] at hrow
        obtain ⟨old, hold, rfl⟩ := hrow
        rw [(hf old).2.2.2] at hnone
        exact h.only hresync id' old hold hnone
      · exact h.only hresync id' row hrow hnone
  · intro db row hkey _ hclosed h
    refine ⟨h.linked.insertUnkeyed hkey, ?_, ?_⟩
    · intro k entry r he hr
      obtain ⟨old, hold, _⟩ := h.linked.linked k entry he
      rw [Database.insertSession, Dict.get?_set_ne _ _ (h.linked.below _ old hold).ne] at hr
      exact h.opened k entry r he hr
    · intro hresync id r hr hnone
      rcases Dict.get?_set_cases hr with ⟨_, rfl⟩ | ⟨_, hr⟩
      · exact absurd hnone hclosed
      · exact h.only hresync id r hr hnone
  · intro db ts name reason address h
    exact h.congr rfl rfl

-- What is assumed of the statuses: a client past the handshake has a start time,
-- and a status file with the time of the last one polled is that same file.
def WellFormed (t : Traced) : Turn → Prop
  | .poll status _ _ => (∀ cl ∈ status.counted, 0 < cl.connectedSince) ∧
      (t.world.collector.unchanged status = true → status.clients = t.polled)
  | _ => True

instance (t : Traced) (turn : Turn) : Decidable (WellFormed t turn) :=
  match turn with
  | .poll status _ _ => inferInstanceAs (Decidable ((∀ cl ∈ status.counted, 0 < cl.connectedSince) ∧
      (t.world.collector.unchanged status = true → status.clients = t.polled)))
  | .down .. | .restart .. | .readLogs .. | .rollup .. => isTrue trivial

def NoOpenRows (db : Database) : Prop :=
  ∀ id row, db.sessions.get? id = some row → row.disconnectedAt ≠ none

-- A restart closes the rows of the previous run, or finds none open.
def StaleClosed (t : Traced) : Turn → Prop
  | .restart closes => closes = true ∨ NoOpenRows t.world.db
  | _ => True

structure Recovered (t : Traced) : Prop where
  tracks : Tracks t.world.collector.resync t.world.collector.active t.world.db
  polled : t.world.collector.statusTime.isSome →
    t.world.collector.resync = false ∧ ∀ k, (∃ entry, t.world.collector.active.get? k = some entry) ↔
      k ∈ (t.polled.filter Client.counted).map Client.key

theorem recovered_init : Recovered Traced.init := by
  refine ⟨⟨⟨?_, ?_, ?_⟩, ?_, ?_⟩, ?_⟩ <;>
    simp [Traced.init, World.init, Database.empty, CollectorState.new]

theorem tracks_new (hl : Linked .empty db) (hopen : NoOpenRows db) : Tracks false .empty db :=
  ⟨hl, by simp, fun _ id row hrow hnone => absurd hnone (hopen id row hrow)⟩

theorem noOpenRows_closeStaleSessions (db : Database) : NoOpenRows db.closeStaleSessions := by
  intro id row hrow
  rw [Database.closeStaleSessions, Dict.get?_mapValues, Option.map_eq_some_iff] at hrow
  obtain ⟨old, _, rfl⟩ := hrow
  unfold Session.closedStale
  split
  · simp
  · assumption

theorem recovered_step {t : Traced} {turn : Turn} (hwell : WellFormed t turn)
    (hstale : StaleClosed t turn) (h : Recovered t) : Recovered (t.step turn) := by
  cases turn with
  | poll status now fails =>
      unfold Traced.step World.step CollectorState.poll
      dsimp only
      cases ho : pollOutcome t.world.collector t.world.db status now fails with
      | skipped => exact h
      | rolledBack => exact ⟨h.tracks.forget, by simp [CollectorState.forget]⟩
      | committed active' db' =>
          obtain ⟨_, htx⟩ := pollOutcome_committed ho
          rcases h.tracks.pollTx now hwell.1 with ⟨_, _, hnone⟩ | ⟨_, a, d, hsome, htracks, hkeys⟩
          · rw [htx] at hnone
            cases hnone
          · rw [htx, Option.some.injEq, Prod.mk.injEq] at hsome
            obtain ⟨rfl, rfl⟩ := hsome
            exact ⟨htracks, fun _ => ⟨rfl, hkeys⟩⟩
  | down now fails =>
      unfold Traced.step World.step CollectorState.handleDown
      dsimp only
      split
      · exact ⟨h.tracks, by simp⟩
      · split
        · exact ⟨h.tracks.forget, by simp [CollectorState.forget]⟩
        · exact ⟨h.tracks.closeSessions now _ _, by simp⟩
  | restart closes =>
      unfold Traced.step World.step
      refine ⟨?_, by simp [CollectorState.new]⟩
      have hl : Linked .empty t.world.db := h.tracks.linked.subset (by simp)
      cases closes with
      | true =>
          refine tracks_new (hl.mapValues (f := fun _ row => row.closedStale) ?_ rfl rfl)
            (noOpenRows_closeStaleSessions _)
          intro _ row
          unfold Session.closedStale
          split <;> rfl
      | false => exact tracks_new hl (hstale.resolve_left (by simp))
  | readLogs now files stops =>
      refine ⟨?_, h.polled⟩
      exact (tracks_logStable _ _).readLogs now stops files
        (show Tracks _ _ (t.world.collector.pending, t.world.db).2 from h.tracks)
  | rollup now => exact ⟨h.tracks.congr rfl rfl, h.polled⟩

theorem recovered_reaches {t : Traced}
    (hr : Reaches (fun t turn => some (Traced.step t turn))
      (fun t turn => WellFormed t turn ∧ StaleClosed t turn) Traced.init t) : Recovered t := by
  refine hr.invariant ?_ recovered_init
  intro before turn after h hallowed hstep
  cases hstep
  exact recovered_step hallowed.1 hallowed.2 h

-- The open rows are those of the connections the status lists, one for each.
def OpenRowsMatch (db : Database) (status : Status) : Prop :=
  (∀ cl ∈ status.counted, ∃! id, ∃ row, db.sessions.get? id = some row ∧
    row.disconnectedAt = none ∧ row.key? = some cl.key) ∧
  ∀ id row, db.sessions.get? id = some row → row.disconnectedAt = none →
    ∃ cl ∈ status.counted, row.key? = some cl.key

theorem Tracks.openRowsMatch (h : Tracks false active db) {status : Status}
    (hkeys : ∀ k, (∃ entry, active.get? k = some entry) ↔ k ∈ status.counted.map Client.key) :
    OpenRowsMatch db status := by
  refine ⟨?_, ?_⟩
  · intro cl hcl
    obtain ⟨entry, he⟩ := (hkeys cl.key).mpr (List.mem_map_of_mem hcl)
    obtain ⟨row, hrow, hk⟩ := h.linked.linked _ entry he
    refine ⟨entry.sessionId, ⟨row, hrow, h.opened _ entry row he hrow, hk⟩, ?_⟩
    rintro id ⟨row', hrow', _, hk'⟩
    exact h.linked.unique id _ row' row _ hrow' hrow hk' hk
  · intro id row hrow hnone
    obtain ⟨k, entry, he, rfl⟩ := h.only rfl id row hrow hnone
    obtain ⟨row', hrow', hk⟩ := h.linked.linked k entry he
    rw [hrow, Option.some.injEq] at hrow'
    obtain ⟨cl, hcl, rfl⟩ := List.mem_map.mp ((hkeys k).mp ⟨entry, he⟩)
    exact ⟨cl, hcl, hrow' ▸ hk⟩

-- After any run, a poll that the database does not fail goes through and leaves
-- the rows as the status has them, unless it must reconcile with an empty status.
theorem poll_recovers_iff {t : Traced} {status : Status} {now : Nat}
    (hr : Reaches (fun t turn => some (Traced.step t turn))
      (fun t turn => WellFormed t turn ∧ StaleClosed t turn) Traced.init t)
    (hwell : WellFormed t (.poll status now false)) :
    (pollOutcome t.world.collector t.world.db status now false ≠ .rolledBack ∧
      OpenRowsMatch (t.world.step (.poll status now false)).db status) ↔
      (t.world.collector.resync = true → status.counted ≠ []) := by
  have h := recovered_reaches hr
  unfold World.step CollectorState.poll
  dsimp only
  by_cases hu : t.world.collector.unchanged status = true
  · have htime : t.world.collector.statusTime.isSome = true := by
      unfold CollectorState.unchanged at hu
      simp only [Bool.and_eq_true, decide_eq_true_eq] at hu
      rw [hu.1.2]
      rfl
    obtain ⟨hresync, hkeys⟩ := h.polled htime
    have ho : pollOutcome t.world.collector t.world.db status now false = .skipped := by
      rw [pollOutcome, if_pos hu]
    have htracks := h.tracks
    rw [hresync] at htracks
    rw [← hwell.2 hu] at hkeys
    rw [ho]
    exact iff_of_true ⟨by simp, htracks.openRowsMatch hkeys⟩ (by simp [hresync])
  · rcases h.tracks.pollTx now hwell.1 with ⟨hresync, hempty, htx⟩ | ⟨hne, a, d, htx, htracks, hkeys⟩
    · have ho : pollOutcome t.world.collector t.world.db status now false = .rolledBack := by
        simp [pollOutcome, hu, htx]
      exact iff_of_false (fun hp => hp.1 ho) (fun hp => hp hresync hempty)
    · have ho : pollOutcome t.world.collector t.world.db status now false = .committed a d := by
        simp [pollOutcome, hu, htx]
      rw [ho]
      exact iff_of_true ⟨by simp, htracks.openRowsMatch hkeys⟩ hne

def bob : Client :=
  ⟨"bob".toList, "udp4:203.0.113.9:1194".toList, "10.8.0.3".toList, (10, 20), 500, [], 1, []⟩

def bobOnline (time : Nat) : Status := ⟨time, [bob], true⟩

def nobodyOnline (time : Nat) : Status := ⟨time, [], true⟩

def failedWrite : List Turn := [.poll (bobOnline 1000) 1000 false, .poll (bobOnline 1010) 1010 true]

def afterFailedWrite : Traced := failedWrite.foldl Traced.step Traced.init

theorem afterFailedWrite_run :
    runSteps (fun t turn => some (Traced.step t turn)) Traced.init failedWrite =
      some afterFailedWrite := rfl

-- The reconciling UPDATE has an empty list, so the poll never commits.
theorem collector_stuck_while_nobody_online :
    ¬∀ (t : Traced) (status : Status) (now : Nat),
      Reaches (fun t turn => some (Traced.step t turn)) WellFormed Traced.init t →
      WellFormed t (.poll status now false) →
      pollOutcome t.world.collector t.world.db status now false ≠ .rolledBack ∧
        OpenRowsMatch (t.world.step (.poll status now false)).db status := by
  intro h
  refine (h afterFailedWrite (nobodyOnline 1020) 1020
    (Reaches.of_runSteps afterFailedWrite_run (by decide)) (by decide)).1 ?_
  rfl

-- A restart whose `close_stale_sessions` fails: Bob's row stays open after a poll
-- that lists nobody.
theorem failed_restart_leaves_row_open :
    let t := [Turn.poll (bobOnline 1000) 1000 false, .restart false].foldl Traced.step Traced.init
    ¬OpenRowsMatch (t.world.step (.poll (nobodyOnline 1010) 1010 false)).db
      (nobodyOnline 1010) := by
  rintro t ⟨_, h⟩
  have hrow : ∃ row, (t.world.step (.poll (nobodyOnline 1010) 1010 false)).db.sessions.get? 1 =
      some row ∧ row.disconnectedAt = none := ⟨_, rfl, rfl⟩
  obtain ⟨row, hrow, hopen⟩ := hrow
  obtain ⟨cl, hcl, _⟩ := h 1 row hrow hopen
  cases hcl

theorem bob_recovered_after_failed_write :
    (pollOutcome afterFailedWrite.world.collector afterFailedWrite.world.db (bobOnline 1020) 1020
        false ≠ .rolledBack ∧
      OpenRowsMatch (afterFailedWrite.world.step (.poll (bobOnline 1020) 1020 false)).db
        (bobOnline 1020)) ↔
      (afterFailedWrite.world.collector.resync = true → (bobOnline 1020).counted ≠ []) :=
  poll_recovers_iff
    (Reaches.of_runSteps afterFailedWrite_run
      ⟨⟨by decide, trivial⟩, ⟨by decide, trivial⟩, trivial⟩) (by decide)

end Runs

end OpenvpnServer.Collector
