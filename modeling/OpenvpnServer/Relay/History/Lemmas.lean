import OpenvpnServer.Relay.History

namespace OpenvpnServer.Relay

open OpenvpnServer.Lib OpenvpnServer.Lib.Ipaddress

variable {now : Int} {row session : RelaySession} {table other : Table} {id name : Text}
  {rows : List RelaySession}

section Answer

open ActivityLog

theorem ActivityLog.instanceName_sessionLocked (a : ActivityLog) (order : List Text) (f : FlowLog)
    (now : Int) : (a.sessionLocked order f now).1.instanceName = a.instanceName := by
  unfold sessionLocked
  split
  · rfl
  · split
    · rfl
    · cases a.currentSession f now with
      | some row => rfl
      | none =>
          obtain ⟨_, _, hevict, -⟩ := evictSession_frame a order
          change (a.evictSession order).instanceName = a.instanceName
          rw [hevict]

theorem ActivityLog.instanceName_step {a b : ActivityLog} {label : FlowStep}
    (h : a.step label = some b) : b.instanceName = a.instanceName := by
  have hupdate {id : Nat} {change : FlowLog → FlowLog} (h : a.update id change = some b) :
      b.instanceName = a.instanceName := by
    obtain ⟨f, -, rfl⟩ := Option.map_eq_some_iff.mp h
    rfl
  cases label with
  | begin now =>
      cases h
      rfl
  | connected id orders now =>
      obtain ⟨f, -, rfl⟩ := Option.map_eq_some_iff.mp h
      exact instanceName_sessionLocked a _ _ _
  | settle id orders now =>
      obtain ⟨f, -, rfl⟩ := Option.map_eq_some_iff.mp h
      exact instanceName_sessionLocked a _ _ _
  | identify id client guest identity => exact hupdate h
  | describe id protocol target counted => exact hupdate h
  | reject id status reason => exact hupdate h
  | reason id reason => exact hupdate h
  | add id up down => exact hupdate h
  | finish id => exact hupdate h

theorem lastSeen_foldl_addToSession {events : List FlowEvent}
    {d : Dict Text RelaySession} {k : Text}
    (h : (events.foldl (fun rows e => rows.modify e.sessionID (addToSession now e)) d).get? k =
      some row) (hlive : ∃ e ∈ events, e.sessionID = k) : row.lastSeen = now := by
  induction events using List.reverseRecOn generalizing row with
  | nil =>
      obtain ⟨e, hmem, -⟩ := hlive
      exact absurd hmem List.not_mem_nil
  | append_singleton events last ih =>
      rw [List.foldl_append, List.foldl_cons, List.foldl_nil] at h
      rcases Dict.get?_modify_cases h with ⟨-, before, -, rfl⟩ | ⟨hne, hbefore⟩
      · rfl
      · obtain ⟨e, hmem, hid⟩ := hlive
        rcases List.mem_append.mp hmem with hearlier | hlast
        · exact ih hbefore ⟨e, hearlier, hid⟩
        · rw [List.mem_singleton.mp hlast] at hid
          exact absurd hid.symm hne

theorem closeVisit_lastSeen (now : Int) (row : RelaySession) :
    (closeVisit now row).lastSeen = row.lastSeen := by
  unfold closeVisit
  split
  · rfl
  · split <;> rfl

variable {t : Traced}

def answerRows (a : ActivityLog) (now : Int) : Dict Text RelaySession :=
  (a.liveEvents []).foldl (fun rows e => rows.modify e.sessionID (addToSession now e))
    ((a.sessions.values.filter fun row => selects [] row.client).foldl
      (fun rows row => rows.set row.id row) .empty)

theorem answer_eq (a : ActivityLog) (now : Int) :
    (a.status [] now).sessions =
      ((answerRows a now).values.map (closeVisit now)).insertionSort
        fun i j => j.startedAt ≤ i.startedAt := rfl

theorem Accounted.answerRows_id (h : Accounted t) {k : Text}
    (hrow : (answerRows t.log now).get? k = some row) :
    row.id = k ∧ ∃ n, k = sessionID t.log.instanceName n := by
  obtain ⟨base, hbase, hid, -, -⟩ := get?_foldl_addToSession hrow
  obtain ⟨hmem, hkey⟩ : base ∈ t.log.sessions.values.filter (fun row => selects [] row.client) ∧
      base.id = k := (Dict.get?_foldl_set hbase).resolve_right (fun hnone => nomatch hnone)
  obtain ⟨session, hsession⟩ := (Dict.mem_values_iff _).mp (List.mem_filter.mp hmem).1
  obtain ⟨hsame, n, -, hn⟩ := h.sessions.ids session base hsession
  exact ⟨hid.trans hkey, n, by rw [← hkey, hsame, hn]⟩

theorem Accounted.nodup_answer (h : Accounted t) (now : Int) :
    ((t.log.status [] now).sessions.map RelaySession.id).Nodup := by
  have hids : ((answerRows t.log now).values.map (closeVisit now)).map RelaySession.id =
      (answerRows t.log now).keys := by
    unfold Dict.values Dict.keys
    rw [List.map_map, List.map_map]
    refine List.map_congr_left fun entry hentry => ?_
    rw [Function.comp_apply, Function.comp_apply, (closeVisit_spec now entry.2).1]
    exact (h.answerRows_id ((Dict.get?_eq_some_iff _).mpr hentry)).1
  rw [answer_eq, ((List.perm_insertionSort _ _).map _).nodup_iff, hids]
  exact (answerRows t.log now).nodup

theorem Accounted.answer_id (h : Accounted t)
    (hrow : row ∈ (t.log.status [] now).sessions) :
    ∃ n, row.id = sessionID t.log.instanceName n := by
  rw [answer_eq, List.mem_insertionSort] at hrow
  obtain ⟨listed, hlisted, rfl⟩ := List.mem_map.mp hrow
  obtain ⟨k, hk⟩ := (Dict.mem_values_iff _).mp hlisted
  obtain ⟨hid, n, hn⟩ := h.answerRows_id hk
  exact ⟨n, by rw [(closeVisit_spec now listed).1, hid, hn]⟩

theorem Accounted.answer_active (h : Accounted t)
    (hrow : row ∈ (t.log.status [] now).sessions) :
    0 ≤ row.active ∧ (row.active ≠ 0 → row.lastSeen = now) := by
  have hexact : row.active = _ := (h.sessions_exact (.inl rfl) now hrow).active
  refine ⟨by rw [hexact]; exact Int.natCast_nonneg _, fun hne => ?_⟩
  -- some flow of the session is live, so its event is among the live ones
  have hsome : (flowsWhere t.log.flows (visits t.log.flows row.id) FlowLog.live).Nonempty := by
    rw [Finset.nonempty_iff_ne_empty]
    intro hempty
    rw [hexact, hempty] at hne
    exact hne rfl
  obtain ⟨id, hid⟩ := hsome
  obtain ⟨hvisit, hlive⟩ := Finset.mem_filter.mp hid
  obtain ⟨f, hf, hsession⟩ := mem_visits.mp hvisit
  rw [hf, Option.any_some] at hlive
  have hevent : f.snapshot ∈ t.log.liveEvents [] := by
    refine List.mem_map.mpr ⟨f, List.mem_filter.mpr ⟨?_, rfl⟩, rfl⟩
    exact List.mem_filterMap.mpr ⟨id, (h.flows.active id).mpr ⟨f, hf, hlive⟩, hf⟩
  rw [answer_eq, List.mem_insertionSort] at hrow
  obtain ⟨listed, hlisted, rfl⟩ := List.mem_map.mp hrow
  obtain ⟨k, hk⟩ := (Dict.mem_values_iff _).mp hlisted
  rw [closeVisit_lastSeen]
  refine lastSeen_foldl_addToSession hk ⟨f.snapshot, hevent, ?_⟩
  rw [(closeVisit_spec now listed).1, (h.answerRows_id hk).1] at hsession
  exact hsession

end Answer

namespace History

section Table

def Row.count (row : Row) : Counter → Int
  | .active => row.active
  | .accepted => row.accepted
  | .denied => row.denied
  | .failed => row.failed
  | .bytesUp => row.bytesUp
  | .bytesDown => row.bytesDown
  | .uncounted => row.uncounted

structure Shows (row : Row) (session : RelaySession) : Prop where
  count : ∀ c, row.count c = session.count c
  lastSeen : session.lastSeen ≤ row.lastSeen

-- When a row without active flows was sampled last is of no use to anyone.
def Row.forget (row : Row) : Row :=
  { row with sampledAt := if row.active = 0 then 0 else row.sampledAt }

def essence (table : Table) : Table := table.mapValues fun _ row => row.forget

theorem values_essence (table : Table) : (essence table).values = table.values.map Row.forget := by
  unfold essence Dict.mapValues Dict.values
  rw [List.map_map, List.map_map]
  rfl

theorem get?_essence (table : Table) (id : Text) :
    (essence table).get? id = (table.get? id).map Row.forget := Dict.get?_mapValues _ _ _

theorem Shows.of_forget {row other : Row} (h : Shows row session)
    (hsame : row.forget = other.forget) : Shows other session := by
  have hcount (c : Counter) : other.count c = row.count c := by
    have hforget := congrArg (Row.count · c) hsame
    cases c <;> exact hforget.symm
  have hseen : row.forget.lastSeen = other.forget.lastSeen := congrArg Row.lastSeen hsame
  change row.lastSeen = other.lastSeen at hseen
  exact ⟨fun c => (hcount c).trans (h.count c), hseen ▸ h.lastSeen⟩

theorem previousGroup_essence (table : Table) (row : RelaySession) :
    previousGroup (essence table) row = previousGroup table row := by
  unfold previousGroup
  dsimp only
  rw [values_essence, List.filter_map, List.map_map]
  rfl

def recordedRow (now : Int) (table : Table) (row : RelaySession) : Row :=
  match table.get? row.id with
  | some old => old.merge now row
  | none => newRow now ((previousGroup table row).getD row.id) row

theorem recordRow_eq (now : Int) (table : Table) (h : complete row = true) :
    recordRow now table row = table.set row.id (recordedRow now table row) := by
  rw [recordRow, if_neg (by simp [h])]
  rfl

theorem recordedRow_essence (now : Int) (table : Table) (row : RelaySession) :
    recordedRow now (essence table) row = recordedRow now table row := by
  unfold recordedRow
  rw [get?_essence, previousGroup_essence]
  cases table.get? row.id <;> rfl

theorem essence_recordRow (h : essence table = essence other) (now : Int)
    (row : RelaySession) :
    essence (recordRow now table row) = essence (recordRow now other row) := by
  cases hrow : complete row with
  | false => simpa [recordRow, hrow] using h
  | true =>
      rw [recordRow_eq now table hrow, recordRow_eq now other hrow, essence, essence,
        Dict.mapValues_set, Dict.mapValues_set]
      change (essence table).set _ _ = (essence other).set _ _
      rw [← recordedRow_essence now table, ← recordedRow_essence now other, h]

theorem essence_recordRow_shown {row : Row}
    (hrow : table.get? session.id = some row) (hshows : Shows row session)
    (hidle : session.active = 0) (now : Int) :
    essence (recordRow now table session) = essence table := by
  cases hkept : complete session with
  | false => simp [recordRow, hkept]
  | true =>
      have hactive : row.active = 0 := (hshows.count .active).trans hidle
      have hcount (c : Counter) : max (row.count c) (session.count c) = row.count c := by
        rw [hshows.count, max_self]
      have hmerge : (row.merge now session).forget = row.forget := by
        have h1 := hcount .accepted
        have h2 := hcount .denied
        have h3 := hcount .failed
        have h4 := hcount .bytesUp
        have h5 := hcount .bytesDown
        have h6 := hcount .uncounted
        simp only [Row.count, RelaySession.count] at h1 h2 h3 h4 h5 h6
        simp [Row.forget, Row.merge, h1, h2, h3, h4, h5, h6, hactive, hidle,
          max_eq_left hshows.lastSeen]
      have hget : (essence table).get? session.id = some row.forget := by
        rw [get?_essence, hrow, Option.map_some]
      have hvalue : recordedRow now table session = row.merge now session := by
        rw [recordedRow, hrow]
      rw [recordRow_eq now table hkept, hvalue, essence, Dict.mapValues_set, hmerge]
      change (essence table).set session.id row.forget = essence table
      rw [← Dict.modify_eq_set _ (fun _ => row.forget) hget, Dict.modify_eq_self _ hget rfl]

theorem get?_recordRow_ne
    (h : id ≠ row.id) : (recordRow now table row).get? id = table.get? id := by
  unfold recordRow
  split
  · rfl
  · exact Dict.get?_set_ne _ _ h

theorem get?_foldl_recordRow_ne
    (h : id ∉ rows.map RelaySession.id) :
    (rows.foldl (recordRow now) table).get? id = table.get? id := by
  induction rows generalizing table with
  | nil => rfl
  | cons row rest ih =>
      rw [List.map_cons, List.mem_cons, not_or] at h
      rw [List.foldl_cons, ih h.2, get?_recordRow_ne h.1]

theorem get?_foldl_recordRow {now : Int} {rows : List RelaySession} {table : Table}
    {session : RelaySession} (hnodup : (rows.map RelaySession.id).Nodup) (hmem : session ∈ rows)
    (hkept : complete session = true) :
    ∃ grp, (rows.foldl (recordRow now) table).get? session.id =
      some ((table.get? session.id).elim (newRow now grp session) (·.merge now session)) := by
  induction rows generalizing table with
  | nil => exact absurd hmem List.not_mem_nil
  | cons row rest ih =>
      rw [List.map_cons, List.nodup_cons] at hnodup
      rcases List.mem_cons.mp hmem with rfl | hrest
      · refine ⟨(previousGroup table session).getD session.id, ?_⟩
        rw [List.foldl_cons, get?_foldl_recordRow_ne hnodup.1, recordRow_eq now table hkept,
          Dict.get?_set_self, recordedRow]
        cases table.get? session.id <;> rfl
      · have hne : session.id ≠ row.id := fun hsame =>
          hnodup.1 (hsame ▸ List.mem_map_of_mem hrest)
        obtain ⟨grp, hgrp⟩ := @ih (recordRow now table row) hnodup.2 hrest
        rw [get?_recordRow_ne hne] at hgrp
        exact ⟨grp, hgrp⟩

theorem get?_foldl_recordRow_cases
    {row : Row} (h : (rows.foldl (recordRow now) table).get? id = some row) :
    table.get? id = some row ∨ ∃ session ∈ rows, complete session = true ∧ session.id = id := by
  induction rows generalizing table with
  | nil => exact .inl h
  | cons session rest ih =>
      rcases ih h with hrow | ⟨later, hlater, hrest⟩
      · by_cases hkept : complete session = true
        · by_cases hid : session.id = id
          · exact .inr ⟨session, List.mem_cons_self, hkept, hid⟩
          · rw [get?_recordRow_ne (Ne.symm hid)] at hrow
            exact .inl hrow
        · rw [recordRow, if_pos (Bool.eq_false_iff.mpr hkept)] at hrow
          exact .inl hrow
      · exact .inr ⟨later, List.mem_cons_of_mem _ hlater, hrest⟩

theorem essence_foldl_filter
    (keep : RelaySession → Bool) (hsame : essence table = essence other)
    (hnodup : (rows.map RelaySession.id).Nodup)
    (hshown : ∀ session ∈ rows, keep session = false → complete session = true →
      session.active = 0 ∧ ∃ row, other.get? session.id = some row ∧ Shows row session) :
    essence ((rows.filter keep).foldl (recordRow now) table) =
      essence (rows.foldl (recordRow now) other) := by
  induction rows generalizing table other with
  | nil => exact hsame
  | cons session rest ih =>
      rw [List.map_cons, List.nodup_cons] at hnodup
      have hrest : ∀ later ∈ rest, keep later = false → complete later = true →
          later.active = 0 ∧ ∃ row, (recordRow now other session).get? later.id = some row ∧
            Shows row later := by
        intro later hlater hleft hkept
        have hne : later.id ≠ session.id := fun he => hnodup.1 (he ▸ List.mem_map_of_mem hlater)
        rw [get?_recordRow_ne hne]
        exact hshown later (List.mem_cons_of_mem _ hlater) hleft hkept
      rw [List.foldl_cons]
      by_cases hkeep : keep session = true
      · rw [List.filter_cons_of_pos hkeep, List.foldl_cons]
        exact ih (essence_recordRow hsame now session) hnodup.2 hrest
      · rw [List.filter_cons_of_neg hkeep]
        refine ih ?_ hnodup.2 hrest
        cases hkept : complete session with
        | false => simpa [recordRow, hkept] using hsame
        | true =>
            obtain ⟨hidle, row, hrow, hshows⟩ := hshown session List.mem_cons_self
              (Bool.eq_false_iff.mpr hkeep) hkept
            rw [essence_recordRow_shown hrow hshows hidle, hsame]

end Table

section Statements

-- A name as `rand.Text` makes it.
def IsInstance (name : Text) : Prop := name ≠ [] ∧ ∀ c ∈ name, c.isAlphanum = true

instance (name : Text) : Decidable (IsInstance name) :=
  have := List.decidableBAll (fun c : Char => c.isAlphanum = true) name
  inferInstanceAs (Decidable (name ≠ [] ∧ ∀ c ∈ name, c.isAlphanum = true))

def OfInstance (name id : Text) : Prop := (cutFirst ':' id).map Prod.fst = some name

theorem IsInstance.plain (h : IsInstance name) :
    ':' ∉ name ∧ ∀ c ∈ name ++ [':'], c ≠ '%' ∧ c ≠ '\\' ∧ c ≠ '_' := by
  have hcolon : ':' ∉ name := fun hmem => absurd (h.2 ':' hmem) (by decide)
  refine ⟨hcolon, fun c hc => ?_⟩
  rcases List.mem_append.mp hc with hname | hsep
  · have halnum := h.2 c hname
    refine ⟨?_, ?_, ?_⟩
    all_goals
      rintro rfl
      exact absurd halnum (by decide)
  · rw [List.mem_singleton.mp hsep]
    decide

theorem ofInstance_sessionID (h : IsInstance name) (other : Text) (n : Nat) :
    OfInstance other (ActivityLog.sessionID name n) ↔ name = other := by
  unfold OfInstance ActivityLog.sessionID
  rw [cutFirst_append_cons h.plain.1, Option.map_some, Option.some.injEq]

theorem like_sessionID {other : Text} (h : IsInstance name) (hother : IsInstance other)
    (n : Nat) :
    like (other ++ [':', '%']) (ActivityLog.sessionID name n) = true ↔ name = other := by
  have hpattern : other ++ [':', '%'] = (other ++ [':']) ++ ['%'] := by
    rw [List.append_assoc, List.cons_append, List.nil_append]
  rw [hpattern, like_starting hother.plain.2, List.isPrefixOf_iff_prefix]
  constructor
  · rintro ⟨rest, hrest⟩
    have hcut := cutFirst_append_cons h.plain.1 (decimal n)
    rw [List.append_assoc, List.singleton_append] at hrest
    rw [← ActivityLog.sessionID, ← hrest, cutFirst_append_cons hother.plain.1] at hcut
    exact (Prod.mk.inj (Option.some.inj hcut)).1.symm
  · rintro rfl
    exact ⟨decimal n, by rw [ActivityLog.sessionID, List.append_assoc, List.singleton_append]⟩

def endOther (name id : Text) (row : Row) : Row :=
  if 0 < row.active ∧ like (name ++ [':', '%']) id = false then { row with active := 0 } else row

variable {name : Text} {table : Table}

theorem endOthers_eq (h : IsInstance name) (table : Table) :
    endOthers name table = table.mapValues (endOther name) := by
  rw [endOthers, if_neg h.1]
  rfl

theorem endOther_forget (name id : Text) (row : Row) :
    (endOther name id row.forget).forget = (endOther name id row).forget := by
  unfold endOther
  by_cases hother : 0 < row.active ∧ like (name ++ [':', '%']) id = false
  · rw [if_pos hother, if_pos (show 0 < row.forget.active ∧ _ from hother)]
    simp [Row.forget]
  · rw [if_neg hother, if_neg (show ¬(0 < row.forget.active ∧ _) from hother)]
    by_cases hidle : row.active = 0
    · simp [Row.forget, hidle]
    · simp [Row.forget, hidle]

theorem essence_endOthers (h : IsInstance name)
    (hsame : essence table = essence other) :
    essence (endOthers name table) = essence (endOthers name other) := by
  have hessence (t : Table) : essence (endOthers name (essence t)) = essence (endOthers name t) := by
    rw [endOthers_eq h, endOthers_eq h]
    simp only [essence, Dict.mapValues, List.map_map, Function.comp_def, endOther_forget]
  rw [← hessence table, ← hessence other, hsame]

theorem essence_dropExpired (now : Int) (hsame : essence table = essence other) :
    essence (dropExpired now table) = essence (dropExpired now other) := by
  have hessence (t : Table) : essence (dropExpired now t) = dropExpired now (essence t) :=
    (Dict.filter_mapValues t (fun _ row => now - retention ≤ row.lastSeen)
      (fun _ row => row.forget) fun _ _ => rfl).symm
  rw [hessence, hessence, hsame]

theorem get?_endOthers_own (h : IsInstance name) (table : Table) (n : Nat) :
    (endOthers name table).get? (ActivityLog.sessionID name n) =
      table.get? (ActivityLog.sessionID name n) := by
  have hlike := (like_sessionID h h n).mpr rfl
  rw [endOthers_eq h, Dict.get?_mapValues]
  cases table.get? (ActivityLog.sessionID name n) with
  | none => rfl
  | some row => simp [endOther, hlike]

theorem entries_snapshots (h : (rows.map RelaySession.id).Nodup) :
    (snapshots rows).entries = rows.map fun session => (session.id, session) := by
  unfold snapshots
  induction rows using List.reverseRecOn with
  | nil => rfl
  | append_singleton rows last ih =>
      rw [List.map_append, List.nodup_append] at h
      have hentries := ih h.1
      rw [List.foldl_append, List.foldl_cons, List.foldl_nil, Dict.entries_set_of_not_mem, hentries,
        List.map_append]
      · rfl
      · unfold Dict.keys
        rw [hentries, List.map_map]
        intro hmem
        exact h.2.2 last.id hmem last.id (by simp) rfl

theorem changed_snapshots (h : (rows.map RelaySession.id).Nodup)
    (seen : Dict Text RelaySession) :
    changed seen (snapshots rows) =
      rows.filter fun session => seen.get? session.id ≠ some session := by
  rw [changed, entries_snapshots h, List.filter_map, List.map_map]
  exact List.map_id _

theorem mem_of_get?_snapshots
    (h : (snapshots rows).get? id = some session) : session ∈ rows ∧ session.id = id :=
  (Dict.get?_foldl_set h).resolve_right fun hnone => nomatch hnone

end Statements

end History

end OpenvpnServer.Relay
