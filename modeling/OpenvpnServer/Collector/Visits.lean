import OpenvpnServer.Collector.Archive

namespace OpenvpnServer.Collector

open OpenvpnServer.Lib

variable {id grp : Nat} {key : Text × Text}

section Grouping

def Session.ended (row : Session) : Nat := row.disconnectedAt.getD row.lastSeen

def visitor (row : Session) : Text × Text := (row.clientName, realIp row.realAddress)

-- (client, ip) -> (grp, end of its latest session)
abbrev Visits := Dict (Text × Text) (Nat × Nat)

-- ORDER BY connected_at, id
def older (a b : Nat × Session) : Prop :=
  a.2.connectedAt < b.2.connectedAt ∨ (a.2.connectedAt = b.2.connectedAt ∧ a.1 ≤ b.1)

instance (a b : Nat × Session) : Decidable (older a b) :=
  inferInstanceAs (Decidable (_ ∨ _))

def Database.ungrouped (db : Database) : List (Nat × Session) :=
  (db.sessions.entries.filter fun row => row.2.grp = none).insertionSort older

def visitOf (last : Visits) (row : Nat × Session) : Nat :=
  match last.get? (visitor row.2) with
  | none => row.1
  | some (grp, ended) => if row.2.connectedAt ≤ ended + mergeGap then grp else row.1

-- max(ended or 0, r["ended"])
def latestEnd (last : Visits) (row : Session) : Nat :=
  match last.get? (visitor row) with
  | none => row.ended
  | some (_, ended) => max ended row.ended

def lastStep (last : Visits) (row : Nat × Session) : Visits :=
  last.set (visitor row.2) (visitOf last row, latestEnd last row.2)

-- UPDATE vpn_sessions SET grp = ?, proto = COALESCE(proto, ?)
def Session.joined (grp : Nat) (row : Session) : Session :=
  { row with grp := some grp, proto := row.proto.or (splitAddress row.realAddress).1 }

def groupStep (state : Visits × Database) (row : Nat × Session) : Visits × Database :=
  (lastStep state.1 row, state.2.updateSession row.1 (·.joined (visitOf state.1 row)))

def Database.groupSessions (db : Database) : Database :=
  (db.ungrouped.foldl groupStep (.empty, db)).2

-- DELETE .. WHERE client_name = ?
def Database.purgeClient (db : Database) (name : Text) : Database :=
  { db with
    sessions := db.sessions.filter fun _ row => row.clientName ≠ name
    minute := db.minute.filter fun key _ => key.2 ≠ name
    hour := db.hour.filter fun key _ => key.2 ≠ name
    day := db.day.filter fun key _ => key.2 ≠ name }

end Grouping

section Assigned

variable {rows before after : List (Nat × Session)} {row : Nat × Session} {db : Database}

def lastAfter (rows : List (Nat × Session)) : Visits := rows.foldl lastStep .empty

theorem lastAfter_append (rows : List (Nat × Session)) (row : Nat × Session) :
    lastAfter (rows ++ [row]) = lastStep (lastAfter rows) row := by
  rw [lastAfter, List.foldl_append]
  rfl

theorem foldl_groupStep_fst (rows : List (Nat × Session)) (state : Visits × Database) :
    (rows.foldl groupStep state).1 = rows.foldl lastStep state.1 := by
  induction rows generalizing state with
  | nil => rfl
  | cons row rest ih => rw [List.foldl_cons, ih, List.foldl_cons, groupStep]

@[simp] theorem foldl_groupStep_nextId (rows : List (Nat × Session)) (state : Visits × Database) :
    (rows.foldl groupStep state).2.nextId = state.2.nextId := by
  induction rows generalizing state with
  | nil => rfl
  | cons row rest ih => rw [List.foldl_cons, ih, groupStep, Database.updateSession]

theorem get?_foldl_groupStep_of_not_mem (h : id ∉ rows.map Prod.fst)
    (state : Visits × Database) :
    (rows.foldl groupStep state).2.sessions.get? id = state.2.sessions.get? id := by
  induction rows generalizing state with
  | nil => rfl
  | cons row rest ih =>
      rw [List.map_cons, List.mem_cons, not_or] at h
      rw [List.foldl_cons, ih h.2, groupStep, Database.updateSession, Dict.get?_modify, if_neg h.1]

theorem get?_foldl_groupStep (hnodup : (rows.map Prod.fst).Nodup)
    (hrows : rows = before ++ row :: after) (db : Database) :
    (rows.foldl groupStep (.empty, db)).2.sessions.get? row.1 =
      (db.sessions.get? row.1).map (·.joined (visitOf (lastAfter before) row)) := by
  subst hrows
  rw [List.map_append, List.map_cons, List.nodup_append, List.nodup_cons] at hnodup
  obtain ⟨-, ⟨hafter, -⟩, hdisjoint⟩ := hnodup
  have hbefore : row.1 ∉ before.map Prod.fst :=
    fun h => hdisjoint _ h _ List.mem_cons_self rfl
  rw [List.foldl_append, List.foldl_cons, get?_foldl_groupStep_of_not_mem hafter, groupStep,
    foldl_groupStep_fst, Database.updateSession, Dict.get?_modify, if_pos rfl,
    get?_foldl_groupStep_of_not_mem hbefore]
  rfl

theorem ne_of_lastAfter_eq_none (h : (lastAfter rows).get? key = none)
    (hrow : row ∈ rows) : visitor row.2 ≠ key := by
  induction rows using List.reverseRecOn with
  | nil => cases hrow
  | append_singleton rest last ih =>
      rw [lastAfter_append, lastStep, Dict.get?_set] at h
      split at h
      · cases h
      · rename_i hne
        rcases List.mem_append.mp hrow with hrow | hrow
        · exact ih h hrow
        · rw [List.mem_singleton.mp hrow]
          exact Ne.symm hne

theorem lastAfter_visit {ended : Nat}
    (h : (lastAfter rows).get? key = some (grp, ended)) :
    ∃ before row after, rows = before ++ row :: after ∧ visitor row.2 = key ∧
      (∀ other ∈ after, visitor other.2 ≠ key) ∧ grp = visitOf (lastAfter before) row := by
  induction rows using List.reverseRecOn generalizing grp ended with
  | nil => cases h
  | append_singleton rest row ih =>
      rw [lastAfter_append] at h
      rcases Dict.get?_set_cases h with ⟨rfl, hvalue⟩ | ⟨hne, hold⟩
      · exact ⟨rest, row, [], rfl, rfl, by simp, (Prod.mk.inj hvalue).1⟩
      · obtain ⟨before, r, after, hrest, hr, hafter, hgrp⟩ := ih hold
        refine ⟨before, r, after ++ [row], ?_, hr, ?_, hgrp⟩
        · rw [hrest, List.append_assoc, List.cons_append]
        · intro other hother
          rcases List.mem_append.mp hother with hother | hother
          · exact hafter other hother
          · rw [List.mem_singleton.mp hother]
            exact Ne.symm hne

theorem lastAfter_ended {ended : Nat}
    (h : (lastAfter rows).get? key = some (grp, ended)) (time : Nat) :
    time ≤ ended ↔ ∃ row ∈ rows, visitor row.2 = key ∧ time ≤ row.2.ended := by
  induction rows using List.reverseRecOn generalizing grp ended with
  | nil => cases h
  | append_singleton rest row ih =>
      simp only [List.mem_append, List.mem_singleton, or_and_right, exists_or, exists_eq_left]
      rw [lastAfter_append] at h
      rcases Dict.get?_set_cases h with ⟨rfl, hvalue⟩ | ⟨hne, hold⟩
      · rw [(Prod.mk.inj hvalue).2, latestEnd]
        cases hlast : (lastAfter rest).get? (visitor row.2) with
        | none =>
            rw [eq_self_iff_true, true_and, or_iff_right]
            rintro ⟨other, hother, hkey, -⟩
            exact ne_of_lastAfter_eq_none hlast hother hkey
        | some entry =>
            rw [eq_self_iff_true, true_and, ← ih hlast]
            exact le_max_iff
      · rw [ih hold, or_iff_left]
        exact fun hrow => hne hrow.1.symm

theorem visitOf_head (hrow : rows = before ++ row :: after) :
    ∃ front first back, rows = front ++ first :: back ∧ first.1 = visitOf (lastAfter before) row ∧
      visitOf (lastAfter front) first = first.1 ∧ visitor first.2 = visitor row.2 := by
  induction hn : before.length using Nat.strong_induction_on generalizing before row after with
  | _ n ih =>
      cases hlast : (lastAfter before).get? (visitor row.2) with
      | none =>
          have hown : visitOf (lastAfter before) row = row.1 := by
            rw [visitOf, hlast]
          exact ⟨before, row, after, hrow, hown.symm, hown, rfl⟩
      | some entry =>
          obtain ⟨grp, ended⟩ := entry
          by_cases hgap : row.2.connectedAt ≤ ended + mergeGap
          · have hjoined : visitOf (lastAfter before) row = grp := by
              rw [visitOf, hlast]
              exact if_pos hgap
            obtain ⟨front, prev, between, hbefore, hkey, -, hgrp⟩ := lastAfter_visit hlast
            have hshorter : front.length < n := by
              rw [← hn, hbefore, List.length_append, List.length_cons]
              omega
            have hrows : rows = front ++ prev :: (between ++ row :: after) := by
              rw [hrow, hbefore, List.append_assoc, List.cons_append]
            obtain ⟨f, first, b, hfirst, hid, hhead, hvisitor⟩ := ih _ hshorter hrows rfl
            exact ⟨f, first, b, hfirst, by rw [hid, hjoined, hgrp], hhead, hvisitor.trans hkey⟩
          · have hown : visitOf (lastAfter before) row = row.1 := by
              rw [visitOf, hlast]
              exact if_neg hgap
            exact ⟨before, row, after, hrow, hown.symm, hown, rfl⟩

end Assigned

section Sound

variable {db : Database}

-- A visit bears the id of a row that is part of it and of the same visitor.
structure VisitsSound (db : Database) : Prop where
  below : ∀ id row, db.sessions.get? id = some row → id < db.nextId
  first : ∀ id row grp, db.sessions.get? id = some row → row.grp = some grp →
    ∃ first, db.sessions.get? grp = some first ∧ first.grp = some grp ∧
      visitor first = visitor row

theorem sessionGroup_eq_some {name address : Text} {connectedAt : Nat}
    (h : db.sessionGroup name address connectedAt = some grp) :
    ∃ id row, db.sessions.get? id = some row ∧ row.grp = some grp ∧
      visitor row = (name, realIp address) := by
  unfold Database.sessionGroup at h
  split at h
  · cases h
  · rename_i id row hfound
    split at h
    · have hmem := List.mem_of_mem_take (List.mem_of_find?_eq_some hfound)
      rw [List.mem_insertionSort, List.mem_filter] at hmem
      have hip := List.find?_some hfound
      simp only [decide_eq_true_eq] at hip hmem
      exact ⟨id, row, db.sessions.get?_eq_some_iff.mpr hmem.1, h, Prod.ext hmem.2 hip⟩
    · cases h

theorem visitsSound_insertSession (h : VisitsSound db) (row : Session) :
    VisitsSound (db.insertSession row).2 := by
  have hkept (id : Nat) (r : Session) (hr : db.sessions.get? id = some r) :
      (db.insertSession row).2.sessions.get? id = some r := by
    rw [Database.insertSession, Dict.get?_set_ne _ _ (h.below id r hr).ne]
    exact hr
  constructor
  · intro id r hr
    rcases Dict.get?_set_cases hr with ⟨rfl, -⟩ | ⟨-, hr⟩
    · exact Nat.lt_succ_self _
    · exact Nat.lt_succ_of_lt (h.below id r hr)
  · intro id r grp hr hgrp
    rcases Dict.get?_set_cases hr with ⟨rfl, rfl⟩ | ⟨-, hr⟩
    · cases hgroup : db.sessionGroup row.clientName row.realAddress row.connectedAt with
      | none =>
          rw [hgroup, Option.getD_none, Option.some.injEq] at hgrp
          subst hgrp
          refine ⟨_, hr, ?_, rfl⟩
          rw [hgroup, Option.getD_none]
      | some other =>
          rw [hgroup, Option.getD_some, Option.some.injEq] at hgrp
          subst hgrp
          obtain ⟨prev, old, hold, hother, hvisitor⟩ := sessionGroup_eq_some hgroup
          obtain ⟨first, hfirst, hown, hsame⟩ := h.first prev old other hold hother
          exact ⟨first, hkept _ _ hfirst, hown, hsame.trans hvisitor⟩
    · obtain ⟨first, hfirst, hown, hsame⟩ := h.first id r grp hr hgrp
      exact ⟨first, hkept _ _ hfirst, hown, hsame⟩

theorem mem_ungrouped (db : Database) (row : Nat × Session) :
    row ∈ db.ungrouped ↔ db.sessions.get? row.1 = some row.2 ∧ row.2.grp = none := by
  rw [Database.ungrouped, List.mem_insertionSort, List.mem_filter, Dict.get?_eq_some_iff,
    decide_eq_true_eq]

theorem nodup_ids_ungrouped (db : Database) : (db.ungrouped.map Prod.fst).Nodup := by
  have hperm := (List.perm_insertionSort older
    (db.sessions.entries.filter fun row => row.2.grp = none)).map Prod.fst
  rw [Database.ungrouped, hperm.nodup_iff]
  exact db.sessions.nodup.sublist (List.filter_sublist.map Prod.fst)

theorem get?_groupSessions {row : Session}
    (h : db.groupSessions.sessions.get? id = some row) :
    (db.sessions.get? id = some row ∧ row.grp ≠ none) ∨
      ∃ before old after, db.ungrouped = before ++ (id, old) :: after ∧
        row = old.joined (visitOf (lastAfter before) (id, old)) := by
  by_cases hid : id ∈ db.ungrouped.map Prod.fst
  · obtain ⟨⟨_, old⟩, hmem, rfl⟩ := List.mem_map.mp hid
    obtain ⟨before, after, hsplit⟩ := List.append_of_mem hmem
    refine .inr ⟨before, old, after, hsplit, ?_⟩
    have hwritten := get?_foldl_groupStep (nodup_ids_ungrouped db) hsplit db
    rw [((mem_ungrouped db _).mp hmem).1, Option.map_some] at hwritten
    exact Option.some.inj (h.symm.trans hwritten)
  · refine .inl ?_
    rw [Database.groupSessions, get?_foldl_groupStep_of_not_mem hid] at h
    exact ⟨h, fun hnull => hid (List.mem_map_of_mem ((mem_ungrouped db (id, row)).mpr ⟨h, hnull⟩))⟩

theorem get?_groupSessions_of_grouped {row : Session}
    (h : db.sessions.get? id = some row) (hgrp : row.grp ≠ none) :
    db.groupSessions.sessions.get? id = some row := by
  rw [Database.groupSessions, get?_foldl_groupStep_of_not_mem]
  · exact h
  · intro hid
    obtain ⟨⟨_, old⟩, hmem, rfl⟩ := List.mem_map.mp hid
    obtain ⟨hold, hnull⟩ := (mem_ungrouped db _).mp hmem
    rw [h, Option.some.injEq] at hold
    exact hgrp (hold ▸ hnull)

theorem visitsSound_groupSessions (h : VisitsSound db) : VisitsSound db.groupSessions := by
  constructor
  · intro id row hrow
    rw [Database.groupSessions, foldl_groupStep_nextId]
    rcases get?_groupSessions hrow with ⟨hold, -⟩ | ⟨before, old, after, hsplit, -⟩
    · exact h.below id row hold
    · have hmem : (id, old) ∈ db.ungrouped := hsplit ▸ by simp
      exact h.below id old ((mem_ungrouped db _).mp hmem).1
  · intro id row grp hrow hgrp
    rcases get?_groupSessions hrow with ⟨hold, -⟩ | ⟨before, old, after, hsplit, rfl⟩
    · obtain ⟨first, hfirst, hown, hsame⟩ := h.first id row grp hold hgrp
      refine ⟨first, get?_groupSessions_of_grouped hfirst ?_, hown, hsame⟩
      rw [hown]
      exact Option.some_ne_none grp
    · obtain ⟨front, first, back, hfirst, hid, hhead, hvisitor⟩ := visitOf_head hsplit
      have hvisit : visitOf (lastAfter before) (id, old) = grp := Option.some.inj hgrp
      rw [hvisit] at hid
      have hmem : first ∈ db.ungrouped := hfirst ▸ by simp
      have hwritten := get?_foldl_groupStep (nodup_ids_ungrouped db) hfirst db
      rw [((mem_ungrouped db _).mp hmem).1, Option.map_some, hhead, hid] at hwritten
      exact ⟨_, hwritten, rfl, hvisitor⟩

theorem visitsSound_archiveClientHistory (h : VisitsSound db) {name : Text} {now : Nat}
    {db' : Database} (harchive : db.archiveClientHistory name now = some db') :
    VisitsSound db' := by
  unfold Database.archiveClientHistory at harchive
  split at harchive
  · simp only [Option.bind_eq_bind, Option.bind_eq_some_iff, Option.some.injEq] at harchive
    obtain ⟨minute, -, hour, -, day, -, rfl⟩ := harchive
    constructor
    · intro id row hrow
      rw [Dict.get?_mapValues] at hrow
      obtain ⟨old, hold, rfl⟩ := Option.map_eq_some_iff.mp hrow
      exact h.below id old hold
    · intro id row grp hrow hgrp
      rw [Dict.get?_mapValues] at hrow
      obtain ⟨old, hold, rfl⟩ := Option.map_eq_some_iff.mp hrow
      obtain ⟨first, hfirst, hown, hsame⟩ := h.first id old grp hold hgrp
      refine ⟨{ first with clientName := renamed name (archiveKey name now) first.clientName },
        ?_, hown, ?_⟩
      · rw [Dict.get?_mapValues, hfirst, Option.map_some]
      simp only [visitor, Prod.mk.injEq] at hsame ⊢
      rw [hsame.1]
      exact ⟨rfl, hsame.2⟩
  · cases harchive
    exact h

theorem visitsSound_purgeClient (h : VisitsSound db) (name : Text) :
    VisitsSound (db.purgeClient name) := by
  have hrows (id : Nat) (row : Session) : (db.purgeClient name).sessions.get? id = some row ↔
      db.sessions.get? id = some row ∧ row.clientName ≠ name := by
    rw [Database.purgeClient, Dict.get?_filter, Option.filter_eq_some_iff, decide_eq_true_eq]
  constructor
  · intro id row hrow
    exact h.below id row ((hrows id row).mp hrow).1
  · intro id row grp hrow hgrp
    obtain ⟨hold, hname⟩ := (hrows id row).mp hrow
    obtain ⟨first, hfirst, hown, hsame⟩ := h.first id row grp hold hgrp
    refine ⟨first, (hrows grp first).mpr ⟨hfirst, ?_⟩, hown, hsame⟩
    rw [(Prod.mk.inj hsame).1]
    exact hname

end Sound

section Run

inductive VisitOp where
  | group
  | insert (row : Session)
  | archive (name : Text) (now : Nat)
  | purge (name : Text)
  deriving DecidableEq

-- A transaction that fails leaves the tables as they were.
def visitStep (db : Database) : VisitOp → Option Database
  | .group => some db.groupSessions
  | .insert row => some (db.insertSession row).2
  | .archive name now => some ((db.archiveClientHistory name now).getD db)
  | .purge name => some (db.purgeClient name)

theorem visitsSound_step {before after : Database} {op : VisitOp} (h : VisitsSound before)
    (hstep : visitStep before op = some after) : VisitsSound after := by
  cases op with
  | group =>
      cases hstep
      exact visitsSound_groupSessions h
  | insert row =>
      cases hstep
      exact visitsSound_insertSession h row
  | archive name now =>
      cases hstep
      cases harchive : before.archiveClientHistory name now with
      | none => exact h
      | some db => exact visitsSound_archiveClientHistory h harchive
  | purge name =>
      cases hstep
      exact visitsSound_purgeClient h name

theorem visit_of_one_visitor {start db : Database}
    (hnull : ∀ id row, start.sessions.get? id = some row → row.grp = none)
    (hbelow : ∀ id row, start.sessions.get? id = some row → id < start.nextId)
    (hr : Reaches visitStep (fun _ _ => True) start db) :
    (∀ i j a b grp, db.sessions.get? i = some a → db.sessions.get? j = some b →
      a.grp = some grp → b.grp = some grp →
        a.clientName = b.clientName ∧ realIp a.realAddress = realIp b.realAddress) ∧
    ∀ i a grp, db.sessions.get? i = some a → a.grp = some grp →
      ∃ first, db.sessions.get? grp = some first ∧ first.grp = some grp := by
  have hstart : VisitsSound start := by
    refine ⟨hbelow, fun id row grp hrow hgrp => ?_⟩
    rw [hnull id row hrow] at hgrp
    cases hgrp
  have hsound : VisitsSound db :=
    hr.invariant (fun _ _ _ hbefore _ hstep => visitsSound_step hbefore hstep) hstart
  constructor
  · intro i j a b grp ha hb hagrp hbgrp
    obtain ⟨first, hfirst, -, hsame⟩ := hsound.first i a grp ha hagrp
    obtain ⟨first', hfirst', -, hsame'⟩ := hsound.first j b grp hb hbgrp
    rw [hfirst, Option.some.injEq] at hfirst'
    subst hfirst'
    exact Prod.mk.inj (hsame.symm.trans hsame')
  · intro i a grp ha hgrp
    obtain ⟨first, hfirst, hown, -⟩ := hsound.first i a grp ha hgrp
    exact ⟨first, hfirst, hown⟩

def Session.plain (name address : Text) (connectedAt disconnectedAt : Nat) : Session :=
  { clientName := name, cid := none, realAddress := address, vpnIp := none, username := none
    cipher := none, connectedAt, lastSeen := disconnectedAt, disconnectedAt := some disconnectedAt
    bytes := (0, 0), proto := none, platform := none, clientVer := none
    endReason := none, grp := none }

theorem archived_visit_of_one_visitor :
    let start : Database :=
      { Database.empty with
        sessions := (Dict.empty.set 1 (.plain "a".toList "1.2.3.4:5".toList 100 200)).set 2
          (.plain "a".toList "udp4:1.2.3.4:6".toList 300 400)
        nextId := 3 }
    ∃ db third, Reaches visitStep (fun _ _ => True) start db ∧
      db.sessions.get? 3 = some third ∧ third.grp = some 1 ∧
        third.clientName = "a#9000".toList ∧
        ∃ first, db.sessions.get? 1 = some first ∧ first.grp = some 1 := by
  intro start
  have hread : (runSteps visitStep start
      [.group, .insert (.plain "a".toList "tcp4:1.2.3.4:7".toList 1200 1300),
        .archive "a".toList 9000, .insert (.plain "a".toList "1.2.3.4:8".toList 1310 1320),
        .purge "a".toList]).bind
      (fun db => (db.sessions.get? 3).map fun row => (row.grp, row.clientName)) =
        some (some 1, "a#9000".toList) := by decide
  obtain ⟨db, hrun, hthird⟩ := Option.bind_eq_some_iff.mp hread
  obtain ⟨third, hrow, hfacts⟩ := Option.map_eq_some_iff.mp hthird
  obtain ⟨hgrp, hname⟩ := Prod.mk.inj hfacts
  have hr : Reaches visitStep (fun _ _ => True) start db :=
    Reaches.of_runSteps hrun (AllowedRun.of_runSteps hrun)
  have hstart (id : Nat) (row : Session) (h : start.sessions.get? id = some row) :
      row.grp = none ∧ id < start.nextId := by
    rcases Dict.get?_set_cases h with ⟨rfl, rfl⟩ | ⟨-, h⟩
    · exact ⟨rfl, by decide⟩
    · rcases Dict.get?_set_cases h with ⟨rfl, rfl⟩ | ⟨-, h⟩
      · exact ⟨rfl, by decide⟩
      · cases h
  have hvisit := (visit_of_one_visitor (fun id row h => (hstart id row h).1)
    (fun id row h => (hstart id row h).2) hr).2 3 third 1 hrow hgrp
  exact ⟨db, third, hr, hrow, hgrp, hname, hvisit⟩

end Run

section Grouped

variable {db next : Database} {op : VisitOp}

def Grouped (db : Database) : Prop :=
  ∀ id row, db.sessions.get? id = some row → row.grp ≠ none

theorem grouped_groupSessions (db : Database) : Grouped db.groupSessions := by
  intro id row hrow
  rcases get?_groupSessions hrow with ⟨-, hgrp⟩ | ⟨before, old, after, -, rfl⟩
  · exact hgrp
  · exact Option.some_ne_none _

theorem Grouped.step (h : Grouped db) (hstep : visitStep db op = some next) : Grouped next := by
  cases op with
  | group =>
      cases hstep
      exact grouped_groupSessions db
  | insert row =>
      cases hstep
      intro id row hrow
      rcases Dict.get?_set_cases hrow with ⟨-, rfl⟩ | ⟨-, hold⟩
      · exact Option.some_ne_none _
      · exact h id row hold
  | archive name now =>
      cases hstep
      cases harchive : db.archiveClientHistory name now with
      | none => exact h
      | some after =>
          unfold Database.archiveClientHistory at harchive
          split at harchive
          · simp only [Option.bind_eq_bind, Option.bind_eq_some_iff, Option.some.injEq] at harchive
            obtain ⟨minute, -, hour, -, day, -, rfl⟩ := harchive
            intro id row hrow
            rw [Option.getD_some, Dict.get?_mapValues] at hrow
            obtain ⟨old, hold, rfl⟩ := Option.map_eq_some_iff.mp hrow
            exact h id old hold
          · cases harchive
            exact h
  | purge name =>
      cases hstep
      intro id row hrow
      rw [Database.purgeClient, Dict.get?_filter, Option.filter_eq_some_iff] at hrow
      exact h id row hrow.1

-- A start of the UI gives every session a visit. From then on every session has one, and
-- the grouping of a later start finds nothing to do.
theorem sessions_keep_visit {start : Database}
    (hr : Reaches visitStep (fun _ _ => True) start.groupSessions db) :
    db.ungrouped = [] ∧ db.groupSessions = db := by
  have hgrouped : Grouped db :=
    hr.invariant (fun _ _ _ h _ hstep => h.step hstep) (grouped_groupSessions start)
  have hnone : db.ungrouped = [] := by
    rw [List.eq_nil_iff_forall_not_mem]
    intro row hrow
    obtain ⟨hget, hnull⟩ := (mem_ungrouped db row).mp hrow
    exact hgrouped row.1 row.2 hget hnull
  rw [Database.groupSessions, hnone]
  exact ⟨rfl, rfl⟩

theorem inserted_rows_keep_visit : ∃ db, runSteps visitStep (Database.groupSessions
    { Database.empty with sessions := Dict.empty.set 1 (.plain ['a'] [] 100 200), nextId := 2 })
    [.insert (.plain ['a'] [] 300 400), .archive ['a'] 9000] = some db ∧ db.groupSessions = db :=
  Exists.imp (fun _ hrun => ⟨hrun, (sessions_keep_visit
    (Reaches.of_runSteps hrun (AllowedRun.of_runSteps hrun))).2⟩) ⟨_, rfl⟩

end Grouped

end OpenvpnServer.Collector
