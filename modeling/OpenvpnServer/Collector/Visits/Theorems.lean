import OpenvpnServer.Collector.Visits
import OpenvpnServer.Lib.Labelling

namespace OpenvpnServer.Collector

open OpenvpnServer.Lib

variable {db : Database} {i : Nat} {row : Nat × Session} {s : Session}

section Rules

structure Stay where
  visitor : Text × Text
  connectedAt : Nat
  ended : Nat
  deriving DecidableEq

def Session.stay (row : Session) : Stay := ⟨visitor row, row.connectedAt, row.ended⟩

-- The rule of `session_group`: the visitor's latest-started session ended within the
-- gap, and fewer than 20 sessions of the client have started since.
def ContinuesLatest (before : List Stay) (s : Stay) : Prop :=
  ∃ front t back, before = front ++ t :: back ∧ t.visitor = s.visitor ∧
    (∀ u ∈ back, u.visitor ≠ s.visitor) ∧
    (back.filter fun u => u.visitor.1 = s.visitor.1).length < 20 ∧
    s.connectedAt ≤ t.ended + mergeGap

-- The rule of `group_sessions`: any of the visitor's sessions did.
def ContinuesAny (before : List Stay) (s : Stay) : Prop :=
  ∃ t ∈ before, t.visitor = s.visitor ∧ s.connectedAt ≤ t.ended + mergeGap

theorem ContinuesLatest.any {before : List Stay} {s : Stay} (h : ContinuesLatest before s) :
    ContinuesAny before s := by
  obtain ⟨front, t, back, rfl, hvisitor, -, -, hgap⟩ := h
  exact ⟨t, by simp, hvisitor, hgap⟩

end Rules

section Order

theorem newest20_of_ordered (hordered : db.sessions.entries.Pairwise older)
    (wanted : Session → Bool) :
    db.newest20 wanted =
      ((db.sessions.entries.reverse.filter fun row => wanted row.2).take 20) := by
  rw [Database.newest20, List.filter_reverse]
  congr 1
  have hperm := List.perm_insertionSort newer
    (db.sessions.entries.filter fun row => wanted row.2)
  refine List.Perm.eq_of_pairwise ?_ (List.pairwise_insertionSort newer _) ?_
    (hperm.trans (List.reverse_perm _).symm)
  · intro a b ha hb hab hba
    have hkey : a.1 = b.1 := by
      unfold newer at hab hba
      omega
    rw [List.mem_insertionSort] at ha
    rw [List.mem_reverse] at hb
    have ha' := db.sessions.get?_eq_some_iff.mpr (List.mem_of_mem_filter ha)
    have hb' := db.sessions.get?_eq_some_iff.mpr (List.mem_of_mem_filter hb)
    rw [hkey, hb', Option.some.injEq] at ha'
    exact Prod.ext hkey ha'.symm
  · rw [List.pairwise_reverse]
    refine (hordered.sublist List.filter_sublist).imp fun {a b} hab => ?_
    unfold older at hab
    unfold newer
    omega

end Order

section Numbered

variable {stays : List Stay} {rows : List (Nat × Session)}

structure Numbered (stays : List Stay) (rows : List (Nat × Session)) : Prop where
  ids : rows.map Prod.fst = List.range' 1 stays.length
  stays : rows.map (fun row => row.2.stay) = stays

theorem Numbered.length (h : Numbered stays rows) : rows.length = stays.length := by
  rw [← h.stays, List.length_map]

theorem Numbered.id_eq (h : Numbered stays rows)
    (hrow : rows[i]? = some row) : row.1 = i + 1 := by
  have hid : (rows.map Prod.fst)[i]? = some row.1 := by rw [List.getElem?_map, hrow, Option.map_some]
  rw [h.ids, List.getElem?_eq_some_iff] at hid
  obtain ⟨hlt, hid⟩ := hid
  rw [List.getElem_range'] at hid
  omega

theorem Numbered.exists_row (h : Numbered stays rows) {s : Stay}
    (hs : stays[i]? = some s) : ∃ row, rows[i]? = some row ∧ row.2.stay = s := by
  rw [← h.stays, List.getElem?_map] at hs
  exact Option.map_eq_some_iff.mp hs

theorem Numbered.take (h : Numbered stays rows) (i : Nat) :
    (rows.take i).map (fun row => row.2.stay) = stays.take i := by
  rw [List.map_take, h.stays]

theorem Numbered.append (h : Numbered stays rows) (row : Session) :
    Numbered (stays ++ [row.stay]) (rows ++ [(stays.length + 1, row)]) := by
  constructor
  · rw [List.map_append, h.ids, List.length_append, List.length_singleton, List.range'_concat,
      List.map_singleton]
    simp only [Nat.one_mul]
    rw [Nat.add_comm]
  · rw [List.map_append, h.stays, List.map_singleton]

end Numbered

section Online

variable {db : Database} {sessions : List Session}

def Database.insertAll (db : Database) (sessions : List Session) : Database :=
  sessions.foldl (fun db row => (db.insertSession row).2) db

structure Inserted (sessions : List Session) (db : Database) : Prop where
  numbered : Numbered (sessions.map Session.stay) db.sessions.entries
  ordered : db.sessions.entries.Pairwise older
  grouped : ∀ row ∈ db.sessions.entries, row.2.grp ≠ none
  nextId : db.nextId = sessions.length + 1

def visitAt (db : Database) (i : Nat) : Nat := ((db.sessions.get? (i + 1)).bind Session.grp).getD 0

theorem visitor_eq_iff (a b : Session) : visitor a = visitor b ↔
    a.clientName = b.clientName ∧ realIp a.realAddress = realIp b.realAddress := by
  rw [visitor, visitor, Prod.mk.injEq]

theorem find_newest20_iff (hordered : db.sessions.entries.Pairwise older) (s : Session)
    (x : Nat × Session) :
    (db.newest20 fun row => row.clientName = s.clientName).find?
        (fun row => realIp row.2.realAddress = realIp s.realAddress) = some x ↔
      ∃ front back, db.sessions.entries = front ++ x :: back ∧ visitor x.2 = visitor s ∧
        (∀ y ∈ back, visitor y.2 ≠ visitor s) ∧
        (back.filter fun y => y.2.clientName = s.clientName).length < 20 := by
  rw [newest20_of_ordered hordered, find?_take_filter]
  simp only [decide_eq_true_eq, ← visitor_eq_iff]
  constructor
  · rintro ⟨front, back, hsplit, hx, hfront, hlen⟩
    refine ⟨back.reverse, front.reverse, ?_, hx, ?_, ?_⟩
    · rw [← List.reverse_reverse db.sessions.entries, hsplit]
      simp
    · intro y hy
      exact hfront y (List.mem_reverse.mp hy)
    · rw [List.filter_reverse, List.length_reverse]
      exact hlen
  · rintro ⟨front, back, hsplit, hx, hback, hlen⟩
    refine ⟨back.reverse, front.reverse, ?_, hx, ?_, ?_⟩
    · rw [hsplit]
      simp
    · intro y hy
      exact hback y (List.mem_reverse.mp hy)
    · rw [List.filter_reverse, List.length_reverse]
      exact hlen

theorem length_filter_stay (rows : List (Nat × Session)) (name : Text) :
    ((rows.map fun row => row.2.stay).filter fun u => u.visitor.1 = name).length =
      (rows.filter fun y => y.2.clientName = name).length := by
  rw [List.filter_map, List.length_map]
  rfl

theorem sessionGroup_of_continues (h : Inserted sessions db)
    (hs : ContinuesLatest (sessions.map Session.stay) s.stay) :
    ∃ j, LastOf Stay.visitor (sessions.map Session.stay) (visitor s) j ∧
      db.sessionGroup s.clientName s.realAddress s.connectedAt = some (visitAt db j) := by
  obtain ⟨front, t, back, hsplit, hvisitor, hback, hlen, hgap⟩ := hs
  refine ⟨front.length, hsplit ▸ lastOf_of_split hvisitor hback, ?_⟩
  rw [← h.numbered.stays] at hsplit
  obtain ⟨rows, rest, hrows, rfl, hrest⟩ := List.map_eq_append_iff.mp hsplit
  obtain ⟨x, after, rfl, rfl, rfl⟩ := List.map_eq_cons_iff.mp hrest
  have hfound := (find_newest20_iff h.ordered s x).mpr ⟨rows, after, hrows, hvisitor,
    fun y hy => hback _ (List.mem_map_of_mem hy), length_filter_stay after _ ▸ hlen⟩
  have hx : x ∈ db.sessions.entries := hrows ▸ by simp
  have hid : x.1 = rows.length + 1 := by
    apply h.numbered.id_eq
    rw [hrows, List.getElem?_append_right (Nat.le_refl _), Nat.sub_self, List.getElem?_cons_zero]
  obtain ⟨grp, hgrp⟩ := Option.ne_none_iff_exists'.mp (h.grouped x hx)
  have hat : visitAt db rows.length = grp := by
    rw [visitAt, ← hid, db.sessions.get?_eq_some_iff.mpr hx, Option.bind_some, hgrp,
      Option.getD_some]
  rw [Database.sessionGroup, hfound, List.length_map, hat]
  exact (if_pos hgap).trans hgrp

theorem sessionGroup_of_not_continues (h : Inserted sessions db)
    (hs : ¬ContinuesLatest (sessions.map Session.stay) s.stay) :
    db.sessionGroup s.clientName s.realAddress s.connectedAt = none := by
  rw [Database.sessionGroup]
  split
  · rfl
  · rename_i id row hfound
    split
    · rename_i hgap
      refine absurd ?_ hs
      obtain ⟨front, back, hrows, hvisitor, hback, hlen⟩ :=
        (find_newest20_iff h.ordered s (id, row)).mp hfound
      refine ⟨front.map fun row => row.2.stay, row.stay, back.map fun row => row.2.stay, ?_,
        hvisitor, ?_, ?_, hgap⟩
      · rw [← h.numbered.stays, hrows, List.map_append, List.map_cons]
      · intro u hu
        obtain ⟨y, hy, rfl⟩ := List.mem_map.mp hu
        exact hback y hy
      · rw [length_filter_stay]
        exact hlen
    · rfl

theorem Inserted.nextId_not_mem (h : Inserted sessions db) : db.nextId ∉ db.sessions.keys := by
  rw [Dict.keys, h.numbered.ids, List.mem_range'_1, h.nextId, List.length_map]
  omega

theorem inserted_insertSession (h : Inserted sessions db)
    (hlast : ∀ t ∈ sessions, t.connectedAt ≤ s.connectedAt) :
    Inserted (sessions ++ [s]) (db.insertSession s).2 := by
  have hentries := Dict.entries_set_of_not_mem db.sessions
    { s with
      proto := (splitAddress s.realAddress).1
      grp := some ((db.sessionGroup s.clientName s.realAddress s.connectedAt).getD db.nextId) }
    h.nextId_not_mem
  refine ⟨?_, ?_, ?_, ?_⟩
  · rw [Database.insertSession, hentries, List.map_append, List.map_singleton, h.nextId]
    have hnew := h.numbered.append
      { s with
        proto := (splitAddress s.realAddress).1
        grp := some ((db.sessionGroup s.clientName s.realAddress s.connectedAt).getD
          (sessions.length + 1)) }
    rw [List.length_map] at hnew
    exact hnew
  · rw [Database.insertSession, hentries, List.pairwise_append]
    refine ⟨h.ordered, List.pairwise_singleton _ _, fun a ha b hb => ?_⟩
    have hstay : a.2.stay ∈ sessions.map Session.stay := by
      rw [← h.numbered.stays]
      exact List.mem_map_of_mem ha
    obtain ⟨t, ht, hta⟩ := List.mem_map.mp hstay
    have hconnected : t.connectedAt = a.2.connectedAt := congrArg Stay.connectedAt hta
    have hid : a.1 ∈ db.sessions.keys := List.mem_map_of_mem ha
    rw [Dict.keys, h.numbered.ids, List.mem_range'_1, List.length_map] at hid
    have hle := hlast t ht
    rw [List.mem_singleton.mp hb, h.nextId]
    unfold older
    simp only
    omega
  · intro row hrow
    rw [Database.insertSession, hentries, List.mem_append, List.mem_singleton] at hrow
    rcases hrow with hrow | rfl
    · exact h.grouped row hrow
    · exact Option.some_ne_none _
  · rw [Database.insertSession, h.nextId, List.length_append, List.length_singleton]

theorem visitAt_insertSession_of_lt (h : Inserted sessions db) (s : Session)
    (hi : i < sessions.length) : visitAt (db.insertSession s).2 i = visitAt db i := by
  have hne : i + 1 ≠ db.nextId := by
    rw [h.nextId]
    omega
  rw [visitAt, visitAt, Database.insertSession, Dict.get?_set_ne _ _ hne]

theorem visitAt_insertSession_last (h : Inserted sessions db) (s : Session) :
    visitAt (db.insertSession s).2 sessions.length =
      (db.sessionGroup s.clientName s.realAddress s.connectedAt).getD (sessions.length + 1) := by
  rw [visitAt, Database.insertSession, h.nextId, Dict.get?_set_self]
  rfl

theorem insertAll_spec (hordered : sessions.Pairwise fun a b => a.connectedAt ≤ b.connectedAt) :
    Inserted sessions (Database.empty.insertAll sessions) ∧
      Labelled Stay.visitor ContinuesLatest (sessions.map Session.stay)
        (visitAt (Database.empty.insertAll sessions)) := by
  induction sessions using List.reverseRecOn with
  | nil => exact ⟨⟨⟨rfl, rfl⟩, .nil, fun _ h => absurd h List.not_mem_nil, rfl⟩, .nil⟩
  | append_singleton rest s ih =>
      obtain ⟨hrest, -, hlast⟩ := List.pairwise_append.mp hordered
      obtain ⟨hinserted, hlabelled⟩ := ih hrest
      have hstep : Database.empty.insertAll (rest ++ [s]) =
          ((Database.empty.insertAll rest).insertSession s).2 := by
        rw [Database.insertAll, List.foldl_append]
        rfl
      rw [hstep, List.map_append, List.map_singleton]
      refine ⟨inserted_insertSession hinserted fun t ht => hlast t ht s (List.mem_singleton_self s),
        hlabelled.append_singleton ?_ ?_ ?_⟩
      · intro i hi
        rw [List.length_map] at hi
        exact visitAt_insertSession_of_lt hinserted s hi
      · intro hjoins
        obtain ⟨j, hj, hgroup⟩ := sessionGroup_of_continues hinserted hjoins
        refine ⟨j, hj, ?_⟩
        rw [List.length_map, visitAt_insertSession_last hinserted, hgroup, Option.getD_some]
      · intro hjoins
        rw [List.length_map, visitAt_insertSession_last hinserted,
          sessionGroup_of_not_continues hinserted hjoins, Option.getD_none]

end Online

section Batch

variable {stays : List Stay} {rows : List (Nat × Session)}

def groupedAt (rows : List (Nat × Session)) (i : Nat) : Nat :=
  match rows[i]? with
  | some row => visitOf (lastAfter (rows.take i)) row
  | none => 0

theorem groupedAt_eq (h : rows[i]? = some row) :
    groupedAt rows i = visitOf (lastAfter (rows.take i)) row := by
  rw [groupedAt, h]

theorem labelled_groupedAt (h : Numbered stays rows) :
    Labelled Stay.visitor ContinuesAny stays (groupedAt rows) := by
  constructor
  · intro k s hs hany
    obtain ⟨row, hrow, rfl⟩ := h.exists_row hs
    rw [← h.take] at hany ⊢
    obtain ⟨t, ht, hvisitor, hgap⟩ := hany
    obtain ⟨other, hother, rfl⟩ := List.mem_map.mp ht
    rw [groupedAt_eq hrow]
    cases hlast : (lastAfter (rows.take k)).get? (visitor row.2) with
    | none => exact absurd hvisitor (ne_of_lastAfter_eq_none hlast hother)
    | some entry =>
        obtain ⟨grp, ended⟩ := entry
        have hended : row.2.connectedAt - mergeGap ≤ ended := by
          refine (lastAfter_ended hlast _).mpr ⟨other, hother, hvisitor, ?_⟩
          have hgap' : row.2.connectedAt ≤ other.2.ended + mergeGap := hgap
          omega
        obtain ⟨before, prev, after, hsplit, hprev, hafter, hgrp⟩ := lastAfter_visit hlast
        have hrows : rows = before ++ prev :: (after ++ rows.drop k) := by
          rw [← List.cons_append, ← List.append_assoc, ← hsplit, List.take_append_drop]
        refine ⟨before.length, ?_, ?_⟩
        · rw [hsplit, List.map_append, List.map_cons,
            ← List.length_map (f := fun row : Nat × Session => row.2.stay)]
          refine lastOf_of_split hprev fun y hy => ?_
          obtain ⟨u, hu, rfl⟩ := List.mem_map.mp hy
          exact hafter u hu
        · have hget : rows[before.length]? = some prev := by
            rw [hrows, List.getElem?_append_right (Nat.le_refl _), Nat.sub_self,
              List.getElem?_cons_zero]
          have htake : rows.take before.length = before := by
            rw [hrows, List.take_left]
          rw [groupedAt_eq hget, htake, ← hgrp, visitOf, hlast]
          exact if_pos (by omega)
  · intro k s hs hany
    obtain ⟨row, hrow, rfl⟩ := h.exists_row hs
    rw [← h.take] at hany
    rw [groupedAt_eq hrow, ← h.id_eq hrow, visitOf]
    split
    · rfl
    · rename_i grp ended hlast
      refine if_neg fun hgap => hany ?_
      have hended : row.2.connectedAt - mergeGap ≤ ended := by omega
      obtain ⟨other, hother, hvisitor, hle⟩ := (lastAfter_ended hlast _).mp hended
      refine ⟨other.2.stay, List.mem_map_of_mem hother, hvisitor, ?_⟩
      have hle' : row.2.connectedAt ≤ other.2.ended + mergeGap := by omega
      exact hle'

end Batch

section Agreement

def Database.withoutVisits (db : Database) : Database :=
  { db with sessions := db.sessions.mapValues fun _ row => { row with grp := none } }

def SameVisit (db : Database) (i j : Nat) : Prop :=
  ∃ a b, db.sessions.get? i = some a ∧ db.sessions.get? j = some b ∧ a.grp = b.grp

structure Visited (n : Nat) (v : Nat → Nat) (db : Database) : Prop where
  rows : ∀ i, i < n → ∃ row, db.sessions.get? (i + 1) = some row ∧ row.grp = some (v i)
  ids : ∀ id row, db.sessions.get? id = some row → ∃ i, i < n ∧ id = i + 1

theorem Visited.sameVisit_iff {n : Nat} {v : Nat → Nat} (h : Visited n v db)
    (i j : Nat) : SameVisit db i j ↔
      ∃ a b, a < n ∧ b < n ∧ i = a + 1 ∧ j = b + 1 ∧ v a = v b := by
  constructor
  · rintro ⟨r, r', hr, hr', hgrp⟩
    obtain ⟨a, ha, rfl⟩ := h.ids i r hr
    obtain ⟨b, hb, rfl⟩ := h.ids j r' hr'
    obtain ⟨x, hx, hxv⟩ := h.rows a ha
    obtain ⟨y, hy, hyv⟩ := h.rows b hb
    rw [hr, Option.some.injEq] at hx
    rw [hr', Option.some.injEq] at hy
    subst hx hy
    rw [hxv, hyv, Option.some.injEq] at hgrp
    exact ⟨a, b, ha, hb, rfl, rfl, hgrp⟩
  · rintro ⟨a, b, ha, hb, rfl, rfl, hv⟩
    obtain ⟨x, hx, hxv⟩ := h.rows a ha
    obtain ⟨y, hy, hyv⟩ := h.rows b hb
    exact ⟨x, y, hx, hy, by rw [hxv, hyv, hv]⟩

theorem Visited.agree_iff {n : Nat} {v w : Nat → Nat} {db' : Database} (h : Visited n v db)
    (h' : Visited n w db') :
    (∀ i j, SameVisit db i j ↔ SameVisit db' i j) ↔
      ∀ a b, a < n → b < n → (v a = v b ↔ w a = w b) := by
  simp only [h.sameVisit_iff, h'.sameVisit_iff]
  constructor
  · intro hagree a b ha hb
    constructor
    · intro hv
      obtain ⟨c, d, -, -, hc, hd, hw⟩ := (hagree (a + 1) (b + 1)).mp ⟨a, b, ha, hb, rfl, rfl, hv⟩
      obtain ⟨rfl, rfl⟩ : a = c ∧ b = d := by omega
      exact hw
    · intro hw
      obtain ⟨c, d, -, -, hc, hd, hv⟩ := (hagree (a + 1) (b + 1)).mpr ⟨a, b, ha, hb, rfl, rfl, hw⟩
      obtain ⟨rfl, rfl⟩ : a = c ∧ b = d := by omega
      exact hv
  · intro hagree i j
    constructor
    · rintro ⟨a, b, ha, hb, hi, hj, hv⟩
      exact ⟨a, b, ha, hb, hi, hj, (hagree a b ha hb).mp hv⟩
    · rintro ⟨a, b, ha, hb, hi, hj, hw⟩
      exact ⟨a, b, ha, hb, hi, hj, (hagree a b ha hb).mpr hw⟩

variable {db : Database} {sessions : List Session} {stays : List Stay}

theorem Numbered.id_of_mem {rows : List (Nat × Session)} (h : Numbered stays rows)
    (hrow : row ∈ rows) :
    ∃ i, i < stays.length ∧ row.1 = i + 1 ∧ rows[i]? = some row := by
  obtain ⟨i, hi, hget⟩ := List.getElem_of_mem hrow
  have hget' : rows[i]? = some row := List.getElem?_eq_some_iff.mpr ⟨hi, hget⟩
  exact ⟨i, h.length ▸ hi, h.id_eq hget', hget'⟩

theorem Numbered.exists_at {rows : List (Nat × Session)} (h : Numbered stays rows)
    (hi : i < stays.length) : ∃ row, rows[i]? = some (i + 1, row) := by
  obtain ⟨row, hrow, -⟩ := h.exists_row (List.getElem?_eq_getElem hi)
  have hid := h.id_eq hrow
  exact ⟨row.2, by rw [hrow, ← hid]⟩

theorem visited_inserted (h : Inserted sessions db) :
    Visited (sessions.map Session.stay).length (visitAt db) db := by
  constructor
  · intro i hi
    obtain ⟨row, hrow⟩ := h.numbered.exists_at hi
    have hmem := List.mem_of_getElem? hrow
    have hget := db.sessions.get?_eq_some_iff.mpr hmem
    obtain ⟨grp, hgrp⟩ := Option.ne_none_iff_exists'.mp (h.grouped _ hmem)
    refine ⟨row, hget, ?_⟩
    rw [visitAt, hget, Option.bind_some, hgrp, Option.getD_some]
  · intro id row hrow
    obtain ⟨i, hi, hid, -⟩ := h.numbered.id_of_mem (db.sessions.get?_eq_some_iff.mp hrow)
    exact ⟨i, hi, hid⟩

theorem visited_groupSessions (h : Numbered stays db.sessions.entries)
    (hordered : db.sessions.entries.Pairwise older)
    (hnull : ∀ row ∈ db.sessions.entries, row.2.grp = none) :
    Visited stays.length (groupedAt db.sessions.entries) db.groupSessions := by
  have hungrouped : db.ungrouped = db.sessions.entries := by
    rw [Database.ungrouped, List.filter_eq_self.mpr fun row hrow => decide_eq_true (hnull row hrow)]
    exact hordered.insertionSort_eq
  constructor
  · intro i hi
    obtain ⟨row, hrow⟩ := h.exists_at hi
    have hget := db.sessions.get?_eq_some_iff.mpr (List.mem_of_getElem? hrow)
    have hsplit : db.ungrouped =
        db.sessions.entries.take i ++ (i + 1, row) :: db.sessions.entries.drop (i + 1) := by
      obtain ⟨hlt, hat⟩ := List.getElem?_eq_some_iff.mp hrow
      rw [hungrouped, ← hat, List.getElem_cons_drop, List.take_append_drop]
    have hwritten := get?_foldl_groupStep (nodup_ids_ungrouped db) hsplit db
    rw [hget, Option.map_some] at hwritten
    exact ⟨_, hwritten, by rw [groupedAt_eq hrow]; rfl⟩
  · intro id row hrow
    have hmem : ∃ old, (id, old) ∈ db.sessions.entries := by
      rcases get?_groupSessions hrow with ⟨hold, -⟩ | ⟨before, old, after, hsplit, -⟩
      · exact ⟨row, db.sessions.get?_eq_some_iff.mp hold⟩
      · exact ⟨old, by rw [← hungrouped, hsplit]; simp⟩
    obtain ⟨old, hold⟩ := hmem
    obtain ⟨i, hi, hid, -⟩ := h.id_of_mem hold
    exact ⟨i, hi, hid⟩

theorem numbered_withoutVisits (h : Inserted sessions db) :
    Numbered (sessions.map Session.stay) db.withoutVisits.sessions.entries := by
  constructor
  · rw [← h.numbered.ids]
    exact Dict.keys_mapSnd (fun _ row => { row with grp := none }) db.sessions.entries
  · rw [← h.numbered.stays]
    simp only [Database.withoutVisits, Dict.mapValues, List.map_map]
    rfl

theorem visited_withoutVisits (h : Inserted sessions db) :
    Visited (sessions.map Session.stay).length (groupedAt db.withoutVisits.sessions.entries)
      db.withoutVisits.groupSessions := by
  apply visited_groupSessions (numbered_withoutVisits h)
  · simp only [Database.withoutVisits, Dict.mapValues, List.pairwise_map]
    exact h.ordered
  · intro row hrow
    simp only [Database.withoutVisits, Dict.mapValues] at hrow
    obtain ⟨old, -, rfl⟩ := List.mem_map.mp hrow
    rfl

theorem visits_agree_iff (sessions : List Session)
    (hordered : sessions.Pairwise fun a b => a.connectedAt ≤ b.connectedAt) :
    (∀ i j, SameVisit (Database.empty.insertAll sessions) i j ↔
      SameVisit (Database.empty.insertAll sessions).withoutVisits.groupSessions i j) ↔
    ∀ before s after, sessions = before ++ s :: after →
      ContinuesAny (before.map Session.stay) s.stay →
        ContinuesLatest (before.map Session.stay) s.stay := by
  obtain ⟨hinserted, honline⟩ := insertAll_spec hordered
  have hbatch := labelled_groupedAt (numbered_withoutVisits hinserted)
  rw [(visited_inserted hinserted).agree_iff (visited_withoutVisits hinserted),
    honline.agree_iff hbatch]
  constructor
  · intro hjoins before s after hsplit hany
    have hget : (sessions.map Session.stay)[before.length]? = some s.stay := by
      rw [List.getElem?_map, hsplit, List.getElem?_append_right (Nat.le_refl _), Nat.sub_self,
        List.getElem?_cons_zero, Option.map_some]
    have htake : (sessions.map Session.stay).take before.length = before.map Session.stay := by
      rw [← List.map_take, hsplit, List.take_left]
    have hiff := hjoins before.length s.stay hget
    rw [htake] at hiff
    exact hiff.mpr hany
  · intro hcontinues k x hx
    rw [List.getElem?_map] at hx
    obtain ⟨s, hs, rfl⟩ := Option.map_eq_some_iff.mp hx
    obtain ⟨hk, hat⟩ := List.getElem?_eq_some_iff.mp hs
    have hsplit : sessions = sessions.take k ++ s :: sessions.drop (k + 1) := by
      rw [← hat, List.getElem_cons_drop, List.take_append_drop]
    rw [← List.map_take]
    exact ⟨ContinuesLatest.any, hcontinues _ s _ hsplit⟩

theorem reconnect_visits_agree :
    let sessions : List Session := [.plain "a".toList "udp4:1.2.3.4:5".toList 100 200,
      .plain "a".toList "tcp4:1.2.3.4:6".toList 210 220]
    ∀ i j, SameVisit (Database.empty.insertAll sessions) i j ↔
      SameVisit (Database.empty.insertAll sessions).withoutVisits.groupSessions i j := by
  intro sessions
  refine (visits_agree_iff sessions (by decide)).mpr ?_
  intro before s after hsplit hany
  rcases before with _ | ⟨first, _ | ⟨second, rest⟩⟩
  · obtain ⟨t, ht, -⟩ := hany
    exact absurd ht List.not_mem_nil
  · obtain ⟨rfl, hrest⟩ := List.cons.inj hsplit
    obtain ⟨rfl, -⟩ := List.cons.inj hrest
    exact ⟨[], _, [], rfl, by decide, fun _ h => absurd h List.not_mem_nil, by decide,
      by decide⟩
  · have hlength := congrArg List.length hsplit
    simp [sessions] at hlength

-- A long session, a short one within it, and a third one during the first, more than
-- the gap after the second.
theorem overlapping_sessions_disagree :
    let sessions : List Session := [.plain "a".toList "1.2.3.4:5".toList 100 10000,
      .plain "a".toList "1.2.3.4:6".toList 110 120, .plain "a".toList "1.2.3.4:7".toList 5000 5100]
    ¬∀ i j, SameVisit (Database.empty.insertAll sessions) i j ↔
      SameVisit (Database.empty.insertAll sessions).withoutVisits.groupSessions i j := by
  intro sessions hagree
  have honline : ((Database.empty.insertAll sessions).sessions.get? 1).map Session.grp =
        some (some 1) ∧
      ((Database.empty.insertAll sessions).sessions.get? 3).map Session.grp = some (some 3) := by
    decide
  have hbatch : ((Database.empty.insertAll sessions).withoutVisits.groupSessions.sessions.get? 1).map
        Session.grp = some (some 1) ∧
      ((Database.empty.insertAll sessions).withoutVisits.groupSessions.sessions.get? 3).map
        Session.grp = some (some 1) := by
    decide
  obtain ⟨a, ha, hagrp⟩ := Option.map_eq_some_iff.mp hbatch.1
  obtain ⟨b, hb, hbgrp⟩ := Option.map_eq_some_iff.mp hbatch.2
  obtain ⟨c, d, hc, hd, hgrp⟩ := (hagree 1 3).mpr ⟨a, b, ha, hb, hagrp.trans hbgrp.symm⟩
  rw [hc, hd, Option.map_some, Option.map_some, Option.some.injEq, Option.some.injEq, hgrp]
    at honline
  rw [honline.1] at honline
  exact absurd honline.2 (by decide)

end Agreement

end OpenvpnServer.Collector
