import OpenvpnServer.Collector.Handshake
import OpenvpnServer.Lib.Labelling

namespace OpenvpnServer.Collector

open OpenvpnServer.Lib

section LatestSession

variable {db : Database}

theorem latestSession_spec {name address : Text} {since id : Nat} {row : Session}
    (h : db.latestSession name address since = some (id, row)) :
    db.sessions.get? id = some row ∧ row.clientName = name ∧
      (since ≤ row.connectedAt ∨ row.disconnectedAt = none) ∧
      (splitAddress row.realAddress).2 = (splitAddress address).2 := by
  unfold Database.latestSession Database.newest20 at h
  have haddress := List.find?_some h
  have hmem := List.mem_of_mem_take (List.mem_of_find?_eq_some h)
  rw [List.mem_insertionSort, List.mem_filter] at hmem
  have hwanted := of_decide_eq_true hmem.2
  exact ⟨db.sessions.get?_eq_some_iff.mpr hmem.1, hwanted.1, hwanted.2, by simpa using haddress⟩

theorem latestSession_eq {name address : Text} {since id : Nat} {row : Session}
    (hget : db.sessions.get? id = some row) (hname : row.clientName = name)
    (hwanted : since ≤ row.connectedAt ∨ row.disconnectedAt = none)
    (haddress : (splitAddress row.realAddress).2 = (splitAddress address).2)
    (hlatest : ∀ id' row', db.sessions.get? id' = some row' → row'.clientName = name →
      (splitAddress row'.realAddress).2 = (splitAddress address).2 → id' ≠ id →
      row'.connectedAt < row.connectedAt)
    (hcrowd : (db.sessions.entries.filter fun entry => decide
      (entry.2.clientName = name ∧ row.connectedAt ≤ entry.2.connectedAt)).length ≤ 20) :
    db.latestSession name address since = some (id, row) := by
  unfold Database.latestSession Database.newest20
  refine find?_take_insertionSort (db.sessions.nodup_entries.filter _) ?_ (by simpa using haddress)
    (fun y hy hmatch hnewer => ?_) (le_trans ?_ hcrowd)
  · rw [List.mem_filter]
    exact ⟨db.sessions.get?_eq_some_iff.mp hget, by simpa using ⟨hname, hwanted⟩⟩
  · obtain ⟨id', row'⟩ := y
    obtain ⟨hmem, hy⟩ := List.mem_filter.mp hy
    have hget' := db.sessions.get?_eq_some_iff.mpr hmem
    by_cases hid : id' = id
    · subst hid
      rw [hget, Option.some.injEq] at hget'
      rw [hget']
    · have hlt := hlatest id' row' hget' (of_decide_eq_true hy).1 (by simpa using hmatch) hid
      unfold newer at hnewer
      dsimp only at hnewer
      omega
  · rw [List.filter_filter]
    apply List.Sublist.length_le
    apply List.monotone_filter_right
    intro entry hentry
    rw [Bool.and_eq_true, decide_eq_true_eq, decide_eq_true_eq] at hentry
    have hnewer := hentry.1
    rw [decide_eq_true_eq]
    refine ⟨hentry.2.1, ?_⟩
    unfold newer at hnewer
    dsimp only at hnewer
    omega

def SameConnection (f : Session → Session) : Prop :=
  ∀ row, (f row).clientName = row.clientName ∧ (f row).connectedAt = row.connectedAt ∧
    (f row).disconnectedAt = row.disconnectedAt ∧ (f row).realAddress = row.realAddress

theorem sameConnection_withDevice (address : Text) (peer : Peer) :
    SameConnection (Session.withDevice address peer) := fun _ => ⟨rfl, rfl, rfl, rfl⟩

theorem latestSession_update {f : Session → Session} (hf : SameConnection f) (id : Nat)
    (name address : Text) (since : Nat) :
    ((db.updateSession id f).latestSession name address since).map Prod.fst =
      (db.latestSession name address since).map Prod.fst := by
  let changed : Nat × Session → Nat × Session :=
    fun row => (row.1, if row.1 = id then f row.2 else row.2)
  have hcolumns (row : Nat × Session) :
      (changed row).1 = row.1 ∧ (changed row).2.clientName = row.2.clientName ∧
      (changed row).2.connectedAt = row.2.connectedAt ∧
      (changed row).2.disconnectedAt = row.2.disconnectedAt ∧
      (changed row).2.realAddress = row.2.realAddress := by
    dsimp only [changed]
    split
    · exact ⟨rfl, hf row.2⟩
    · exact ⟨rfl, rfl, rfl, rfl, rfl⟩
  have hentries : (db.updateSession id f).sessions.entries = db.sessions.entries.map changed := rfl
  have hnewer (a b : Nat × Session) : newer a b ↔ newer (changed a) (changed b) := by
    unfold newer
    rw [(hcolumns a).1, (hcolumns b).1, (hcolumns a).2.2.1, (hcolumns b).2.2.1]
  have hwanted : ((fun row : Nat × Session => decide (row.2.clientName = name ∧
      (since ≤ row.2.connectedAt ∨ row.2.disconnectedAt = none))) ∘ changed) =
      fun row => decide (row.2.clientName = name ∧
        (since ≤ row.2.connectedAt ∨ row.2.disconnectedAt = none)) := by
    funext row
    obtain ⟨_, hname, hconnected, hclosed, _⟩ := hcolumns row
    simp only [Function.comp_apply, hname, hconnected, hclosed]
  have haddress : ((fun row : Nat × Session => decide
      ((splitAddress row.2.realAddress).2 = (splitAddress address).2)) ∘ changed) =
      fun row => decide ((splitAddress row.2.realAddress).2 = (splitAddress address).2) := by
    funext row
    simp only [Function.comp_apply, (hcolumns row).2.2.2.2]
  have hid : Prod.fst ∘ changed = Prod.fst := by
    funext row
    exact (hcolumns row).1
  unfold Database.latestSession Database.newest20
  rw [hentries, List.filter_map, hwanted,
    ← List.map_insertionSort newer newer changed _ (fun a _ b _ => hnewer a b), ← List.map_take,
    List.find?_map, haddress, Option.map_map, hid]

end LatestSession

section Describe

def describedRow (db : Database) (item : Text × Peer) : Option (Nat × Session) :=
  item.2.cn.bind fun cn => db.latestSession cn item.1 (item.2.ts - 30)

theorem describedRow_update {db : Database} {f : Session → Session} (hf : SameConnection f)
    (id : Nat) (item : Text × Peer) :
    (describedRow (db.updateSession id f) item).map Prod.fst =
      (describedRow db item).map Prod.fst := by
  unfold describedRow
  cases item.2.cn with
  | none => rfl
  | some cn => exact latestSession_update hf id cn item.1 _

def tooOld (now : Nat) (peer : Peer) : Prop := peer.ts + pendingMaxAge < now

instance (now : Nat) (peer : Peer) : Decidable (tooOld now peer) :=
  inferInstanceAs (Decidable (_ < _))

def describedRows (db : Database) (item : Text × Peer) : Database :=
  match describedRow db item with
  | some (id, _) => db.updateSession id (Session.withDevice item.1 item.2)
  | none => db

def dropped (now : Nat) (db : Database) (item : Text × Peer) : Bool :=
  (describedRow db item).isSome || decide (tooOld now item.2)

theorem describeOne_eq (now : Nat) (pending : Pending) (db : Database) (item : Text × Peer) :
    describeOne now (pending, db) item =
      (if dropped now db item then pending.erase item.1 else pending, describedRows db item) := by
  unfold describeOne describedRows dropped describedRow tooOld
  simp only
  cases item.2.cn.bind fun cn => db.latestSession cn item.1 (item.2.ts - 30) with
  | some row => rfl
  | none =>
      by_cases hold : item.2.ts + pendingMaxAge < now <;> simp [hold]

theorem describedRow_describedRows (db : Database) (item other : Text × Peer) :
    (describedRow (describedRows db other) item).map Prod.fst =
      (describedRow db item).map Prod.fst := by
  unfold describedRows
  cases describedRow db other with
  | none => rfl
  | some row => exact describedRow_update (sameConnection_withDevice _ _) _ _

theorem dropped_describedRows (now : Nat) (db : Database) (item other : Text × Peer) :
    dropped now (describedRows db other) item = dropped now db item := by
  unfold dropped
  rw [← Option.isSome_map (f := Prod.fst), describedRow_describedRows, Option.isSome_map]

def Twins (a b : Text × Peer) : Prop :=
  a.2.cn ≠ none ∧ a.2.cn = b.2.cn ∧ (splitAddress a.1).2 = (splitAddress b.1).2

instance (a b : Text × Peer) : Decidable (Twins a b) := inferInstanceAs (Decidable (_ ∧ _ ∧ _))

theorem describedRow_ne {db : Database} {a b : Text × Peer} {i j : Nat} {row row' : Session}
    (ha : describedRow db a = some (i, row)) (hb : describedRow db b = some (j, row'))
    (h : ¬ Twins a b) : i ≠ j := by
  intro he
  subst he
  obtain ⟨cn, hcn, hfound⟩ := Option.bind_eq_some_iff.mp ha
  obtain ⟨cn', hcn', hfound'⟩ := Option.bind_eq_some_iff.mp hb
  obtain ⟨hget, hname, _, haddress⟩ := latestSession_spec hfound
  obtain ⟨hget', hname', _, haddress'⟩ := latestSession_spec hfound'
  rw [hget, Option.some.injEq] at hget'
  subst hget'
  refine h ⟨by rw [hcn]; simp, ?_, haddress.symm.trans haddress'⟩
  rw [hcn, hcn', ← hname, ← hname']

theorem describedRows_comm (db : Database) {a b : Text × Peer} (h : ¬ Twins a b) :
    describedRows (describedRows db a) b = describedRows (describedRows db b) a := by
  have hfound (item other : Text × Peer) {i : Nat} {row : Session}
      (hrow : describedRow db item = some (i, row)) :
      ∃ row', describedRow (describedRows db other) item = some (i, row') := by
    have hfst := describedRow_describedRows db item other
    rw [hrow, Option.map_some, Option.map_eq_some_iff] at hfst
    obtain ⟨⟨j, row'⟩, hj, he⟩ := hfst
    cases he
    exact ⟨row', hj⟩
  have hnone (item other : Text × Peer) (hrow : describedRow db item = none) :
      describedRow (describedRows db other) item = none := by
    have hfst := describedRow_describedRows db item other
    rwa [hrow, Option.map_none, Option.map_eq_none_iff] at hfst
  cases ha : describedRow db a with
  | none =>
      have hsame : describedRows db a = db := by unfold describedRows; rw [ha]
      rw [hsame]
      conv_rhs => rw [describedRows, hnone a b ha]
  | some found =>
      obtain ⟨i, row⟩ := found
      cases hb : describedRow db b with
      | none =>
          have hsame : describedRows db b = db := by unfold describedRows; rw [hb]
          rw [hsame]
          conv_lhs => rw [describedRows, hnone b a hb]
      | some found' =>
          obtain ⟨j, row'⟩ := found'
          obtain ⟨_, hab⟩ := hfound a b ha
          obtain ⟨_, hba⟩ := hfound b a hb
          rw [describedRows, hba, describedRows, ha]
          conv_rhs => rw [describedRows, hab, describedRows, hb]
          simp only [Database.updateSession]
          rw [Dict.modify_comm _ (describedRow_ne ha hb h)]

theorem describeOne_comm (now : Nat) (state : Pending × Database) {a b : Text × Peer}
    (h : ¬ Twins a b) :
    describeOne now (describeOne now state a) b = describeOne now (describeOne now state b) a := by
  obtain ⟨pending, db⟩ := state
  rw [describeOne_eq, describeOne_eq, describeOne_eq, describeOne_eq, dropped_describedRows,
    dropped_describedRows, describedRows_comm db h]
  by_cases ha : dropped now db a = true
  · by_cases hb : dropped now db b = true
    · simp only [ha, hb, if_true, pending.erase_comm a.1 b.1]
    · simp only [ha, hb, if_true, if_false, Bool.false_eq_true]
  · by_cases hb : dropped now db b = true
    · simp only [ha, hb, if_true, if_false, Bool.false_eq_true]
    · simp only [ha, hb, if_false, Bool.false_eq_true]

end Describe

end OpenvpnServer.Collector
