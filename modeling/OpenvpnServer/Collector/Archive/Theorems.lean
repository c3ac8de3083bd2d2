import OpenvpnServer.Collector.Archive

namespace OpenvpnServer.Collector

open OpenvpnServer.Lib

variable {db db' : Database} {now : Nat} {clients : List Client} {active : Active}
  {status : Status} {pending : Pending}

section Rename

variable {name key : Text}

theorem archiveKey_ne (name : Text) (now : Nat) : archiveKey name now ≠ name := by
  intro h
  have hlen := congrArg List.length h
  simp [archiveKey] at hlen

theorem renamed_ne (h : key ≠ name) (client : Text) : renamed name key client ≠ name := by
  unfold renamed
  by_cases hc : client = name
  · rwa [if_pos hc]
  · rwa [if_neg hc]

theorem bytesOf_renamed (h : key ≠ name) (client : Text) (bytes : Bytes) :
    bytesOf key (renamed name key client) bytes =
      bytesOf key client bytes + bytesOf name client bytes := by
  unfold bytesOf renamed
  by_cases hc : client = name
  · subst hc
    simp [Ne.symm h]
  · simp [hc]

theorem bytes_rename {table table' : Traffic} (h : table.rename name key = some table')
    (hk : key ≠ name) :
    table'.bytes name = 0 ∧ table'.bytes key = table.bytes key + table.bytes name := by
  unfold Traffic.rename at h
  simp only at h
  split at h
  · cases h
    constructor
    · simp only [Traffic.bytes, Dict.total, List.map_map]
      refine List.sum_eq_zero fun b hb => ?_
      obtain ⟨row, _, rfl⟩ := List.mem_map.mp hb
      exact if_neg (renamed_ne hk row.1.2)
    · simp only [Traffic.bytes, Dict.total, List.map_map]
      rw [← List.sum_map_add]
      congr 1
      refine List.map_congr_left fun row _ => ?_
      exact bytesOf_renamed hk row.1.2 row.2
  · cases h

theorem bytes_of_not_has {table : Traffic} (h : table.has name = false) :
    table.bytes name = 0 := by
  unfold Traffic.has at h
  rw [List.any_eq_false] at h
  simp only [Traffic.bytes, Dict.total]
  refine List.sum_eq_zero fun b hb => ?_
  obtain ⟨row, hrow, rfl⟩ := List.mem_map.mp hb
  exact if_neg (by simpa using h row hrow)

theorem archiveClientHistory_spec
    (h : db.archiveClientHistory name now = some db') :
    db'.trafficOf name = 0 ∧
    db'.trafficOf (archiveKey name now) =
      db.trafficOf (archiveKey name now) + db.trafficOf name ∧
    ∀ id row, db'.sessions.get? id = some row → row.clientName ≠ name := by
  have hk := archiveKey_ne name now
  unfold Database.archiveClientHistory at h
  split at h
  · simp only [Option.bind_eq_bind, Option.bind_eq_some_iff] at h
    obtain ⟨minute, hminute, hour, hhour, day, hday, he⟩ := h
    cases he
    have hm := bytes_rename hminute hk
    have hh := bytes_rename hhour hk
    have hd := bytes_rename hday hk
    refine ⟨?_, ?_, ?_⟩
    · simp only [Database.trafficOf, hm.1, hh.1, hd.1, add_zero]
    · simp only [Database.trafficOf, hm.2, hh.2, hd.2]
      abel
    · intro id row hrow
      rw [Dict.get?_mapValues, Option.map_eq_some_iff] at hrow
      obtain ⟨before, _, rfl⟩ := hrow
      exact renamed_ne hk before.clientName
  · rename_i hnone
    cases h
    simp only [Database.hasHistory, Bool.or_eq_true, not_or, Bool.not_eq_true] at hnone
    obtain ⟨⟨⟨hrows, hminute⟩, hhour⟩, hday⟩ := hnone
    have hzero : db.trafficOf name = 0 := by
      simp only [Database.trafficOf, bytes_of_not_has hminute, bytes_of_not_has hhour,
        bytes_of_not_has hday, add_zero]
    refine ⟨hzero, by rw [hzero, add_zero], fun id row hrow => ?_⟩
    rw [List.any_eq_false] at hrows
    simpa using hrows row (db.sessions.mem_values_iff.mpr ⟨id, hrow⟩)

end Rename

section Traffic

variable {now : Nat} {n : Text}

theorem trafficOf_addTraffic_int (db : Database) (minute : Nat) (cn : Text) {dIn dOut : Int}
    (hin : 0 ≤ dIn) (hout : 0 ≤ dOut) :
    (db.addTraffic minute cn dIn dOut).trafficOf n =
      db.trafficOf n + bytesOf n cn (dIn.toNat, dOut.toNat) := by
  have h := trafficOf_addTraffic n db minute cn (dIn.toNat, dOut.toNat)
  simp only [Int.toNat_of_nonneg hin, Int.toNat_of_nonneg hout] at h
  exact h

theorem countedSince_nonneg (counter before : Nat) : 0 ≤ countedSince counter before := by
  unfold countedSince
  split <;> omega

theorem grownBy_nonneg (counter before : Nat) : 0 ≤ grownBy counter before := le_max_right _ _

theorem trafficOf_pollClient (state : Active × Database) (cl : Client) :
    (pollClient now state cl).2.trafficOf n =
      state.2.trafficOf n + bytesOf n cl.cn (countedBytes now state cl) := by
  obtain ⟨active, db⟩ := state
  unfold pollClient countedBytes
  simp only
  cases active.get? cl.key with
  | some entry =>
      exact trafficOf_addTraffic_int _ _ _ (countedSince_nonneg _ _) (countedSince_nonneg _ _)
  | none =>
      simp only
      cases db.findSession cl.cn cl.cid (cl.connectedAt now) with
      | some found =>
          exact trafficOf_addTraffic_int _ _ _ (grownBy_nonneg _ _) (grownBy_nonneg _ _)
      | none => exact trafficOf_addTraffic n _ _ _ cl.bytes

theorem trafficOf_pollClients (clients : List Client) (state : Active × Database) :
    (clients.foldl (pollClient now) state).2.trafficOf n =
      state.2.trafficOf n + countedFor now (fun cl => decide (cl.cn = n)) clients state := by
  induction clients generalizing state with
  | nil => simp [countedFor]
  | cons cl rest ih =>
      rw [List.foldl_cons, ih, trafficOf_pollClient, countedFor, add_assoc]
      simp only [bytesOf, decide_eq_true_eq]

theorem countedFor_eq_zero {wanted : Client → Bool}
    (h : ∀ cl ∈ clients, wanted cl = false) (state : Active × Database) :
    countedFor now wanted clients state = 0 := by
  induction clients generalizing state with
  | nil => rfl
  | cons cl rest ih =>
      rw [countedFor, h cl List.mem_cons_self,
        ih fun other hother => h other (List.mem_cons_of_mem _ hother)]
      rfl

theorem countedFor_split (wanted p : Client → Bool) (clients : List Client)
    (state : Active × Database) :
    countedFor now wanted clients state =
      countedFor now (fun cl => wanted cl && (p cl == true)) clients state +
        countedFor now (fun cl => wanted cl && (p cl == false)) clients state := by
  induction clients generalizing state with
  | nil => rfl
  | cons cl rest ih =>
      rw [countedFor, countedFor, countedFor, ih]
      cases wanted cl <;> cases p cl <;> simp <;> abel

end Traffic

section Rows

variable (name : Text) (old : Connection → Bool)

def RowsClean (db : Database) : Prop :=
  ∀ id row, db.sessions.get? id = some row → row.clientName = name → old row.connection = false

-- A status lists connections of the old certificate only as `_active` has them,
-- with the same counters.
def KnownOld (now : Nat) (active : Active) (clients : List Client) : Prop :=
  ∀ cl ∈ clients, cl.cn = name → old (cl.connection now) = true →
    (active.get? cl.key).map Entry.bytes = some cl.bytes

instance (now : Nat) (active : Active) (clients : List Client) :
    Decidable (KnownOld name old now active clients) := by
  unfold KnownOld
  infer_instance

-- Not the end of a session of the old certificate whose handshake is still
-- pending.
def NoOldEnd (pending : Pending) : LogLine → Prop
  | .ended _ address (some cn) _ => cn = name → ∀ peer ∈ pending.get? address,
      peer.cn = some name → old ⟨none, peer.ts, address⟩ = false
  | _ => True

instance (pending : Pending) (line : LogLine) : Decidable (NoOldEnd name old pending line) := by
  unfold NoOldEnd
  split <;> infer_instance

def NoOldEnds (pending : Pending) : List LogLine → Prop
  | [] => True
  | line :: rest => NoOldEnd name old pending line ∧ NoOldEnds (pendingLine pending line) rest

instance decidableNoOldEnds (pending : Pending) (lines : List LogLine) :
    Decidable (NoOldEnds name old pending lines) :=
  match lines with
  | [] => isTrue trivial
  | line :: rest =>
      have := decidableNoOldEnds (pendingLine pending line) rest
      inferInstanceAs (Decidable (_ ∧ _))

def NoOldEndsIn (pending : Pending) : List LogRead → Prop
  | [] => True
  | file :: rest => file.commits = true →
      NoOldEnds name old pending file.lines ∧ NoOldEndsIn (pendingAfter pending file.lines) rest

instance decidableNoOldEndsIn (pending : Pending) (files : List LogRead) :
    Decidable (NoOldEndsIn name old pending files) :=
  match files with
  | [] => isTrue trivial
  | file :: rest =>
      have := decidableNoOldEndsIn (pendingAfter pending file.lines) rest
      inferInstanceAs (Decidable (_ → _))

def SameOwner (f : Session → Session) : Prop :=
  ∀ row, (f row).clientName = row.clientName ∧ (f row).connection = row.connection

theorem sameOwner_withDevice (address : Text) (peer : Peer) :
    SameOwner (Session.withDevice address peer) := fun _ => ⟨rfl, rfl⟩

theorem sameOwner_endReason (reason : Text) :
    SameOwner fun row => { row with endReason := some reason } := fun _ => ⟨rfl, rfl⟩

theorem sameOwner_closed (now : Nat) (reason : Option Text) :
    SameOwner (Session.closed now reason) := by
  intro row
  unfold Session.closed
  split <;> exact ⟨rfl, rfl⟩

theorem sameOwner_closedStale : SameOwner Session.closedStale := by
  intro row
  unfold Session.closedStale
  split <;> exact ⟨rfl, rfl⟩

theorem sameOwner_closedUnless (ids : List Nat) (id : Nat) :
    SameOwner (Session.closedUnless ids id) := by
  intro row
  unfold Session.closedUnless
  split <;> exact ⟨rfl, rfl⟩

variable {name old} {db : Database} {now : Nat}

theorem RowsClean.mapValues (h : RowsClean name old db)
    {f : Nat → Session → Session} (hs : db'.sessions = db.sessions.mapValues f)
    (hf : ∀ id, SameOwner (f id)) : RowsClean name old db' := by
  intro id row hrow hname
  rw [hs, Dict.get?_mapValues, Option.map_eq_some_iff] at hrow
  obtain ⟨before, hbefore, rfl⟩ := hrow
  rw [(hf id before).1] at hname
  rw [(hf id before).2]
  exact h id before hbefore hname

theorem RowsClean.update (h : RowsClean name old db) (id : Nat) {f : Session → Session}
    (hf : SameOwner f) : RowsClean name old (db.updateSession id f) := by
  refine h.mapValues (f := fun id' row => if id' = id then f row else row) rfl fun id' row => ?_
  simp only
  by_cases hid : id' = id
  · rw [if_pos hid]
    exact hf row
  · rw [if_neg hid]
    exact ⟨rfl, rfl⟩

theorem RowsClean.insert (h : RowsClean name old db) {row : Session}
    (hrow : row.clientName = name → old row.connection = false) :
    RowsClean name old (db.insertSession row).2 := by
  intro id row' hrow' hname
  rcases Dict.get?_set_cases hrow' with ⟨_, rfl⟩ | ⟨_, hold⟩
  · exact hrow hname
  · exact h id row' hold hname

theorem RowsClean.congr (h : RowsClean name old db)
    (hs : db'.sessions = db.sessions) : RowsClean name old db' := by
  intro id row hrow
  rw [hs] at hrow
  exact h id row hrow

theorem RowsClean.pollClient {cl : Client} (h : RowsClean name old db)
    (hknown : cl.cn = name → old (cl.connection now) = true → active.get? cl.key ≠ none) :
    RowsClean name old (pollClient now (active, db) cl).2 := by
  unfold Collector.pollClient
  simp only
  cases ha : active.get? cl.key with
  | some entry =>
      have hrefreshed := h.update entry.sessionId (f := Session.refreshed now cl)
        fun row => ⟨rfl, rfl⟩
      exact hrefreshed.congr (addTraffic_sessions _ _ _ _ _)
  | none =>
      simp only
      cases db.findSession cl.cn cl.cid (cl.connectedAt now) with
      | some found =>
          have hreopened := h.update found.1 (f := Session.reopened now cl) fun row => ⟨rfl, rfl⟩
          exact hreopened.congr (addTraffic_sessions _ _ _ _ _)
      | none =>
          have hinserted : RowsClean name old (db.insertSession (cl.row now)).2 :=
            h.insert fun hname => by
              rw [← Bool.not_eq_true]
              exact fun hold => hknown hname hold ha
          exact hinserted.congr (addTraffic_sessions _ _ _ _ _)

theorem pollClient_get?_ne (active : Active) (db : Database) (cl : Client) {k : Key}
    (h : k ≠ cl.key) : (pollClient now (active, db) cl).1.get? k = active.get? k := by
  unfold pollClient
  simp only
  cases active.get? cl.key with
  | some entry => exact Dict.get?_set_ne _ _ h
  | none =>
      simp only
      cases db.findSession cl.cn cl.cid (cl.connectedAt now) with
      | some found => exact Dict.get?_set_ne _ _ h
      | none => exact Dict.get?_set_ne _ _ h

theorem KnownOld.tail {cl : Client} {rest : List Client}
    (h : KnownOld name old now active (cl :: rest))
    (hkeys : ((cl :: rest).map Client.key).Nodup) (db : Database) :
    KnownOld name old now (pollClient now (active, db) cl).1 rest := by
  rw [List.map_cons, List.nodup_cons] at hkeys
  intro other hother hname hold
  have hne : other.key ≠ cl.key := fun he => hkeys.1 (he ▸ List.mem_map_of_mem hother)
  rw [pollClient_get?_ne active db cl hne]
  exact h other (List.mem_cons_of_mem _ hother) hname hold

theorem RowsClean.pollClients
    (h : RowsClean name old db) (hknown : KnownOld name old now active clients)
    (hkeys : (clients.map Client.key).Nodup) :
    RowsClean name old (clients.foldl (Collector.pollClient now) (active, db)).2 := by
  induction clients generalizing active db with
  | nil => exact h
  | cons cl rest ih =>
      have hrest := hknown.tail hkeys db
      have hrows : RowsClean name old (Collector.pollClient now (active, db) cl).2 := by
        refine h.pollClient fun hname hold hnone => ?_
        have hentry := hknown cl List.mem_cons_self hname hold
        rw [hnone] at hentry
        cases hentry
      rw [List.map_cons, List.nodup_cons] at hkeys
      exact ih hrows hrest hkeys.2

theorem KnownOld.countedFor
    (hknown : KnownOld name old now active clients) (hkeys : (clients.map Client.key).Nodup) :
    countedFor now (fun cl => decide (cl.cn = name) && (old (cl.connection now) == true)) clients
      (active, db) = 0 := by
  induction clients generalizing active db with
  | nil => rfl
  | cons cl rest ih =>
      have hrest := hknown.tail hkeys db
      rw [List.map_cons, List.nodup_cons] at hkeys
      rw [Collector.countedFor, ih hrest hkeys.2, add_zero]
      by_cases hold : cl.cn = name ∧ old (cl.connection now) = true
      · have hentry := hknown cl List.mem_cons_self hold.1 hold.2
        rw [Option.map_eq_some_iff] at hentry
        obtain ⟨entry, he, hbytes⟩ := hentry
        have hzero (n : Nat) : (countedSince n n).toNat = 0 := by simp [countedSince]
        simp only [countedBytes, he, hbytes, hzero, hold.1, hold.2]
        rfl
      · have hskip : (decide (cl.cn = name) && (old (cl.connection now) == true)) = false := by
          simpa using hold
        rw [hskip]
        rfl

end Rows

section Kept

structure KeepsHistory (db db' : Database) : Prop where
  traffic : ∀ n, db'.trafficOf n = db.trafficOf n
  rows : ∀ name old, RowsClean name old db → RowsClean name old db'

variable {db db' db'' : Database} {now : Nat}

theorem KeepsHistory.refl (db : Database) : KeepsHistory db db := ⟨fun _ => rfl, fun _ _ h => h⟩

theorem KeepsHistory.trans (h : KeepsHistory db db') (h' : KeepsHistory db' db'') :
    KeepsHistory db db'' :=
  ⟨fun n => (h'.traffic n).trans (h.traffic n),
    fun name old hr => h'.rows name old (h.rows name old hr)⟩

theorem keepsHistory_closeSessions (now : Nat) (reason : Option Text) (keys : List Key)
    (state : Active × Database) :
    KeepsHistory state.2 (closeSessions now reason keys state).2 := by
  refine closeSessions_preserves (P := fun state' => KeepsHistory state.2 state'.2)
    (fun active current k entry _ h => ?_) keys (KeepsHistory.refl _)
  exact ⟨h.traffic, fun name old hr => (h.rows name old hr).update _ (sameOwner_closed now reason)⟩

theorem keepsHistory_closeOthers {ids : List Nat} (h : db.closeOthers ids = some db') :
    KeepsHistory db db' := by
  unfold Database.closeOthers at h
  split at h
  · cases h
  · cases h
    exact ⟨fun _ => rfl, fun name old hr => hr.mapValues rfl (sameOwner_closedUnless ids)⟩

theorem keepsHistory_closeStaleSessions (db : Database) :
    KeepsHistory db db.closeStaleSessions :=
  ⟨fun _ => rfl, fun _ _ hr =>
    hr.mapValues (f := fun _ row => row.closedStale) rfl fun _ => sameOwner_closedStale⟩

theorem keepsHistory_rollup (db : Database) (now : Nat) : KeepsHistory db (db.rollup now) :=
  ⟨fun n => trafficOf_rollup n db now, fun _ _ hr => hr⟩

theorem keepsHistory_pollTx {resync : Bool} {active' : Active}
    (h : pollTx now resync active db status = some (active', db')) :
    KeepsHistory (status.counted.foldl (pollClient now) (active, db)).2 db' := by
  unfold pollTx pollLoops at h
  simp only at h
  have hclose := keepsHistory_closeSessions now none
    ((status.counted.foldl (pollClient now) (active, db)).1.keys.filter
      (· ∉ status.counted.map Client.key)) (status.counted.foldl (pollClient now) (active, db))
  split at h
  · rw [Option.map_eq_some_iff] at h
    obtain ⟨closed, hothers, he⟩ := h
    cases he
    exact hclose.trans (keepsHistory_closeOthers hothers)
  · cases h
    exact hclose

theorem keepsHistory_handleDown (c : CollectorState) (db : Database) (now : Nat) (fails : Bool) :
    KeepsHistory db (c.handleDown db now fails).2 := by
  unfold CollectorState.handleDown
  split
  · exact KeepsHistory.refl db
  · split
    · exact KeepsHistory.refl db
    · exact keepsHistory_closeSessions now _ _ (c.active, db)

end Kept

section Logs

variable {name : Text} {old : Connection → Bool}

theorem logStable_trafficOf (n : Text) (bytes : Bytes) :
    LogStable fun db => db.trafficOf n = bytes :=
  ⟨fun _ _ _ _ h => h, fun _ _ _ _ _ h => h, fun _ _ _ _ _ h => h⟩

theorem RowsClean.lineRows (h : RowsClean name old db)
    {line : LogLine} {rest : List LogLine} (hends : NoOldEnds name old pending (line :: rest)) :
    RowsClean name old (lineRows (line.address?.bind pending.get?) db line) := by
  cases line with
  | rejection ts client reason address => exact h
  | info ts address key value => exact h
  | opened ts address cn => exact h
  | ended ts address cn reason =>
      cases cn with
      | none => exact h
      | some cn =>
          simp only [Collector.lineRows, LogLine.address?, Option.bind_some]
          unfold endSession
          split
          · exact h.update _ (sameOwner_endReason reason)
          · exact (h.update _ (sameOwner_endReason reason)).update _ (sameOwner_withDevice _ _)
          · rename_i peer _ hpeer
            by_cases hcn : peer.cn = some cn
            · rw [if_pos hcn]
              refine (h.insert fun hname => ?_).update _ (sameOwner_withDevice _ _)
              change cn = name at hname
              subst hname
              exact hends.1 rfl peer hpeer hcn
            · rw [if_neg hcn]
              exact h
          · exact h

theorem RowsClean.logLines (h : RowsClean name old db)
    {lines : List LogLine} (hends : NoOldEnds name old pending lines) :
    RowsClean name old (lines.foldl logLine (pending, db)).2 := by
  induction lines generalizing pending db with
  | nil => exact h
  | cons line rest ih =>
      rw [List.foldl_cons, logLine_eq]
      exact ih (h.lineRows hends) hends.2

theorem RowsClean.describe (h : RowsClean name old db) (now : Nat)
    (items : List (Text × Peer)) (pending : Pending) :
    RowsClean name old (items.foldl (describeOne now) (pending, db)).2 := by
  induction items generalizing pending db with
  | nil => exact h
  | cons item rest ih =>
      have hone : RowsClean name old (describeOne now (pending, db) item).2 := by
        unfold describeOne
        simp only
        split
        · exact h.update _ (sameOwner_withDevice _ _)
        · split <;> exact h
      exact ih hone _

theorem RowsClean.readLogs (h : RowsClean name old db) (now : Nat)
    (stops : Option Nat) {files : List LogRead}
    (hends : NoOldEndsIn name old pending files) :
    RowsClean name old (readLogs now stops files (pending, db)).2 := by
  induction files generalizing pending db with
  | nil =>
      unfold Collector.readLogs
      split
      · exact h
      · unfold describeSessions
        split
        · exact h.describe now _ _
        · exact h
  | cons file rest ih =>
      unfold Collector.readLogs
      simp only
      split
      · rename_i hcommits
        have hboth := hends hcommits
        have hrows := h.logLines hboth.1
        have hpending := foldl_logLine_fst file.lines pending db
        generalize file.lines.foldl logLine (pending, db) = read at hrows hpending
        obtain ⟨pending', db'⟩ := read
        simp only at hrows hpending
        subst hpending
        exact ih hrows hboth.2
      · exact h

end Logs

section Runs

variable (name : Text) (old : Connection → Bool)

-- A status lists a connection once, and a client's name has no '#'.
def StatusKeeps (_ : History) : HistoryStep → Prop
  | .turn (.poll status _ _) =>
      (status.counted.map Client.key).Nodup ∧ ∀ cl ∈ status.counted, '#' ∉ cl.cn
  | _ => True

-- After the archive step, no status and no log tells anything new of a connection
-- of the old certificate.
def OldIsOver (h : History) : HistoryStep → Prop
  | .turn (.poll status now fails) =>
      h.archivedAs ≠ none → fails = true ∨ h.world.collector.unchanged status = true ∨
        KnownOld name old now h.world.collector.active status.counted
  | .turn (.readLogs _ files _) =>
      h.archivedAs ≠ none → NoOldEndsIn name old h.world.collector.pending files
  | _ => True

instance (h : History) (label : HistoryStep) : Decidable (StatusKeeps h label) := by
  unfold StatusKeeps
  split <;> infer_instance

instance (h : History) (label : HistoryStep) : Decidable (OldIsOver name old h label) := by
  unfold OldIsOver
  split <;> infer_instance

structure HistoryInv (h : History) : Prop where
  fresh : h.archivedAs = none → (∀ n, '#' ∈ n → h.world.db.trafficOf n = 0) ∧
    h.world.db.trafficOf name = h.oldBytes + h.newBytes
  clean : ∀ key, h.archivedAs = some key → '#' ∈ key ∧ key ≠ name ∧
    RowsClean name old h.world.db ∧ h.world.db.trafficOf name = h.newBytes ∧
    h.world.db.trafficOf key = h.oldBytes + h.archivedNew

variable {name old} {h : History}

theorem historyInv_init : HistoryInv name old .init := by
  refine ⟨fun _ => ⟨fun _ _ => rfl, rfl⟩, fun key hkey => ?_⟩
  cases hkey

theorem HistoryInv.keep (hi : HistoryInv name old h) {world : World}
    (hk : KeepsHistory h.world.db world.db) : HistoryInv name old { h with world } := by
  refine ⟨fun hnone => ?_, fun key hkey => ?_⟩
  · obtain ⟨hzero, hname⟩ := hi.fresh hnone
    exact ⟨fun n hn => (hk.traffic n).trans (hzero n hn), (hk.traffic name).trans hname⟩
  · obtain ⟨hhash, hne, hrows, hbytes, harchived⟩ := hi.clean key hkey
    exact ⟨hhash, hne, hk.rows name old hrows, (hk.traffic name).trans hbytes,
      (hk.traffic key).trans harchived⟩

theorem HistoryInv.archive (hi : HistoryInv name old h)
    (hnone : h.archivedAs = none) (ha : h.world.db.archiveClientHistory name now = some db) :
    HistoryInv name old { h with
      world := { h.world with db }
      archivedAs := some (archiveKey name now)
      archivedNew := h.newBytes
      newBytes := 0 } := by
  obtain ⟨hzero, hname⟩ := hi.fresh hnone
  obtain ⟨hgone, hmoved, hrows⟩ := archiveClientHistory_spec ha
  have hhash : '#' ∈ archiveKey name now := by simp [archiveKey]
  refine ⟨fun hn => (by cases hn), fun key hkey => ?_⟩
  cases hkey
  refine ⟨hhash, archiveKey_ne name now, ?_, hgone, ?_⟩
  · exact fun id row hrow he => absurd he (hrows id row hrow)
  · rw [hmoved, hzero _ hhash, zero_add, hname]

theorem HistoryInv.poll (hi : HistoryInv name old h)
    {world : World}
    (htx : pollTx now h.world.collector.resync h.world.collector.active h.world.db status =
      some (active, world.db))
    (hkeys : (status.counted.map Client.key).Nodup) (hnames : ∀ cl ∈ status.counted, '#' ∉ cl.cn)
    (hold : h.archivedAs ≠ none →
      KnownOld name old now h.world.collector.active status.counted) :
    HistoryInv name old { h with
      world
      oldBytes := h.oldBytes + h.counted name old status now true
      newBytes := h.newBytes + h.counted name old status now false } := by
  have hk := keepsHistory_pollTx htx
  have hhash (n : Text) (hn : '#' ∈ n) : world.db.trafficOf n = h.world.db.trafficOf n := by
    rw [hk.traffic, trafficOf_pollClients, countedFor_eq_zero, add_zero]
    intro cl hcl
    rw [decide_eq_false_iff_not]
    exact fun he => hnames cl hcl (he ▸ hn)
  have hown : world.db.trafficOf name = h.world.db.trafficOf name +
      (h.counted name old status now true + h.counted name old status now false) := by
    rw [hk.traffic, trafficOf_pollClients,
      countedFor_split _ (fun cl => old (cl.connection now))]
    rfl
  refine ⟨fun hnone => ?_, fun key hkey => ?_⟩
  · obtain ⟨hzero, hname⟩ := hi.fresh hnone
    refine ⟨fun n hn => (hhash n hn).trans (hzero n hn), ?_⟩
    simp only [hown, hname]
    abel
  · obtain ⟨hkeyhash, hne, hrows, hbytes, harchived⟩ := hi.clean key hkey
    have hknown := hold (by rw [show h.archivedAs = some key from hkey]; simp)
    have hzero : h.counted name old status now true = 0 := hknown.countedFor hkeys
    refine ⟨hkeyhash, hne, hk.rows name old (hrows.pollClients hknown hkeys), ?_, ?_⟩
    · simp only [hown, hbytes, hzero, zero_add]
    · simp only [hhash key hkeyhash, harchived, hzero, add_zero]

theorem HistoryInv.readLogs (hi : HistoryInv name old h) {stops : Option Nat}
    {files : List LogRead} {collector : CollectorState}
    (hold : h.archivedAs ≠ none →
      NoOldEndsIn name old h.world.collector.pending files) :
    HistoryInv name old { h with
      world := ⟨collector, (Collector.readLogs now stops files
        (h.world.collector.pending, h.world.db)).2⟩ } := by
  have htraffic (n : Text) : (Collector.readLogs now stops files
      (h.world.collector.pending, h.world.db)).2.trafficOf n = h.world.db.trafficOf n :=
    (logStable_trafficOf n _).readLogs now stops files rfl
  refine ⟨fun hnone => ?_, fun key hkey => ?_⟩
  · obtain ⟨hzero, hname⟩ := hi.fresh hnone
    exact ⟨fun n hn => (htraffic n).trans (hzero n hn), (htraffic name).trans hname⟩
  · obtain ⟨hhash, hne, hrows, hbytes, harchived⟩ := hi.clean key hkey
    have hends := hold (by rw [show h.archivedAs = some key from hkey]; simp)
    exact ⟨hhash, hne, hrows.readLogs now stops hends, (htraffic name).trans hbytes,
      (htraffic key).trans harchived⟩

theorem historyInv_poll (hi : HistoryInv name old h) {h' : History}
    {fails : Bool} (hs : h.step name old (.turn (.poll status now fails)) = some h')
    (hkeeps : StatusKeeps h (.turn (.poll status now fails)))
    (hover : OldIsOver name old h (.turn (.poll status now fails))) : HistoryInv name old h' := by
  simp only [History.step, World.step, CollectorState.poll] at hs
  cases ho : pollOutcome h.world.collector h.world.db status now fails with
  | skipped =>
      rw [ho] at hs
      cases hs
      exact hi.keep (KeepsHistory.refl _)
  | rolledBack =>
      rw [ho] at hs
      cases hs
      exact hi.keep (KeepsHistory.refl _)
  | committed active db =>
      obtain ⟨hunchanged, htx⟩ := pollOutcome_committed ho
      have hfails : fails = false := by
        cases fails with
        | false => rfl
        | true => simp [pollOutcome, hunchanged] at ho
      rw [ho] at hs
      cases hs
      refine hi.poll htx hkeeps.1 hkeeps.2 fun harchived => ?_
      rcases hover harchived with hf | hu | hknown
      · rw [hfails] at hf
        cases hf
      · rw [hunchanged] at hu
        cases hu
      · exact hknown

theorem historyInv_step (hi : HistoryInv name old h) {h' : History} {label : HistoryStep}
    (hs : h.step name old label = some h') (hkeeps : StatusKeeps h label)
    (hover : OldIsOver name old h label) : HistoryInv name old h' := by
  cases label with
  | archive now =>
      simp only [History.step] at hs
      by_cases hnone : h.archivedAs = none
      · rw [if_pos hnone] at hs
        cases ha : h.world.db.archiveClientHistory name now with
        | none =>
            rw [ha] at hs
            cases hs
            exact hi
        | some db =>
            rw [ha] at hs
            cases hs
            exact hi.archive hnone ha
      · rw [if_neg hnone] at hs
        cases hs
  | turn turn =>
      cases turn with
      | poll status now fails => exact historyInv_poll hi hs hkeeps hover
      | down now fails =>
          cases hs
          exact hi.keep (keepsHistory_handleDown _ _ now fails)
      | restart closes =>
          cases hs
          refine hi.keep ?_
          cases closes with
          | false => exact KeepsHistory.refl _
          | true => exact keepsHistory_closeStaleSessions _
      | readLogs now files stops =>
          cases hs
          exact hi.readLogs hover
      | rollup now =>
          cases hs
          exact hi.keep (keepsHistory_rollup _ now)

end Runs

section Sample

def aliceClient (cid since bytes : Nat) : Client :=
  ⟨"alice".toList, "udp4:1.2.3.4:5".toList, "10.8.0.2".toList, (bytes, bytes), since, [], cid, []⟩

def listing (time now : Nat) (clients : List Client) : HistoryStep :=
  .turn (.poll ⟨time, clients, true⟩ now false)

def beforeNew (connection : Connection) : Bool := decide (connection.since < 210)

-- The old connection is listed once more after the archive step, with the same
-- counters, and then a new one.
def newAlice : List HistoryStep :=
  [listing 200 201 [aliceClient 0 100 5], .archive 210, listing 205 211 [aliceClient 0 100 5],
    listing 230 231 [aliceClient 1 220 3]]

example : ∃ h,
    runSteps (History.step "alice".toList beforeNew) .init
      [listing 200 201 [aliceClient 0 100 5], .archive 210, .turn (.restart true),
        listing 205 211 [aliceClient 0 100 5]] = some h ∧
    h.world.db.sessions.values.map (fun row => (row.clientName, row.connectedAt)) =
      [("alice#210".toList, 100), ("alice".toList, 100)] :=
  ⟨_, rfl, by decide⟩

end Sample

end OpenvpnServer.Collector
