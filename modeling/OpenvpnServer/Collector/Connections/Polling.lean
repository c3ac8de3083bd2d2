import OpenvpnServer.Collector.Connections.Rows

namespace OpenvpnServer.Collector

open OpenvpnServer.Lib

variable {row : Session} {bytes : Bytes}

section Books

variable {conns conns' : List Link} {unread unread' : List (Nat × LogLine)} {status : Status}
  {pending : Pending} {active active' : Active} {db db' : Database}
  {phase phase' : Nat → Session → Prop} {c : Nat}

def Known (conns : List Link) (unread : List (Nat × LogLine)) (pending : Pending) (c : Nat) :
    Prop :=
  HeardOpen conns unread c ∧ ∀ conn, conns[c]? = some conn → ¬HeardEnd conns unread c →
    pending.get? conn.address = none

-- All of it together; `phase` is what may be true of a row, during a turn, whose
-- handshake the log has still to tell of.
structure Books (conns : List Link) (unread : List (Nat × LogLine)) (status : Status)
    (pending : Pending) (phase : Nat → Session → Prop) (active : Active) (db : Database) :
    Prop where
  filed : ∃ own, Filed conns unread status active db own
  spaced : Spaced conns unread status active
  queued : Queued conns unread pending db
  known : ∀ id row c, db.sessions.get? id = some row → row.cid = some c →
    Known conns unread pending c ∨ phase c row

-- Between turns there is no such row; while the listed clients are polled it is open and
-- listed, and after that, until the logs are read, it is open.
def AtRest : Nat → Session → Prop := fun _ _ => False

def Listing (status : Status) : Nat → Session → Prop := fun c row =>
  row.disconnectedAt = none ∧ ¬Unlisted status c

def Unclosed : Nat → Session → Prop := fun _ row => row.disconnectedAt = none

theorem Books.weaken (hphase : ∀ c row, phase c row → phase' c row)
    (h : Books conns unread status pending phase active db) :
    Books conns unread status pending phase' active db :=
  ⟨h.filed, h.spaced, h.queued, fun id row c hrow hcid =>
    (h.known id row c hrow hcid).imp_right (hphase c row)⟩

theorem known_writes (hw : Writes conns unread conns' unread')
    (h : Known conns unread pending c) : Known conns' unread' pending c := by
  refine ⟨(heardOpen_writes hw c).mpr h.1, fun conn' hget hunended => ?_⟩
  rw [heardEnd_writes hw] at hunended
  obtain ⟨conn, hold, -⟩ := h.1.1
  obtain ⟨grown, hget', hgrown⟩ := hw.link hold
  obtain rfl := Option.some.inj (hget'.symm.trans hget)
  rw [hgrown.address]
  exact h.2 conn hold hunended

theorem Books.writes (hwired : Wired conns unread) (hw : Writes conns unread conns' unread')
    (hfree : ∀ new, conns' = conns ++ [new] → Free conns unread status active new)
    (h : Books conns unread status pending phase active db) :
    Books conns' unread' status pending phase active db := by
  obtain ⟨own, hfiled⟩ := h.filed
  exact ⟨⟨own, hfiled.writes hw⟩, h.spaced.writes hw hfree, h.queued.writes hwired hw,
    fun id row c hrow hcid => (h.known id row c hrow hcid).imp_left (known_writes hw)⟩

theorem Books.rewrite {status' : Status} (hstatus : UpToDate conns status')
    (h : Books conns unread status pending phase active db) :
    Books conns unread status' pending phase active db := by
  obtain ⟨own, hfiled⟩ := h.filed
  exact ⟨⟨own, hfiled.rewrite hstatus⟩, h.spaced.rewrite hstatus, h.queued, h.known⟩

end Books

section Poll

variable {conns : List Link} {unread : List (Nat × LogLine)} {status : Status}
  {pending : Pending} {active : Active} {db db' : Database} {now : Nat} {cl : Client}
  {f : Session → Session}

theorem KeepsOwner.one (hf : KeepsOwner fun _ => f) (id : Nat) :
    KeepsOwner fun id' row => if id' = id then f row else row := by
  refine ⟨fun id' row => ?_, fun id' row => ?_, fun id' row => ?_, fun id' row => ?_⟩ <;> split
  · exact hf.clientName id' row
  · rfl
  · exact hf.realAddress id' row
  · rfl
  · exact hf.cid id' row
  · rfl
  · exact hf.connectedAt id' row
  · rfl

theorem keepsOwner_closed (now : Nat) : KeepsOwner fun _ => Session.closed now none := by
  refine ⟨fun _ row => ?_, fun _ row => ?_, fun _ row => ?_, fun _ row => ?_⟩ <;>
    unfold Session.closed <;> split <;> rfl

theorem keepsOwner_refreshed (now : Nat) (cl : Client) :
    KeepsOwner fun _ => Session.refreshed now cl :=
  ⟨fun _ _ => rfl, fun _ _ => rfl, fun _ _ => rfl, fun _ _ => rfl⟩

theorem keepsOwner_reopened (now : Nat) (cl : Client) :
    KeepsOwner fun _ => Session.reopened now cl :=
  ⟨fun _ _ => rfl, fun _ _ => rfl, fun _ _ => rfl, fun _ _ => rfl⟩

theorem Filed.opens_set {own : Nat → Nat} (h : Filed conns unread status active db own) {id : Nat}
    (hrow : db.sessions.get? id = some row) (hopen : row.disconnectedAt = none)
    {k : Key} (hkey : row.key? ≠ some k) (new : Entry) :
    ∃ key entry, (active.set k new).get? key = some entry ∧ entry.sessionId = id := by
  obtain ⟨key, entry, hentry, hid⟩ := h.opens id row hrow hopen
  refine ⟨key, entry, ?_, hid⟩
  rw [Dict.get?_set_ne _ _ ?_]
  · exact hentry
  · rintro rfl
    obtain ⟨other, hother, hkey'⟩ := h.linked.linked _ entry hentry
    rw [hid, hrow, Option.some.injEq] at hother
    subst hother
    exact hkey hkey'

theorem Spaced.set (h : Spaced conns unread status active) {key : Key}
    (hlisted : ¬Unlisted status key.cid) (new : Entry) :
    Spaced conns unread status (active.set key new) := by
  refine h.mono (fun d hend => hend) fun other entry hentry => ?_
  rcases Dict.get?_set_cases hentry with ⟨rfl, -⟩ | ⟨-, hold⟩
  · exact .inr hlisted
  · exact .inl ⟨entry, hold⟩

theorem seenIn_insert (h : Linked active db) {c : Nat}
    (hs : db'.sessions = db.sessions.set db.nextId row) (hseen : SeenIn db c) : SeenIn db' c := by
  obtain ⟨id, old, hold, hcid⟩ := hseen
  refine ⟨id, old, ?_, hcid⟩
  rw [hs, Dict.get?_set_ne _ _ (h.below id old hold).ne]
  exact hold

theorem Books.touch (h : Books conns unread status pending (Listing status) active db)
    (hcl : cl ∈ status.counted) (hf : KeepsOwner fun _ => f) {id : Nat}
    (hrow : db.sessions.get? id = some row) (hkey : row.key? = some cl.key)
    (hreason : (f row).endReason = row.endReason)
    (hopen : (f row).disconnectedAt = none ∨ (f row).disconnectedAt = row.disconnectedAt)
    (hs : db'.sessions = db.sessions.set id (f row))
    (hlinked : Linked (active.set cl.key ⟨id, bytes⟩) db') :
    Books conns unread status pending (Listing status) (active.set cl.key ⟨id, bytes⟩) db' := by
  obtain ⟨own, hfiled⟩ := h.filed
  rw [← Dict.modify_eq_set _ f hrow] at hs
  have hcid : row.cid = some cl.cid := (key?_eq_some_iff.mp hkey).2.1
  have hlisted : ¬Unlisted status cl.cid := fun hunlisted => hunlisted cl hcl rfl
  refine ⟨⟨own, hfiled.mapRows (hf.one id) hs hlinked ?_ ?_ ?_⟩, ?_, ?_, ?_⟩
  · intro id' row' hrow' hnone hclosed
    split
    · rename_i heq
      subst heq
      obtain rfl := Option.some.inj (hrow'.symm.trans hrow)
      rw [hcid] at hnone
      cases hnone
    · exact hclosed
  · intro id' row' hrow' hnone
    by_cases heq : id' = id
    · exact ⟨cl.key, ⟨id, bytes⟩, Dict.get?_set_self _ _ _, heq.symm⟩
    · rw [if_neg heq] at hnone
      exact hfiled.opens_set hrow' hnone (fun hkey' =>
        heq (hfiled.linked.unique id' id row' row cl.key hrow' hrow hkey' hkey)) _
  · intro id' row' hrow' hend
    split
    · rename_i heq
      subst heq
      obtain rfl := Option.some.inj (hrow'.symm.trans hrow)
      exact hreason
    · rfl
  · exact h.spaced.set hlisted _
  · exact h.queued.mono fun c => seenIn_mapped (hf.one id) hs
  · intro id' row' c hrow' hcid'
    rw [hs] at hrow'
    rcases Dict.get?_modify_cases hrow' with ⟨rfl, old, hold, rfl⟩ | ⟨-, hold⟩
    · obtain rfl := Option.some.inj (hold.symm.trans hrow)
      rw [hf.cid id', hcid, Option.some.injEq] at hcid'
      subst hcid'
      refine (h.known id' old cl.cid hrow hcid).imp_right fun hphase => ⟨?_, hlisted⟩
      exact hopen.elim id fun heq => heq.trans hphase.1
    · exact h.known id' row' c hold hcid'

theorem realAddress_pollClient {id : Nat}
    (hrow : (pollClient now (active, db) cl).2.sessions.get? id = some row) :
    row.realAddress = cl.realAddress ∨
      ∃ old, db.sessions.get? id = some old ∧ row.realAddress = old.realAddress := by
  have hmodified {id' : Nat} {g : Session → Session} (hg : KeepsOwner fun _ => g)
      (hget : (db.updateSession id' g).sessions.get? id = some row) :
      ∃ old, db.sessions.get? id = some old ∧ row.realAddress = old.realAddress := by
    rcases Dict.get?_modify_cases hget with ⟨rfl, old, hold, rfl⟩ | ⟨-, hold⟩
    · exact ⟨old, hold, hg.realAddress id old⟩
    · exact ⟨row, hold, rfl⟩
  unfold pollClient at hrow
  dsimp only at hrow
  split at hrow
  · rw [addTraffic_sessions] at hrow
    exact .inr (hmodified (keepsOwner_refreshed now cl) hrow)
  · split at hrow
    · rw [addTraffic_sessions] at hrow
      exact .inr (hmodified (keepsOwner_reopened now cl) hrow)
    · rw [addTraffic_sessions] at hrow
      rcases Dict.get?_set_cases hrow with ⟨-, rfl⟩ | ⟨-, hold⟩
      · exact .inl rfl
      · exact .inr ⟨row, hold, rfl⟩

theorem Books.insert (h : Books conns unread status pending (Listing status) active db)
    (hcl : cl ∈ status.counted)
    (hnone : ∀ id old, db.sessions.get? id = some old → old.key? ≠ some cl.key)
    (hkey : row.key? = some cl.key) (haddress : row.realAddress = cl.realAddress)
    (hopen : row.disconnectedAt = none) (hs : db'.sessions = db.sessions.set db.nextId row)
    (hlinked : Linked (active.set cl.key ⟨db.nextId, bytes⟩) db') :
    Books conns unread status pending (Listing status)
      (active.set cl.key ⟨db.nextId, bytes⟩) db' := by
  obtain ⟨own, hfiled⟩ := h.filed
  obtain ⟨conn, hget, hopened, hsince, hcn, hat, hseen⟩ := hfiled.listed cl hcl
  obtain ⟨hname, hcid, hconnected⟩ := key?_eq_some_iff.mp hkey
  have hlisted : ¬Unlisted status cl.cid := fun hunlisted => hunlisted cl hcl rfl
  -- a polled row of the connection would have been found, and a logged one is of a
  -- connection that is not listed
  have hno (id : Nat) (old : Session) (hold : db.sessions.get? id = some old) :
      own id ≠ cl.cid := by
    intro hown
    obtain ⟨other, hother, -, hcn', -, hkind⟩ := (hfiled.owned id old hold).of_link
    rw [hown] at hother hkind
    obtain rfl := Option.some.inj (hother.symm.trans hget)
    cases hkind with
    | polled hcid' hsince' =>
        refine hnone id old hold (key?_eq_some_iff.mpr ⟨hcn'.trans hcn.symm, hcid', ?_⟩)
        exact hsince'.trans hsince.symm
    | logged hcid' hopened' hclosed hend hunlisted => exact hlisted hunlisted
  have hback {id : Nat} {r : Session} (hr : db'.sessions.get? id = some r) :
      (id = db.nextId ∧ r = row) ∨ (id ≠ db.nextId ∧ db.sessions.get? id = some r) := by
    rw [hs] at hr
    exact Dict.get?_set_cases hr
  have howned : Owned conns unread status cl.cid row :=
    ⟨conn, hget, hopened, hname.trans hcn, haddress.trans hat,
      .polled hcid (hconnected.trans hsince)⟩
  refine ⟨⟨_, hfiled.insertRow (fun d hend => hend) (fun d hend hnot => absurd hend hnot) hs
    hlinked hno howned ?_⟩, ?_, ?_, ?_⟩
  · intro id r hr hnone'
    rcases hback hr with ⟨rfl, -⟩ | ⟨hne, hold⟩
    · exact ⟨cl.key, ⟨db.nextId, bytes⟩, Dict.get?_set_self _ _ _, rfl⟩
    · exact hfiled.opens_set hold hnone' (hnone id r hold) _
  · exact h.spaced.set hlisted _
  · exact h.queued.mono fun c => seenIn_insert hfiled.linked hs
  · intro id r c hr hc
    rcases hback hr with ⟨-, rfl⟩ | ⟨-, hold⟩
    · rw [hcid, Option.some.injEq] at hc
      subst hc
      exact .inr ⟨hopen, hlisted⟩
    · exact h.known id r c hold hc

theorem Books.pollClient (hwired : Wired conns unread)
    (h : Books conns unread status pending (Listing status) active db)
    (hcl : cl ∈ status.counted) :
    Books conns unread status pending (Listing status)
      (pollClient now (active, db) cl).1 (pollClient now (active, db) cl).2 := by
  obtain ⟨own, hfiled⟩ := h.filed
  obtain ⟨conn, hget, -, hsince, -⟩ := hfiled.listed cl hcl
  have hpos : 0 < cl.connectedSince := by
    rw [hsince]
    exact (hwired.clock _ conn hget).1
  have hpolled := pollClient_polled now hfiled.linked hpos
  have hlinked := linked_polled hfiled.linked hpolled
  have haddress (id : Nat) (row : Session)
      (hrow : (Collector.pollClient now (active, db) cl).2.sessions.get? id = some row) :=
    realAddress_pollClient hrow
  generalize Collector.pollClient now (active, db) cl = state at hpolled hlinked haddress
  cases hpolled with
  | known entry row he hrow hkey =>
      exact h.touch hcl (keepsOwner_refreshed now cl) hrow hkey rfl (.inr rfl)
        (addTraffic_sessions ..) hlinked
  | reopened id row he hrow hkey =>
      exact h.touch hcl (keepsOwner_reopened now cl) hrow hkey rfl (.inl rfl)
        (addTraffic_sessions ..) hlinked
  | inserted row he hnone hkey hname hbytes hopen =>
      refine h.insert hcl hnone hkey ?_ hopen (addTraffic_sessions ..) hlinked
      have hnew := haddress db.nextId row (by
        rw [addTraffic_sessions]
        exact Dict.get?_set_self _ _ _)
      rcases hnew with heq | ⟨old, hold, -⟩
      · exact heq
      · rw [hfiled.linked.get?_nextId] at hold
        cases hold

theorem Books.pollClients (hwired : Wired conns unread) {clients : List Client}
    (hsub : ∀ cl ∈ clients, cl ∈ status.counted)
    (h : Books conns unread status pending (Listing status) active db) :
    Books conns unread status pending (Listing status)
      (clients.foldl (Collector.pollClient now) (active, db)).1
      (clients.foldl (Collector.pollClient now) (active, db)).2 := by
  induction clients generalizing active db with
  | nil => exact h
  | cons cl rest ih =>
      refine ih (fun other hother => hsub other (List.mem_cons_of_mem _ hother)) ?_
      exact h.pollClient hwired (hsub cl List.mem_cons_self)

theorem Books.close (h : Books conns unread status pending (Listing status) active db) {k : Key}
    {entry : Entry} (hentry : active.get? k = some entry)
    (hgone : k ∉ status.counted.map Client.key) :
    Books conns unread status pending (Listing status) (active.erase k)
      (db.updateSession entry.sessionId (Session.closed now none)) := by
  obtain ⟨own, hfiled⟩ := h.filed
  obtain ⟨row, hrow, hkey, hown⟩ := hfiled.own_of_active hentry
  have hf := keepsOwner_closed now
  have hne (r : Session) : (r.closed now none).disconnectedAt ≠ none := by
    unfold Session.closed
    split
    · exact Option.some_ne_none now
    · assumption
  have hlinked : Linked (active.erase k)
      (db.updateSession entry.sessionId (Session.closed now none)) :=
    (hfiled.linked.update _ fun r => (closed_fields r).1).subset fun k' e he =>
      (Dict.get?_of_erase he).2
  refine ⟨⟨own, hfiled.mapRows (hf.one entry.sessionId) rfl hlinked ?_ ?_ ?_⟩, ?_, ?_, ?_⟩
  · intro id r hr hnone hclosed
    split
    · exact hne r
    · exact hclosed
  · intro id r hr hnone
    by_cases heq : id = entry.sessionId
    · rw [if_pos heq] at hnone
      exact absurd hnone (hne r)
    · rw [if_neg heq] at hnone
      obtain ⟨key, other, hother, hid⟩ := hfiled.opens id r hr hnone
      refine ⟨key, other, ?_, hid⟩
      rw [Dict.get?_erase, if_neg ?_]
      · exact hother
      · rintro rfl
        obtain rfl := Option.some.inj (hother.symm.trans hentry)
        exact heq hid.symm
  · intro id r hr hend
    split
    · unfold Session.closed
      split
      · exact Option.or_none
      · rfl
    · rfl
  · exact h.spaced.mono (fun d hend => hend) fun key e he => .inl ⟨e, (Dict.get?_of_erase he).2⟩
  · exact h.queued.mono fun c => seenIn_mapped (hf.one entry.sessionId) rfl
  · intro id r c hr hcid
    rcases Dict.get?_modify_cases hr with ⟨rfl, old, hold, rfl⟩ | ⟨-, hold⟩
    · -- the row is the key's own, which is not among the listed ones
      obtain rfl := Option.some.inj (hold.symm.trans hrow)
      rw [hf.cid entry.sessionId] at hcid
      refine .inl ((h.known _ old c hold hcid).resolve_right fun hphase => hphase.2 ?_)
      rintro cl hcl rfl
      obtain ⟨conn, hget, -, hsince, hcn, -⟩ := hfiled.listed cl hcl
      obtain ⟨other, hother, -, hname, -, hkind⟩ := (hfiled.owned _ old hold).of_link
      rw [← (hfiled.owned _ old hold).cid_eq hcid] at hother hkind
      obtain rfl := Option.some.inj (hother.symm.trans hget)
      refine hgone (List.mem_map.mpr ⟨cl, hcl, Option.some.inj (Eq.trans ?_ hkey)⟩)
      symm
      refine key?_eq_some_iff.mpr ⟨hname.trans hcn.symm, hcid, ?_⟩
      cases hkind with
      | polled hcid' hat => exact hat.trans hsince.symm
      | logged hnone =>
          rw [hcid] at hnone
          cases hnone
    · exact h.known id r c hold hcid

theorem Books.closeSessions {keys : List Key}
    (hgone : ∀ k ∈ keys, k ∉ status.counted.map Client.key) {state : Active × Database}
    (h : Books conns unread status pending (Listing status) state.1 state.2) :
    Books conns unread status pending (Listing status)
      (closeSessions now none keys state).1 (closeSessions now none keys state).2 := by
  unfold Collector.closeSessions
  induction keys generalizing state with
  | nil => exact h
  | cons k rest ih =>
      refine ih (fun other hother => hgone other (List.mem_cons_of_mem _ hother)) ?_
      obtain ⟨active, db⟩ := state
      unfold closeOne
      dsimp only
      split
      · exact h
      · exact h.close ‹_› (hgone k List.mem_cons_self)

theorem Books.poll (hwired : Wired conns unread) {w : World}
    (h : Books conns unread status w.collector.pending AtRest w.collector.active w.db)
    (hresync : w.collector.resync = false) :
    Books conns unread status (w.step (.poll status now false)).collector.pending Unclosed
        (w.step (.poll status now false)).collector.active (w.step (.poll status now false)).db ∧
      (w.step (.poll status now false)).collector.resync = false := by
  unfold World.step CollectorState.poll
  dsimp only
  cases houtcome : pollOutcome w.collector w.db status now false with
  | skipped => exact ⟨h.weaken fun c row hfalse => hfalse.elim, hresync⟩
  | rolledBack =>
      unfold pollOutcome pollTx at houtcome
      rw [hresync] at houtcome
      split at houtcome <;> cases houtcome
  | committed active db =>
      have htx := (pollOutcome_committed houtcome).2
      rw [hresync] at htx
      obtain ⟨rfl, rfl⟩ := Prod.ext_iff.mp (Option.some.inj htx)
      refine ⟨?_, rfl⟩
      have hlisting : Books conns unread status w.collector.pending (Listing status)
          w.collector.active w.db := h.weaken fun c row hfalse => hfalse.elim
      refine (Books.closeSessions (fun k hk => ?_) (hlisting.pollClients hwired fun cl hcl => hcl)
        ).weaken fun c row hphase => hphase.1
      exact of_decide_eq_true (List.mem_filter.mp hk).2

end Poll

end OpenvpnServer.Collector
