import OpenvpnServer.Collector.Connections.Lemmas

namespace OpenvpnServer.Collector

open OpenvpnServer.Lib

variable {row : Session} {conn : Link} {id : Nat} {f : Nat → Session → Session}

section Rows

variable {conns conns' : List Link} {unread unread' : List (Nat × LogLine)} {status : Status}
  {active active' : Active} {db db' : Database} {own : Nat → Nat} {c : Nat}

def Link.SameEnd (conn conn' : Link) : Prop :=
  conn.cn = conn'.cn ∧ (splitAddress conn.address).2 = (splitAddress conn'.address).2

def Unlisted (status : Status) (c : Nat) : Prop := ∀ cl ∈ status.counted, cl.cid ≠ c

inductive RowOf (conns : List Link) (unread : List (Nat × LogLine)) (status : Status) (c : Nat)
    (row : Session) (conn : Link) : Prop
  | polled (hcid : row.cid = some c) (hsince : row.connectedAt = conn.since)
  | logged (hcid : row.cid = none) (hopened : conn.opened = some row.connectedAt)
      (hclosed : row.disconnectedAt ≠ none) (hend : HeardEnd conns unread c)
      (hunlisted : Unlisted status c)

structure Owned (conns : List Link) (unread : List (Nat × LogLine)) (status : Status) (c : Nat)
    (row : Session) : Prop where
  of_link : ∃ conn, conns[c]? = some conn ∧ conn.opened ≠ none ∧ row.clientName = conn.cn ∧
    row.realAddress = conn.address ∧ RowOf conns unread status c row conn

def Spaced (conns : List Link) (unread : List (Nat × LogLine)) (status : Status)
    (active : Active) : Prop :=
  ∀ (a b : Nat) (conn conn' : Link), a < b → conns[a]? = some conn → conns[b]? = some conn' →
    conn.SameEnd conn' → HeardEnd conns unread a ∧ Unlisted status a ∧
      (∀ key entry, active.get? key = some entry → key.cid ≠ a) ∧
      ∀ ts, conn.opened = some ts → ts + 30 < conn'.since

-- Every row belongs to a connection of its own, `own id`; a row that is open is in
-- `_active`; a connection that was heard to end has its row, with the reason; and the
-- status lists connections whose row a poll will find or may make.
structure Filed (conns : List Link) (unread : List (Nat × LogLine)) (status : Status)
    (active : Active) (db : Database) (own : Nat → Nat) : Prop where
  linked : Linked active db
  owned : ∀ id row, db.sessions.get? id = some row → Owned conns unread status (own id) row
  inj : ∀ id id' row row', db.sessions.get? id = some row → db.sessions.get? id' = some row' →
    own id = own id' → id = id'
  opens : ∀ id row, db.sessions.get? id = some row → row.disconnectedAt = none →
    ∃ key entry, active.get? key = some entry ∧ entry.sessionId = id
  reasons : ∀ (c : Nat) (conn : Link), conns[c]? = some conn → conn.opened ≠ none →
    HeardEnd conns unread c →
    ∃ id row, db.sessions.get? id = some row ∧ own id = c ∧ row.endReason = conn.ended
  listed : ∀ cl ∈ status.counted, ∃ conn, conns[cl.cid]? = some conn ∧ conn.opened ≠ none ∧
    cl.connectedSince = conn.since ∧ cl.cn = conn.cn ∧ cl.realAddress = conn.address ∧
    (HeardEnd conns unread cl.cid → SeenIn db cl.cid)

theorem Owned.cid_eq {d : Nat} (h : Owned conns unread status c row)
    (hcid : row.cid = some d) : d = c := by
  obtain ⟨conn, -, -, -, -, hrow⟩ := h.of_link
  cases hrow with
  | polled hown => exact Option.some.inj (hcid.symm.trans hown)
  | logged hnone =>
      rw [hcid] at hnone
      cases hnone

theorem Filed.own_of_active (h : Filed conns unread status active db own) {key : Key}
    {entry : Entry} (hentry : active.get? key = some entry) :
    ∃ row, db.sessions.get? entry.sessionId = some row ∧ row.key? = some key ∧
      own entry.sessionId = key.cid := by
  obtain ⟨row, hget, hkey⟩ := h.linked.linked key entry hentry
  have hcid := (key?_eq_some_iff.mp hkey).2.1
  exact ⟨row, hget, hkey, ((h.owned _ row hget).cid_eq hcid).symm⟩

theorem Filed.rows_of_end (hwired : Wired conns unread)
    (h : Filed conns unread status active db own) (hspaced : Spaced conns unread status active)
    (hget : conns[c]? = some conn) (hunended : ¬HeardEnd conns unread c)
    (hrow : db.sessions.get? id = some row) (hname : row.clientName = conn.cn)
    (haddress : (splitAddress row.realAddress).2 = (splitAddress conn.address).2) :
    own id = c ∨ (row.disconnectedAt ≠ none ∧ row.connectedAt + 30 < conn.since) := by
  obtain ⟨other, hother, hopened, hcn, hat, hkind⟩ := (h.owned id row hrow).of_link
  have hsame : other.SameEnd conn := ⟨hcn.symm.trans hname, by rw [← hat]; exact haddress⟩
  rcases Nat.lt_trichotomy (own id) c with hlt | heq | hgt
  · obtain ⟨hend, -, hinactive, htime⟩ := hspaced (own id) c other conn hlt hother hget hsame
    obtain ⟨ts, hts⟩ := Option.ne_none_iff_exists'.mp hopened
    have hafter := htime ts hts
    have hclock := (hwired.clock (own id) other hother).2 ts hts
    refine .inr ⟨fun hopen => ?_, ?_⟩
    · obtain ⟨key, entry, hentry, hid⟩ := h.opens id row hrow hopen
      obtain ⟨-, -, -, hown⟩ := h.own_of_active hentry
      rw [hid] at hown
      exact hinactive key entry hentry hown.symm
    · cases hkind with
      | polled hcid hsince => omega
      | logged hcid hat hclosed hheard hunlisted =>
          obtain rfl := Option.some.inj (hts.symm.trans hat)
          omega
  · exact .inl heq
  · have hsame' : conn.SameEnd other := ⟨hsame.1.symm, hsame.2.symm⟩
    exact absurd (hspaced c (own id) conn other hgt hget hother hsame').1 hunended

theorem Filed.latestSession_none (hwired : Wired conns unread)
    (h : Filed conns unread status active db own) (hspaced : Spaced conns unread status active)
    (hget : conns[c]? = some conn) (hunended : ¬HeardEnd conns unread c) {ts : Nat}
    (hts : conn.opened = some ts) (hnone : ∀ id row, db.sessions.get? id = some row → own id ≠ c) :
    db.latestSession conn.cn conn.address (ts - 30) = none := by
  cases hfound : db.latestSession conn.cn conn.address (ts - 30) with
  | none => rfl
  | some found =>
      obtain ⟨id, row⟩ := found
      obtain ⟨hrow, hname, hwanted, haddress⟩ := latestSession_spec hfound
      have hclock := (hwired.clock c conn hget).2 ts hts
      rcases h.rows_of_end hwired hspaced hget hunended hrow hname haddress with
        hown | ⟨hclosed, hold⟩
      · exact absurd hown (hnone id row hrow)
      · rcases hwanted with hlate | hopen
        · omega
        · exact absurd hopen hclosed

theorem Filed.length_newer_le (hwired : Wired conns unread)
    (h : Filed conns unread status active db own) (name : Text) (since : Nat) :
    (db.sessions.entries.filter fun entry => decide
      (entry.2.clientName = name ∧ since ≤ entry.2.connectedAt)).length ≤
        (crowd conns name since).length := by
  have hmem : ∀ entry ∈ db.sessions.entries.filter (fun entry => decide
      (entry.2.clientName = name ∧ since ≤ entry.2.connectedAt)),
      db.sessions.get? entry.1 = some entry.2 ∧ entry.2.clientName = name ∧
        since ≤ entry.2.connectedAt := by
    intro entry hentry
    obtain ⟨hentry, hwanted⟩ := List.mem_filter.mp hentry
    exact ⟨db.sessions.get?_eq_some_iff.mpr hentry, of_decide_eq_true hwanted⟩
  rw [← List.length_map (fun entry : Nat × Session => own entry.1)]
  refine (List.subperm_of_subset ?_ ?_).length_le
  · refine (db.sessions.nodup_entries.filter _).map_on fun x hx y hy heq => ?_
    obtain ⟨hgetx, -, -⟩ := hmem x hx
    obtain ⟨hgety, -, -⟩ := hmem y hy
    have hid := h.inj x.1 y.1 x.2 y.2 hgetx hgety heq
    rw [hid, hgety, Option.some.injEq] at hgetx
    exact Prod.ext hid hgetx.symm
  · intro d hd
    obtain ⟨entry, hentry, rfl⟩ := List.mem_map.mp hd
    obtain ⟨hget, hname, hsince⟩ := hmem entry hentry
    obtain ⟨conn, hconn, hopened, hcn, -, hkind⟩ := (h.owned entry.1 entry.2 hget).of_link
    obtain ⟨ts, hts⟩ := Option.ne_none_iff_exists'.mp hopened
    have hle : since ≤ ts := by
      have hclock := (hwired.clock _ conn hconn).2 ts hts
      cases hkind with
      | polled hcid hat => omega
      | logged hcid hat hclosed hheard hunlisted =>
          obtain rfl := Option.some.inj (hts.symm.trans hat)
          exact hsince
    have hlt := (List.getElem?_eq_some_iff.mp hconn).1
    rw [crowd, List.mem_filter, List.mem_range, hconn, Option.any_some, hts, Option.any_some]
    exact ⟨hlt, by simp [← hcn, hname, hle]⟩

theorem Filed.latestSession_some (hwired : Wired conns unread)
    (h : Filed conns unread status active db own) (hspaced : Spaced conns unread status active)
    (hget : conns[c]? = some conn) (hunended : ¬HeardEnd conns unread c)
    (hcrowd : (crowd conns conn.cn conn.since).length ≤ 20)
    (hrow : db.sessions.get? id = some row) (hcid : row.cid = some c) {since : Nat}
    (hwanted : since ≤ row.connectedAt ∨ row.disconnectedAt = none) :
    db.latestSession conn.cn conn.address since = some (id, row) := by
  have howned := h.owned id row hrow
  have hown := howned.cid_eq hcid
  obtain ⟨other, hother, -, hcn, hat, hkind⟩ := howned.of_link
  rw [← hown] at hother
  obtain rfl := Option.some.inj (hother.symm.trans hget)
  have hsince : row.connectedAt = other.since := by
    cases hkind with
    | polled hcid hsince => exact hsince
    | logged hnone =>
        rw [hcid] at hnone
        cases hnone
  refine latestSession_eq hrow hcn hwanted (by rw [hat]) ?_ ?_
  · intro id' row' hrow' hname' haddress' hne
    rcases h.rows_of_end hwired hspaced hget hunended hrow' hname' haddress' with
      hown' | ⟨-, hold⟩
    · exact absurd (h.inj id' id row' row hrow' hrow (hown'.trans hown)) hne
    · omega
  · rw [hsince]
    exact le_trans (h.length_newer_le hwired other.cn other.since) hcrowd

end Rows

section Keep

variable {conns conns' : List Link} {unread unread' : List (Nat × LogLine)}
  {status status' : Status} {active active' : Active} {db db' : Database} {own : Nat → Nat}
  {c : Nat}

theorem Owned.imp
    (hlink : ∀ conn, conns[c]? = some conn → ∃ conn', conns'[c]? = some conn' ∧ conn.Grown conn')
    (hend : HeardEnd conns unread c → HeardEnd conns' unread' c)
    (hunlisted : HeardEnd conns unread c → Unlisted status c → Unlisted status' c)
    (h : Owned conns unread status c row) : Owned conns' unread' status' c row := by
  obtain ⟨conn, hget, hopened, hcn, hat, hkind⟩ := h.of_link
  obtain ⟨conn', hget', hgrown⟩ := hlink conn hget
  refine ⟨conn', hget', hgrown.opened_ne hopened, by rw [hgrown.cn]; exact hcn,
    by rw [hgrown.address]; exact hat, ?_⟩
  cases hkind with
  | polled hcid hsince => exact .polled hcid (by rw [hgrown.since]; exact hsince)
  | logged hcid hopened hclosed hheard hnot =>
      exact .logged hcid (hgrown.opened _ hopened) hclosed (hend hheard) (hunlisted hheard hnot)

theorem Filed.writes (hw : Writes conns unread conns' unread')
    (h : Filed conns unread status active db own) :
    Filed conns' unread' status active db own := by
  refine ⟨h.linked, fun id row hrow => (h.owned id row hrow).imp (fun _ hget => hw.link hget)
    (heardEnd_writes hw _).mpr fun _ hnot => hnot, h.inj, h.opens,
    fun c conn' hget hopened hend => ?_, fun cl hcl => ?_⟩
  · rw [heardEnd_writes hw] at hend
    obtain ⟨conn, hold, hended⟩ := hend.1
    obtain rfl := Option.some.inj ((hw.link_ended hold hended).symm.trans hget)
    exact h.reasons c conn hold hopened hend
  · obtain ⟨conn, hget, hopened, hsince, hcn, hat, hseen⟩ := h.listed cl hcl
    obtain ⟨conn', hget', hgrown⟩ := hw.link hget
    refine ⟨conn', hget', hgrown.opened_ne hopened, by rw [hgrown.since]; exact hsince,
      by rw [hgrown.cn]; exact hcn, by rw [hgrown.address]; exact hat, ?_⟩
    rw [heardEnd_writes hw]
    exact hseen

def Free (conns : List Link) (unread : List (Nat × LogLine)) (status : Status)
    (active : Active) (new : Link) : Prop :=
  ∀ (a : Nat) (conn : Link), conns[a]? = some conn → conn.SameEnd new →
    HeardEnd conns unread a ∧ Unlisted status a ∧
      (∀ key entry, active.get? key = some entry → key.cid ≠ a) ∧
      ∀ ts, conn.opened = some ts → ts + 30 < new.since

theorem Spaced.writes (hw : Writes conns unread conns' unread')
    (hfree : ∀ new, conns' = conns ++ [new] → Free conns unread status active new)
    (h : Spaced conns unread status active) : Spaced conns' unread' status active := by
  intro a b conn conn' hlt ha hb hsame
  rw [heardEnd_writes hw]
  have hspaced : ∃ old, conns[a]? = some old ∧ HeardEnd conns unread a ∧ Unlisted status a ∧
      (∀ key entry, active.get? key = some entry → key.cid ≠ a) ∧
      ∀ ts, old.opened = some ts → ts + 30 < conn'.since := by
    cases hw with
    | begin new hopen hlive hnow hnew =>
        have hlast := (List.getElem?_eq_some_iff.mp hb).1
        rw [List.length_append, List.length_singleton] at hlast
        have hold : conns[a]? = some conn := by
          rwa [List.getElem?_append_left (by omega)] at ha
        rcases getElem?_concat_cases hb with hbold | ⟨-, rfl⟩
        · exact ⟨conn, hold, h a b conn conn' hlt hold hbold hsame⟩
        · exact ⟨conn, hold, hfree conn' rfl a conn hold hsame⟩
    | act d old new line hold hlive hgrown hwrote hopen hinfo hend hclock =>
        have hback {e : Nat} {later : Link} (he : (conns.set d new)[e]? = some later) :
            ∃ earlier, conns[e]? = some earlier ∧ earlier.Grown later := by
          rcases getElem?_set_cases he with ⟨rfl, rfl⟩ | ⟨-, hkept⟩
          · exact ⟨old, hold, hgrown⟩
          · exact ⟨later, hkept, .refl later⟩
        obtain ⟨olda, holda, hga⟩ := hback ha
        obtain ⟨oldb, holdb, hgb⟩ := hback hb
        have hsame' : olda.SameEnd oldb := by
          unfold Link.SameEnd at hsame ⊢
          rw [← hga.cn, ← hgb.cn, ← hga.address, ← hgb.address]
          exact hsame
        rw [hgb.since]
        exact ⟨olda, holda, h a b olda oldb hlt holda holdb hsame'⟩
  obtain ⟨old, hold, hend, hunlisted, hinactive, htime⟩ := hspaced
  refine ⟨hend, hunlisted, hinactive, fun ts hts => htime ts ?_⟩
  obtain ⟨same, hsame', hended⟩ := hend.1
  obtain rfl := Option.some.inj (hsame'.symm.trans hold)
  obtain rfl := Option.some.inj ((hw.link_ended hold hended).symm.trans ha)
  exact hts

def UpToDate (conns : List Link) (status : Status) : Prop :=
  ∀ cl ∈ status.counted, ∃ conn, conns[cl.cid]? = some conn ∧ conn.ended = none ∧
    conn.opened ≠ none ∧ cl.connectedSince = conn.since ∧ cl.cn = conn.cn ∧
    cl.realAddress = conn.address

theorem UpToDate.unlisted (h : UpToDate conns status) (hend : HeardEnd conns unread c) :
    Unlisted status c := by
  rintro cl hcl rfl
  obtain ⟨conn, hget, hlive, -⟩ := h cl hcl
  exact not_heardEnd_of_live hget hlive hend

theorem Filed.rewrite (hstatus : UpToDate conns status')
    (h : Filed conns unread status active db own) :
    Filed conns unread status' active db own := by
  refine ⟨h.linked, fun id row hrow => (h.owned id row hrow).imp
    (fun conn hget => ⟨conn, hget, .refl conn⟩) (fun hend => hend)
    fun hend _ => hstatus.unlisted hend, h.inj, h.opens, h.reasons, fun cl hcl => ?_⟩
  · obtain ⟨conn, hget, hlive, hopened, hsince, hcn, hat⟩ := hstatus cl hcl
    exact ⟨conn, hget, hopened, hsince, hcn, hat, fun hend =>
      absurd hend (not_heardEnd_of_live hget hlive)⟩

theorem Spaced.rewrite (hstatus : UpToDate conns status')
    (h : Spaced conns unread status active) : Spaced conns unread status' active := by
  intro a b conn conn' hlt ha hb hsame
  obtain ⟨hend, -, hinactive, htime⟩ := h a b conn conn' hlt ha hb hsame
  exact ⟨hend, hstatus.unlisted hend, hinactive, htime⟩

structure KeepsOwner (f : Nat → Session → Session) : Prop where
  clientName : ∀ id row, (f id row).clientName = row.clientName
  realAddress : ∀ id row, (f id row).realAddress = row.realAddress
  cid : ∀ id row, (f id row).cid = row.cid
  connectedAt : ∀ id row, (f id row).connectedAt = row.connectedAt

theorem KeepsOwner.key? (h : KeepsOwner f) (id : Nat)
    (row : Session) : (f id row).key? = row.key? := by
  unfold Session.key?
  rw [h.cid, h.connectedAt, h.clientName]

theorem Owned.keep (hf : KeepsOwner f)
    (hclosed : row.cid = none → row.disconnectedAt ≠ none → (f id row).disconnectedAt ≠ none)
    (h : Owned conns unread status c row) : Owned conns unread status c (f id row) := by
  obtain ⟨conn, hget, hopened, hcn, hat, hkind⟩ := h.of_link
  refine ⟨conn, hget, hopened, by rw [hf.clientName]; exact hcn,
    by rw [hf.realAddress]; exact hat, ?_⟩
  cases hkind with
  | polled hcid hsince => exact .polled (by rw [hf.cid]; exact hcid) (by rw [hf.connectedAt]; exact hsince)
  | logged hcid hopened hold hend hunlisted =>
      exact .logged (by rw [hf.cid]; exact hcid) (by rw [hf.connectedAt]; exact hopened)
        (hclosed hcid hold) hend hunlisted

theorem get?_mapped (hs : db'.sessions = db.sessions.mapValues f)
    (hrow : db'.sessions.get? id = some row) :
    ∃ old, db.sessions.get? id = some old ∧ row = f id old := by
  rw [hs, Dict.get?_mapValues, Option.map_eq_some_iff] at hrow
  obtain ⟨old, hold, rfl⟩ := hrow
  exact ⟨old, hold, rfl⟩

theorem seenIn_mapped (hf : KeepsOwner f)
    (hs : db'.sessions = db.sessions.mapValues f) (h : SeenIn db c) : SeenIn db' c := by
  obtain ⟨id, row, hrow, hcid⟩ := h
  refine ⟨id, f id row, ?_, by rw [hf.cid]; exact hcid⟩
  rw [hs, Dict.get?_mapValues, hrow, Option.map_some]

theorem Filed.mapRows (h : Filed conns unread status active db own)
    (hf : KeepsOwner f) (hs : db'.sessions = db.sessions.mapValues f)
    (hlinked : Linked active' db')
    (hclosed : ∀ id row, db.sessions.get? id = some row → row.cid = none →
      row.disconnectedAt ≠ none → (f id row).disconnectedAt ≠ none)
    (hopens : ∀ id row, db.sessions.get? id = some row → (f id row).disconnectedAt = none →
      ∃ key entry, active'.get? key = some entry ∧ entry.sessionId = id)
    (hreasons : ∀ id row, db.sessions.get? id = some row → HeardEnd conns unread (own id) →
      (f id row).endReason = row.endReason) :
    Filed conns unread status active' db' own := by
  refine ⟨hlinked, fun id row hrow => ?_, fun id id' row row' hrow hrow' => ?_,
    fun id row hrow => ?_, fun c conn hget hopened hend => ?_, fun cl hcl => ?_⟩
  · obtain ⟨old, hold, rfl⟩ := get?_mapped hs hrow
    exact (h.owned id old hold).keep hf (hclosed id old hold)
  · obtain ⟨old, hold, -⟩ := get?_mapped hs hrow
    obtain ⟨old', hold', -⟩ := get?_mapped hs hrow'
    exact h.inj id id' old old' hold hold'
  · obtain ⟨old, hold, rfl⟩ := get?_mapped hs hrow
    exact hopens id old hold
  · obtain ⟨id, row, hrow, hown, hreason⟩ := h.reasons c conn hget hopened hend
    refine ⟨id, f id row, ?_, hown, ?_⟩
    · rw [hs, Dict.get?_mapValues, hrow, Option.map_some]
    · rw [hreasons id row hrow (by rw [hown]; exact hend)]
      exact hreason
  · obtain ⟨conn, hget, hopened, hsince, hcn, hat, hseen⟩ := h.listed cl hcl
    exact ⟨conn, hget, hopened, hsince, hcn, hat, fun hend => seenIn_mapped hf hs (hseen hend)⟩

theorem Owned.mono (hend : HeardEnd conns unread c → HeardEnd conns unread' c)
    (h : Owned conns unread status c row) : Owned conns unread' status c row :=
  h.imp (fun conn hget => ⟨conn, hget, .refl conn⟩) hend fun _ hnot => hnot

theorem Spaced.mono (hmono : ∀ d, HeardEnd conns unread d → HeardEnd conns unread' d)
    (hactive : ∀ key entry, active'.get? key = some entry →
      (∃ old, active.get? key = some old) ∨ ¬Unlisted status key.cid)
    (h : Spaced conns unread status active) : Spaced conns unread' status active' := by
  intro a b conn conn' hlt ha hb hsame
  obtain ⟨hend, hunlisted, hinactive, htime⟩ := h a b conn conn' hlt ha hb hsame
  refine ⟨hmono a hend, hunlisted, fun key entry hentry => ?_, htime⟩
  rcases hactive key entry hentry with ⟨old, hold⟩ | hlisted
  · exact hinactive key old hold
  · rintro rfl
    exact hlisted hunlisted

theorem Filed.mono (hmono : ∀ d, HeardEnd conns unread d → HeardEnd conns unread' d)
    (hnew : ∀ d, HeardEnd conns unread' d → ¬HeardEnd conns unread d →
      (Unlisted status d ∨ SeenIn db d) ∧ ∀ conn, conns[d]? = some conn → conn.opened ≠ none →
        ∃ id row, db.sessions.get? id = some row ∧ own id = d ∧ row.endReason = conn.ended)
    (h : Filed conns unread status active db own) :
    Filed conns unread' status active db own := by
  refine ⟨h.linked, fun id row hrow => (h.owned id row hrow).mono (hmono _), h.inj, h.opens,
    fun c conn hget hopened hend => ?_, fun cl hcl => ?_⟩
  · by_cases hold : HeardEnd conns unread c
    · exact h.reasons c conn hget hopened hold
    · exact (hnew c hend hold).2 conn hget hopened
  · obtain ⟨conn, hget, hopened, hsince, hcn, hat, hseen⟩ := h.listed cl hcl
    refine ⟨conn, hget, hopened, hsince, hcn, hat, fun hend => ?_⟩
    by_cases hold : HeardEnd conns unread cl.cid
    · exact hseen hold
    · exact (hnew cl.cid hend hold).1.resolve_left fun hunlisted => hunlisted cl hcl rfl

theorem Filed.insertRow (h : Filed conns unread status active db own)
    (hmono : ∀ d, HeardEnd conns unread d → HeardEnd conns unread' d)
    (hnew : ∀ d, HeardEnd conns unread' d → ¬HeardEnd conns unread d →
      d = c ∧ Unlisted status d ∧ ∀ conn, conns[d]? = some conn → row.endReason = conn.ended)
    (hs : db'.sessions = db.sessions.set db.nextId row) (hlinked : Linked active' db')
    (hno : ∀ id r, db.sessions.get? id = some r → own id ≠ c)
    (howned : Owned conns unread' status c row)
    (hopens : ∀ id r, db'.sessions.get? id = some r → r.disconnectedAt = none →
      ∃ key entry, active'.get? key = some entry ∧ entry.sessionId = id) :
    Filed conns unread' status active' db' (Function.update own db.nextId c) := by
  have hfresh := h.linked.get?_nextId
  have hne {id : Nat} {r : Session} (hr : db.sessions.get? id = some r) : id ≠ db.nextId := by
    rintro rfl
    rw [hfresh] at hr
    cases hr
  have hkept {id : Nat} {r : Session} (hr : db.sessions.get? id = some r) :
      db'.sessions.get? id = some r ∧ Function.update own db.nextId c id = own id := by
    rw [hs, Dict.get?_set_ne _ _ (hne hr), Function.update_of_ne (hne hr)]
    exact ⟨hr, rfl⟩
  have hback {id : Nat} {r : Session} (hr : db'.sessions.get? id = some r) :
      (id = db.nextId ∧ r = row) ∨ db.sessions.get? id = some r := by
    rw [hs] at hr
    exact (Dict.get?_set_cases hr).imp_right And.right
  refine ⟨hlinked, fun id r hr => ?_, fun id id' r r' hr hr' heq => ?_, hopens,
    fun d conn hget hopened hend => ?_, fun cl hcl => ?_⟩
  · rcases hback hr with ⟨rfl, rfl⟩ | hold
    · rw [Function.update_self]
      exact howned
    · rw [(hkept hold).2]
      exact (h.owned id r hold).mono (hmono _)
  · rcases hback hr with ⟨rfl, rfl⟩ | hold
    · rcases hback hr' with ⟨rfl, rfl⟩ | hold'
      · rfl
      · rw [Function.update_self, (hkept hold').2] at heq
        exact absurd heq.symm (hno id' r' hold')
    · rcases hback hr' with ⟨rfl, rfl⟩ | hold'
      · rw [Function.update_self, (hkept hold).2] at heq
        exact absurd heq (hno id r hold)
      · rw [(hkept hold).2, (hkept hold').2] at heq
        exact h.inj id id' r r' hold hold' heq
  · by_cases hold : HeardEnd conns unread d
    · obtain ⟨id, r, hr, hown, hreason⟩ := h.reasons d conn hget hopened hold
      exact ⟨id, r, (hkept hr).1, (hkept hr).2.trans hown, hreason⟩
    · obtain ⟨rfl, -, hreason⟩ := hnew d hend hold
      exact ⟨db.nextId, row, by rw [hs, Dict.get?_set_self], Function.update_self _ _ _,
        hreason conn hget⟩
  · obtain ⟨conn, hget, hopened, hsince, hcn, hat, hseen⟩ := h.listed cl hcl
    refine ⟨conn, hget, hopened, hsince, hcn, hat, fun hend => ?_⟩
    by_cases hold : HeardEnd conns unread cl.cid
    · obtain ⟨id, r, hr, hcid⟩ := hseen hold
      exact ⟨id, r, (hkept hr).1, hcid⟩
    · exact absurd rfl ((hnew cl.cid hend hold).2.1 cl hcl)

end Keep

end OpenvpnServer.Collector
