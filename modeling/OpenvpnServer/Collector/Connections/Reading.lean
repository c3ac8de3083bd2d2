import OpenvpnServer.Collector.Connections.Polling

namespace OpenvpnServer.Collector

open OpenvpnServer.Lib

section Read

variable {conns : List Link} {unread rest : List (Nat × LogLine)} {status : Status}
  {pending pending' : Pending} {active : Active} {db db' : Database}
  {phase : Nat → Session → Prop} {f : Session → Session} {now c : Nat} {line : LogLine}
  {row : Session} {conn : Link}

structure Ready (now : Nat) (conns : List Link) (unread : List (Nat × LogLine))
    (status : Status) (db : Database) : Prop where
  seen : ∀ (c : Nat) (conn : Link), conns[c]? = some conn → conn.ended ≠ none →
    (∃ line ∈ unread, line.1 = c) → Unlisted status c ∨ SeenIn db c
  crowd : ∀ (c : Nat) (conn : Link), conns[c]? = some conn →
    (conn.ended = none ∨ ∃ line ∈ unread, line.1 = c) →
      (crowd conns conn.cn conn.since).length ≤ 20
  fresh : ∀ (c : Nat) (conn : Link), conns[c]? = some conn → conn.ended = none →
    ¬SeenIn db c → ∀ ts, conn.opened = some ts → now ≤ ts + pendingMaxAge

theorem Ready.mono (h : Ready now conns unread status db) (hsub : ∀ other ∈ rest, other ∈ unread)
    (hseen : ∀ d, SeenIn db d → SeenIn db' d) : Ready now conns rest status db' := by
  have hleft {d : Nat} (hd : ∃ other ∈ rest, other.1 = d) : ∃ other ∈ unread, other.1 = d := by
    obtain ⟨other, hother, heq⟩ := hd
    exact ⟨other, hsub other hother, heq⟩
  refine ⟨fun d conn hget hended hline => ?_, fun d conn hget hline => ?_,
    fun d conn hget hlive hnot => ?_⟩
  · exact (h.seen d conn hget hended (hleft hline)).imp_right (hseen d)
  · exact h.crowd d conn hget (hline.imp_right hleft)
  · exact h.fresh d conn hget hlive fun hold => hnot (hseen d hold)

theorem Filed.seenIn_of_own {own : Nat → Nat} (h : Filed conns unread status active db own)
    (hunended : ¬HeardEnd conns unread c) {id : Nat}
    (hrow : db.sessions.get? id = some row) (hown : own id = c) : SeenIn db c := by
  obtain ⟨conn, -, -, -, -, hkind⟩ := (h.owned id row hrow).of_link
  rw [hown] at hkind
  cases hkind with
  | polled hcid hsince => exact ⟨id, row, hrow, hcid⟩
  | logged hcid hopened hclosed hend hunlisted => exact absurd hend hunended

theorem seenIn_update (hf : KeepsOwner fun _ => f) (id : Nat) (h : SeenIn db c) :
    SeenIn (db.updateSession id f) c :=
  seenIn_mapped (hf.one id) rfl h

theorem Books.update (h : Books conns unread status pending phase active db)
    (hf : KeepsOwner fun _ => f) (hclosed : ∀ row, (f row).disconnectedAt = row.disconnectedAt)
    (hphase : ∀ d row, phase d row → phase d (f row)) (id : Nat)
    (hreason : ∀ row, db.sessions.get? id = some row → (f row).endReason = row.endReason ∨
      ∃ d, row.cid = some d ∧ ¬HeardEnd conns unread d) :
    Books conns unread status pending phase active (db.updateSession id f) := by
  obtain ⟨own, hfiled⟩ := h.filed
  have hlinked := hfiled.linked.update id fun row => hf.key? id row
  refine ⟨⟨own, hfiled.mapRows (hf.one id) rfl hlinked ?_ ?_ ?_⟩, h.spaced,
    h.queued.mono fun d => seenIn_update hf id, ?_⟩
  · intro id' row hrow hnone hold
    split
    · rw [hclosed]
      exact hold
    · exact hold
  · intro id' row hrow hopen
    refine hfiled.opens id' row hrow ?_
    split at hopen
    · rw [← hclosed]
      exact hopen
    · exact hopen
  · intro id' row hrow hend
    split
    · rename_i heq
      subst heq
      refine (hreason row hrow).resolve_right ?_
      rintro ⟨d, hcid, hunended⟩
      rw [← (hfiled.owned id' row hrow).cid_eq hcid] at hend
      exact hunended hend
    · rfl
  · intro id' row d hrow hcid
    rcases Dict.get?_modify_cases hrow with ⟨rfl, old, hold, rfl⟩ | ⟨-, hold⟩
    · rw [hf.cid id'] at hcid
      exact (h.known id' old d hold hcid).imp_right (hphase d old)
    · exact h.known id' row d hold hcid

theorem keepsOwner_endReason (reason : Text) :
    KeepsOwner fun _ row => { row with endReason := some reason } :=
  ⟨fun _ _ => rfl, fun _ _ => rfl, fun _ _ => rfl, fun _ _ => rfl⟩

theorem keepsOwner_withDevice (address : Text) (peer : Peer) :
    KeepsOwner fun _ => Session.withDevice address peer :=
  ⟨fun _ _ => rfl, fun _ _ => rfl, fun _ _ => rfl, fun _ _ => rfl⟩

theorem Books.withDevice (h : Books conns unread status pending phase active db)
    {address : Text} {peer : Peer}
    (hphase : ∀ d row, phase d row → phase d (row.withDevice address peer)) (id : Nat) :
    Books conns unread status pending phase active
      (db.updateSession id (Session.withDevice address peer)) :=
  h.update (keepsOwner_withDevice address peer) (fun _ => rfl) hphase id fun _ _ => .inl rfl

theorem Known.read (hwired : Wired conns ((c, line) :: rest)) {d : Nat}
    (h : Known conns ((c, line) :: rest) pending d) :
    Known conns rest (pendingLine pending line) d := by
  obtain ⟨hheard, hnone⟩ := h
  refine ⟨(heardOpen_read hwired d).mpr (.inl hheard), fun conn hget hunended => ?_⟩
  rw [heardEnd_read hwired, not_or] at hunended
  obtain ⟨own, hown, hwrote⟩ := hwired.wrote (c, line) List.mem_cons_self
  have haddress : line.address? = some own.address := hwrote.address
  rw [get?_pendingLine, if_neg ?_]
  · exact hnone conn hget hunended.1
  · intro heq
    rw [haddress, Option.some.injEq] at heq
    have hcurrent := Current.of_head hwired hown
    rw [heq] at hcurrent
    obtain rfl := (Current.of_heardOpen hwired hget hheard hunended.1).unique hwired hcurrent
    cases line with
    | rejection ts client reason address => exact hwrote.elim
    | info ts address key value =>
        exact hwired.infoFirst (d, _) List.mem_cons_self rfl hheard
    | opened ts address cn =>
        have hread := hheard.2 (d, .opened ts address cn) List.mem_cons_self rfl
        cases hread
    | ended ts address cn reason => exact hunended.2 ⟨rfl, rfl⟩

theorem Books.heard (hwired : Wired conns ((c, line) :: rest))
    (h : Books conns ((c, line) :: rest) status pending phase active db)
    (hreason : line.isEnd = true → ∀ conn, conns[c]? = some conn → conn.opened ≠ none →
      ∃ id row, db.sessions.get? id = some row ∧ row.cid = some c ∧ row.endReason = conn.ended) :
    Books conns rest status (pendingLine pending line) phase active db := by
  obtain ⟨own, hfiled⟩ := h.filed
  have hmono (d : Nat) (hend : HeardEnd conns ((c, line) :: rest) d) : HeardEnd conns rest d :=
    (heardEnd_read hwired d).mpr (.inl hend)
  refine ⟨⟨own, hfiled.mono hmono fun d hend hnot => ?_⟩,
    h.spaced.mono hmono fun key entry hentry => .inl ⟨entry, hentry⟩, h.queued.read hwired,
    fun id row d hrow hcid => (h.known id row d hrow hcid).imp_left (Known.read hwired)⟩
  obtain ⟨rfl, hisEnd⟩ := ((heardEnd_read hwired d).mp hend).resolve_left hnot
  obtain ⟨conn, hget, -⟩ := hend.1
  by_cases hopened : conn.opened = none
  · refine ⟨.inl ?_, fun other hother hne => ?_⟩
    · rintro cl hcl rfl
      obtain ⟨other, hother, hne, -⟩ := hfiled.listed cl hcl
      obtain rfl := Option.some.inj (hother.symm.trans hget)
      exact hne hopened
    · obtain rfl := Option.some.inj (hother.symm.trans hget)
      exact absurd hopened hne
  · obtain ⟨id, row, hrow, hcid, hended⟩ := hreason hisEnd conn hget hopened
    refine ⟨.inr ⟨id, row, hrow, hcid⟩, fun other hother hne => ?_⟩
    obtain rfl := Option.some.inj (hother.symm.trans hget)
    exact ⟨id, row, hrow, ((hfiled.owned id row hrow).cid_eq hcid).symm, hended⟩

theorem Books.logged (hwired : Wired conns ((c, line) :: rest))
    (h : Books conns ((c, line) :: rest) status pending Unclosed active db)
    (hend : line.isEnd = true) (hget : conns[c]? = some conn)
    (hunlisted : Unlisted status c) (hunseen : ¬SeenIn db c)
    (hcid : row.cid = none) (hname : row.clientName = conn.cn)
    (haddress : row.realAddress = conn.address) (hopened : conn.opened = some row.connectedAt)
    (hclosed : row.disconnectedAt ≠ none) (hreason : row.endReason = conn.ended) :
    Books conns rest status (pendingLine pending line) Unclosed active
      (db.insertSession row).2 := by
  obtain ⟨own, hfiled⟩ := h.filed
  have hunended := hwired.endLast (c, line) List.mem_cons_self
  have hnow : HeardEnd conns rest c := (heardEnd_read hwired c).mpr (.inr ⟨rfl, hend⟩)
  have hmono (d : Nat) (hd : HeardEnd conns ((c, line) :: rest) d) : HeardEnd conns rest d :=
    (heardEnd_read hwired d).mpr (.inl hd)
  have hback {id : Nat} {r : Session} (hr : (db.insertSession row).2.sessions.get? id = some r) :
      (r.cid = none ∧ r.disconnectedAt ≠ none) ∨ db.sessions.get? id = some r := by
    rcases Dict.get?_set_cases hr with ⟨-, rfl⟩ | ⟨-, hold⟩
    · exact .inl ⟨hcid, hclosed⟩
    · exact .inr hold
  have hkey : row.key? = none := by
    unfold Session.key?
    rw [hcid, Option.map_none]
  refine ⟨⟨_, hfiled.insertRow (c := c) hmono (fun d hd hnot => ?_) rfl
    (hfiled.linked.insertUnkeyed hkey) (fun id r hr hown => ?_) ?_ fun id r hr hopen => ?_⟩,
    h.spaced.mono hmono fun key entry hentry => .inl ⟨entry, hentry⟩, ?_,
    fun id r d hr hd => ?_⟩
  · obtain ⟨rfl, -⟩ := ((heardEnd_read hwired d).mp hd).resolve_left hnot
    refine ⟨rfl, hunlisted, fun other hother => ?_⟩
    obtain rfl := Option.some.inj (hother.symm.trans hget)
    exact hreason
  · exact hunseen (hfiled.seenIn_of_own hunended hr hown)
  · exact ⟨conn, hget, by rw [hopened]; exact Option.some_ne_none _, hname, haddress,
      .logged hcid hopened hclosed hnow hunlisted⟩
  · rcases hback hr with ⟨-, hne⟩ | hold
    · exact absurd hopen hne
    · exact hfiled.opens id r hold hopen
  · exact (h.queued.read hwired).mono fun d => seenIn_insert hfiled.linked rfl
  · rcases hback hr with ⟨hnone, -⟩ | hold
    · rw [hnone] at hd
      cases hd
    · exact (h.known id r d hold hd).imp_left (Known.read hwired)

theorem Books.latestSession_end (hwired : Wired conns ((c, line) :: rest))
    (h : Books conns ((c, line) :: rest) status pending Unclosed active db)
    (hget : conns[c]? = some conn) (hcrowd : (crowd conns conn.cn conn.since).length ≤ 20)
    {id : Nat} (hrow : db.sessions.get? id = some row)
    (hcid : row.cid = some c) :
    db.latestSession conn.cn conn.address
      ((pending.get? conn.address).elim 0 fun peer => peer.ts - 30) = some (id, row) := by
  obtain ⟨own, hfiled⟩ := h.filed
  have hunended := hwired.endLast (c, line) List.mem_cons_self
  refine hfiled.latestSession_some hwired h.spaced hget hunended hcrowd hrow hcid ?_
  cases hpeer : pending.get? conn.address with
  | none => exact .inl (Nat.zero_le _)
  | some peer =>
      refine .inr ((h.known id row c hrow hcid).resolve_left fun hknown => ?_)
      have hnone := hknown.2 conn hget hunended
      rw [hpeer] at hnone
      cases hnone

theorem Books.peer_of_end (hwired : Wired conns ((c, line) :: rest))
    (h : Books conns ((c, line) :: rest) status pending phase active db)
    (hend : line.isEnd = true) (hget : conns[c]? = some conn)
    (hopened : conn.opened ≠ none) (hunseen : ¬SeenIn db c) :
    ∃ peer, pending.get? conn.address = some peer ∧ peer.cn = some conn.cn ∧
      conn.opened = some peer.ts := by
  have hunended := hwired.endLast (c, line) List.mem_cons_self
  have hheard : HeardOpen conns ((c, line) :: rest) c := by
    refine ⟨⟨conn, hget, hopened⟩, fun other hother hc => ?_⟩
    rcases List.mem_cons.mp hother with rfl | hother
    · cases line with
      | ended ts address cn reason => rfl
      | _ => cases hend
    · have hlast := (((List.pairwise_cons.mp hwired.ordered).1 other hother).1 hc.symm).1
      rw [hend] at hlast
      cases hlast
  obtain ⟨peer, hpeer⟩ := (h.queued.kept c conn hget hheard hunended).resolve_right hunseen
  obtain ⟨d, hwaits⟩ := h.queued.waits conn.address peer hpeer
  obtain rfl := hwaits.of_head hwired hget
  obtain ⟨-, other, hother, hcn, hts⟩ := hwaits.reached.resolve_left fun hnot => hnot.2 hheard
  obtain rfl := Option.some.inj (hother.symm.trans hget)
  exact ⟨peer, hpeer, hcn, hts⟩

theorem Books.endSession (hwired : Wired conns ((c, line) :: rest))
    (hready : Ready now conns ((c, line) :: rest) status db)
    (h : Books conns ((c, line) :: rest) status pending Unclosed active db)
    (hget : conns[c]? = some conn) (hopened : conn.opened ≠ none) {ts : Nat} {reason : Text}
    (hend : line.isEnd = true) (hreason : conn.ended = some reason) :
    Books conns rest status (pendingLine pending line) Unclosed active
        (endSession (pending.get? conn.address) db ts conn.address conn.cn reason) ∧
      ∀ d, SeenIn db d → SeenIn
        (endSession (pending.get? conn.address) db ts conn.address conn.cn reason) d := by
  have hmine : ∃ other ∈ (c, line) :: rest, other.1 = c := ⟨_, List.mem_cons_self, rfl⟩
  have hended : conn.ended ≠ none := by
    rw [hreason]
    exact Option.some_ne_none reason
  unfold Collector.endSession
  by_cases hseen : SeenIn db c
  · obtain ⟨id, row, hrow, hcid⟩ := hseen
    have hfound := h.latestSession_end hwired hget (hready.crowd c conn hget (.inr hmine)) hrow hcid
    have hwritten : Books conns ((c, line) :: rest) status pending Unclosed active
        (db.updateSession id fun row => { row with endReason := some reason }) := by
      refine h.update (keepsOwner_endReason reason) (fun _ => rfl) (fun _ _ hopen => hopen) id
        fun r hr => .inr ⟨c, ?_, hwired.endLast (c, line) List.mem_cons_self⟩
      obtain rfl := Option.some.inj (hr.symm.trans hrow)
      exact hcid
    have hread := hwritten.heard hwired fun _ other hother _ => by
      obtain rfl := Option.some.inj (hother.symm.trans hget)
      refine ⟨id, { row with endReason := some reason }, ?_, hcid, hreason.symm⟩
      change (db.sessions.modify id _).get? id = _
      rw [Dict.get?_modify, if_pos rfl, hrow, Option.map_some]
    have hseen (d : Nat) (hd : SeenIn db d) := seenIn_update (keepsOwner_endReason reason) id hd
    rw [hfound]
    cases pending.get? conn.address with
    | none => exact ⟨hread, hseen⟩
    | some peer =>
        exact ⟨hread.withDevice (fun _ _ hopen => hopen) id, fun d hd =>
          seenIn_update (keepsOwner_withDevice _ _) id (hseen d hd)⟩
  · obtain ⟨peer, hpeer, hcn, hts⟩ := h.peer_of_end hwired hend hget hopened hseen
    obtain ⟨own, hfiled⟩ := h.filed
    have hunended := hwired.endLast (c, line) List.mem_cons_self
    have hnone := hfiled.latestSession_none hwired h.spaced hget hunended hts
      fun id r hr hown => hseen (hfiled.seenIn_of_own hunended hr hown)
    rw [hpeer, Option.elim_some, hnone]
    dsimp only
    rw [if_pos hcn]
    have hlogged : Books conns rest status (pendingLine pending line) Unclosed active
        (db.insertSession (Session.ofLog conn.cn conn.address peer ts reason)).2 :=
      h.logged hwired hend hget ((hready.seen c conn hget hended hmine).resolve_right hseen) hseen
        rfl rfl rfl hts (Option.some_ne_none ts) hreason.symm
    exact ⟨hlogged.withDevice (fun _ _ hopen => hopen) _, fun d hd =>
      seenIn_update (keepsOwner_withDevice _ _) _ (seenIn_insert hfiled.linked rfl hd)⟩

theorem Books.readLine (hwired : Wired conns ((c, line) :: rest))
    (hready : Ready now conns ((c, line) :: rest) status db)
    (h : Books conns ((c, line) :: rest) status pending Unclosed active db) :
    Books conns rest status (logLine (pending, db) line).1 Unclosed active
        (logLine (pending, db) line).2 ∧
      ∀ d, SeenIn db d → SeenIn (logLine (pending, db) line).2 d := by
  obtain ⟨conn, hget, hwrote⟩ := hwired.wrote (c, line) List.mem_cons_self
  rw [logLine_eq]
  cases line with
  | rejection ts client reason address => exact hwrote.elim
  | info ts address key value => exact ⟨h.heard hwired fun hend => (by cases hend), fun _ hd => hd⟩
  | opened ts address cn => exact ⟨h.heard hwired fun hend => (by cases hend), fun _ hd => hd⟩
  | ended ts address cn reason =>
      obtain ⟨rfl, hcn, hreason⟩ := hwrote
      cases hopened : conn.opened with
      | none =>
          rw [hopened, Option.map_none] at hcn
          subst hcn
          refine ⟨h.heard hwired fun _ other hother hne => ?_, fun _ hd => hd⟩
          obtain rfl := Option.some.inj (hother.symm.trans hget)
          exact absurd hopened hne
      | some openTs =>
          rw [hopened, Option.map_some] at hcn
          subst hcn
          refine h.endSession hwired hready hget ?_ rfl hreason
          rw [hopened]
          exact Option.some_ne_none openTs

theorem Books.readLines (hwired : Wired conns unread) (hready : Ready now conns unread status db)
    (h : Books conns unread status pending Unclosed active db) :
    Books conns [] status ((unread.map Prod.snd).foldl logLine (pending, db)).1 Unclosed active
        ((unread.map Prod.snd).foldl logLine (pending, db)).2 ∧
      Ready now conns [] status ((unread.map Prod.snd).foldl logLine (pending, db)).2 := by
  induction unread generalizing pending db with
  | nil => exact ⟨h, hready⟩
  | cons first rest ih =>
      obtain ⟨c, line⟩ := first
      obtain ⟨hbooks, hseen⟩ := h.readLine hwired hready
      exact ih hwired.read (hready.mono (fun _ => List.mem_cons_of_mem _) hseen) hbooks

theorem Wired.readAll (h : Wired conns unread) : Wired conns [] := by
  induction unread with
  | nil => exact h
  | cons first rest ih => exact ih h.read

section Describe

variable {items : List (Text × Peer)} {item : Text × Peer}

def Awaited (conns : List Link) (items : List (Text × Peer)) : Nat → Session → Prop :=
  fun c row => row.disconnectedAt = none ∧
    ∃ conn, conns[c]? = some conn ∧ conn.address ∈ items.map Prod.fst

theorem Books.looked
    (h : Books conns [] status pending (Awaited conns (item :: items)) active db)
    (hpending : pending' = pending ∨ pending' = pending.erase item.1)
    (hdropped : ∀ (c : Nat) (conn : Link), conns[c]? = some conn → conn.address = item.1 →
      HeardOpen conns [] c → ¬HeardEnd conns [] c →
      (SeenIn db c ↔ pending'.get? item.1 = none)) :
    Books conns [] status pending' (Awaited conns items) active db := by
  have hold {a : Text} {peer : Peer} (hpeer : pending'.get? a = some peer) :
      pending.get? a = some peer := by
    rcases hpending with rfl | rfl
    · exact hpeer
    · exact (Dict.get?_of_erase hpeer).2
  have hother {a : Text} (ha : a ≠ item.1) : pending'.get? a = pending.get? a := by
    rcases hpending with rfl | rfl
    · rfl
    · rw [Dict.get?_erase, if_neg ha]
  refine ⟨h.filed, h.spaced, ⟨fun a peer hpeer => h.queued.waits a peer (hold hpeer),
    fun c conn hget hheard hunended => ?_⟩, fun id row c hrow hcid => ?_⟩
  · by_cases ha : conn.address = item.1
    · by_cases hseen : SeenIn db c
      · exact .inr hseen
      · rw [hdropped c conn hget ha hheard hunended, ← ha, ← ne_eq,
          Option.ne_none_iff_exists'] at hseen
        exact .inl hseen
    · rw [hother ha]
      exact h.queued.kept c conn hget hheard hunended
  · rcases h.known id row c hrow hcid with ⟨hheard, hnone⟩ | ⟨hopen, conn, hget, hmem⟩
    · refine .inl ⟨hheard, fun conn hget hunended => ?_⟩
      have hempty := hnone conn hget hunended
      rw [Option.eq_none_iff_forall_ne_some] at hempty ⊢
      exact fun peer hpeer => hempty peer (hold hpeer)
    · by_cases ha : conn.address = item.1
      · obtain ⟨own, hfiled⟩ := h.filed
        have howned := hfiled.owned id row hrow
        obtain ⟨other, hsame, hopened, -⟩ := howned.of_link
        rw [← howned.cid_eq hcid] at hsame
        have hheard : HeardOpen conns [] c :=
          ⟨⟨other, hsame, hopened⟩, fun line hline => absurd hline List.not_mem_nil⟩
        refine .inl ⟨hheard, fun same hget' hunended => ?_⟩
        obtain rfl := Option.some.inj (hget'.symm.trans hget)
        rw [ha]
        exact (hdropped c same hget ha hheard hunended).mp ⟨id, row, hrow, hcid⟩
      · refine .inr ⟨hopen, conn, hget, ?_⟩
        rw [List.map_cons, List.mem_cons] at hmem
        exact hmem.resolve_left ha

theorem Books.describeOne (hwired : Wired conns [])
    (hready : Ready now conns [] status db)
    (h : Books conns [] status pending (Awaited conns (item :: items)) active db)
    (hitem : pending.get? item.1 = some item.2) :
    Books conns [] status (describeOne now (pending, db) item).1 (Awaited conns items) active
        (describeOne now (pending, db) item).2 ∧
      ∀ d, SeenIn db d ↔ SeenIn (describeOne now (pending, db) item).2 d := by
  obtain ⟨own, hfiled⟩ := h.filed
  obtain ⟨d, hcurrent, hreached⟩ := h.queued.waits item.1 item.2 hitem
  -- the handshake's connection is the only one there
  have halone (c : Nat) (conn : Link) (hget : conns[c]? = some conn)
      (haddress : conn.address = item.1) (hheard : HeardOpen conns [] c)
      (hunended : ¬HeardEnd conns [] c) : c = d :=
    (haddress ▸ Current.of_heardOpen hwired hget hheard hunended).unique hwired hcurrent
  rw [describeOne_eq]
  rcases hreached with ⟨hcn, hunheard⟩ | ⟨hheard, conn, hget, hcn, hts⟩
  · have hnone : describedRow db item = none := by
      rw [describedRow, hcn, Option.bind_none]
    have hrows : describedRows db item = db := by
      rw [describedRows, hnone]
    rw [hrows]
    refine ⟨h.looked ?_ fun c conn hget ha hheard hunended => ?_, fun _ => Iff.rfl⟩
    · split
      · exact .inr rfl
      · exact .inl rfl
    · exact absurd (halone c conn hget ha hheard hunended ▸ hheard) hunheard
  · obtain ⟨same, hsame, haddress⟩ := hcurrent.at_address
    obtain rfl := Option.some.inj (hsame.symm.trans hget)
    have hlive : same.ended = none := by
      by_contra hended
      exact hcurrent.unended
        ⟨⟨same, hget, hended⟩, fun line hline => absurd hline List.not_mem_nil⟩
    by_cases hseen : SeenIn db d
    · obtain ⟨id, row, hrow, hcid⟩ := hseen
      have hopen : row.disconnectedAt = none := by
        refine ((h.known id row d hrow hcid).resolve_left fun hknown => ?_).1
        have hnone := hknown.2 same hget hcurrent.unended
        rw [haddress, hitem] at hnone
        cases hnone
      have hfound : describedRow db item = some (id, row) := by
        rw [describedRow, hcn, Option.bind_some, ← haddress]
        exact hfiled.latestSession_some hwired h.spaced hget hcurrent.unended
          (hready.crowd d same hget (.inl hlive)) hrow hcid (.inr hopen)
      rw [dropped, describedRows, hfound, Option.isSome_some, Bool.true_or, if_pos rfl]
      have hdescribed : Books conns [] status pending (Awaited conns (item :: items)) active
          (db.updateSession id (Session.withDevice item.1 item.2)) :=
        h.withDevice (fun _ _ hphase => hphase) id
      have hsees (c : Nat) : SeenIn db c ↔
          SeenIn (db.updateSession id (Session.withDevice item.1 item.2)) c := by
        refine ⟨seenIn_update (keepsOwner_withDevice _ _) id, fun hnow => ?_⟩
        obtain ⟨id', row', hrow', hcid'⟩ := hnow
        rcases Dict.get?_modify_cases hrow' with ⟨rfl, old, hold, rfl⟩ | ⟨-, hold⟩
        · exact ⟨id', old, hold, hcid'⟩
        · exact ⟨id', row', hold, hcid'⟩
      refine ⟨hdescribed.looked (.inr rfl) fun c conn hget' ha hheard' hunended => ?_, hsees⟩
      obtain rfl := halone c conn hget' ha hheard' hunended
      refine iff_of_true ((hsees c).mp ⟨id, row, hrow, hcid⟩) ?_
      rw [Dict.get?_erase, if_pos rfl]
    · have hnone : describedRow db item = none := by
        rw [describedRow, hcn, Option.bind_some, ← haddress]
        exact hfiled.latestSession_none hwired h.spaced hget hcurrent.unended hts
          fun id row hrow hown => hseen (hfiled.seenIn_of_own hcurrent.unended hrow hown)
      have hfresh : ¬tooOld now item.2 :=
        Nat.not_lt.mpr (hready.fresh d same hget hlive hseen item.2.ts hts)
      rw [dropped, describedRows, hnone, Option.isSome_none, Bool.false_or,
        decide_eq_false hfresh, if_neg Bool.false_ne_true]
      refine ⟨h.looked (.inl rfl) fun c conn hget' ha hheard' hunended => ?_, fun _ => Iff.rfl⟩
      obtain rfl := halone c conn hget' ha hheard' hunended
      refine iff_of_false hseen ?_
      rw [hitem]
      exact Option.some_ne_none item.2

theorem Books.describe (hwired : Wired conns []) (hready : Ready now conns [] status db)
    (h : Books conns [] status pending (Awaited conns items) active db)
    (hitems : ∀ item ∈ items, pending.get? item.1 = some item.2)
    (hnodup : (items.map Prod.fst).Nodup) :
    Books conns [] status (items.foldl (Collector.describeOne now) (pending, db)).1 AtRest active
      (items.foldl (Collector.describeOne now) (pending, db)).2 := by
  induction items generalizing pending db with
  | nil => exact h.weaken fun c row hphase => by simp [Awaited] at hphase
  | cons item rest ih =>
      rw [List.map_cons, List.nodup_cons] at hnodup
      obtain ⟨hbooks, hseen⟩ := h.describeOne hwired hready (hitems item List.mem_cons_self)
      have hkept : ∀ other ∈ rest,
          (Collector.describeOne now (pending, db) item).1.get? other.1 = some other.2 := by
        intro other hother
        have hne : other.1 ≠ item.1 := fun heq =>
          hnodup.1 (List.mem_map.mpr ⟨other, hother, heq⟩)
        have hold := hitems other (List.mem_cons_of_mem _ hother)
        rw [describeOne_eq]
        dsimp only
        split
        · rw [Dict.get?_erase, if_neg hne]
          exact hold
        · exact hold
      have hready' := hready.mono (fun _ hother => hother) fun c => (hseen c).mp
      exact ih hready' hbooks hkept hnodup.2

end Describe

theorem readLogs_whole (now : Nat) (lines : List LogLine) (pending : Pending) (db : Database) :
    readLogs now none [⟨lines, true⟩] (pending, db) =
      (lines.foldl logLine (pending, db)).1.entries.foldl (describeOne now)
        (lines.foldl logLine (pending, db)) := by
  unfold readLogs readLogs
  rw [if_pos rfl]
  generalize lines.foldl logLine (pending, db) = state
  obtain ⟨pending, db⟩ := state
  dsimp only
  split
  · rename_i hempty
    rw [hempty, List.foldl_nil]
  · rfl

theorem Books.readLogs (hwired : Wired conns unread) (hready : Ready now conns unread status db)
    (h : Books conns unread status pending Unclosed active db) :
    Books conns [] status
      (readLogs now none [⟨unread.map Prod.snd, true⟩] (pending, db)).1 AtRest active
      (readLogs now none [⟨unread.map Prod.snd, true⟩] (pending, db)).2 := by
  obtain ⟨hbooks, hready⟩ := h.readLines hwired hready
  rw [readLogs_whole]
  generalize (unread.map Prod.snd).foldl logLine (pending, db) = state at hbooks hready
  obtain ⟨pending, db⟩ := state
  have hread : Wired conns [] := hwired.readAll
  refine Books.describe hread hready ⟨hbooks.filed, hbooks.spaced, hbooks.queued, ?_⟩ ?_
    pending.nodup
  · intro id row c hrow hcid
    rcases hbooks.known id row c hrow hcid with hknown | hopen
    · exact .inl hknown
    · obtain ⟨own, hfiled⟩ := hbooks.filed
      have howned := hfiled.owned id row hrow
      obtain ⟨conn, hget, hopened, -⟩ := howned.of_link
      rw [← howned.cid_eq hcid] at hget
      cases hpeer : pending.get? conn.address with
      | none =>
          refine .inl ⟨⟨⟨conn, hget, hopened⟩, fun line hline => absurd hline List.not_mem_nil⟩,
            fun other hother _ => ?_⟩
          obtain rfl := Option.some.inj (hother.symm.trans hget)
          exact hpeer
      | some peer =>
          exact .inr ⟨hopen, conn, hget, pending.mem_keys_iff.mpr ⟨peer, hpeer⟩⟩
  · rintro ⟨a, peer⟩ hitem
    exact pending.get?_eq_some_iff.mpr hitem

end Read

end OpenvpnServer.Collector
