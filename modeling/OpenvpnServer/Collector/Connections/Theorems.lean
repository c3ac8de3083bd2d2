import OpenvpnServer.Collector.Connections.Reading
import Mathlib.Data.Set.Function

-- In the long run the collector's table has one row for each connection.
namespace OpenvpnServer.Collector

open OpenvpnServer.Lib

-- Every row is that of one connection whose handshake completed, with its name, its
-- address and the reason of its own end, and every such connection has its row.
def Site.OneRowEach (s : Site) : Prop :=
  ∃ owner : Nat → Nat,
    Set.BijOn owner {id | ∃ row, s.db.sessions.get? id = some row}
      {c | ∃ conn, s.conns[c]? = some conn ∧ conn.opened ≠ none} ∧
    ∀ id row, s.db.sessions.get? id = some row → ∃ conn, s.conns[owner id]? = some conn ∧
      row.clientName = conn.cn ∧ row.realAddress = conn.address ∧ row.endReason = conn.ended

def Site.AllSettled (s : Site) : Prop :=
  ∀ c < s.conns.length, ∀ conn ∈ s.conns[c]?, s.Settled c conn

instance (s : Site) : Decidable s.AllSettled :=
  inferInstanceAs (Decidable (∀ c < s.conns.length, ∀ conn ∈ s.conns[c]?, s.Settled c conn))

namespace Site

section Steps

variable {s s' : Site} {e : SiteStep}

theorem seen_iff {c : Nat} : s.Seen c ↔ SeenIn s.db c := by
  constructor
  · rintro ⟨⟨id, row⟩, hmem, hcid⟩
    exact ⟨id, row, s.db.sessions.get?_eq_some_iff.mpr hmem, hcid⟩
  · rintro ⟨id, row, hrow, hcid⟩
    exact ⟨(id, row), s.db.sessions.get?_eq_some_iff.mp hrow, hcid⟩

theorem unlisted_iff {c : Nat} : Unlisted s.status c ↔ ¬s.Listed c := by
  unfold Unlisted Listed
  simp only [not_exists, not_and]

theorem Settled.heardEnd {c : Nat} {conn : Link} (h : s.Settled c conn)
    (hget : s.conns[c]? = some conn) : HeardEnd s.conns s.unread c :=
  ⟨⟨conn, hget, h.1⟩, fun line hline hc => absurd hc (h.2.1 line hline)⟩

theorem free_of_orderly {cn address : Text} {now : Nat}
    (h : s.Orderly (.begin cn address now)) :
    Free s.conns s.unread s.status s.active ⟨cn, address, now, none, none⟩ := by
  intro a conn hget hsame
  have hlt := (List.getElem?_eq_some_iff.mp hget).1
  obtain ⟨hsettled, htime⟩ := h a hlt conn hget hsame
  refine ⟨hsettled.heardEnd hget, unlisted_iff.mpr hsettled.2.2.1, fun key entry hentry => ?_,
    fun ts hts => htime ts hts⟩
  exact hsettled.2.2.2 key (s.active.mem_keys_iff.mpr ⟨entry, hentry⟩)

theorem writes_of_step (horderly : s.Orderly e) (h : s.step e = some s') :
    (∃ conns unread, Writes s.conns s.unread conns unread ∧
      (∀ new, conns = s.conns ++ [new] → Free s.conns s.unread s.status s.active new) ∧
      s' = { s with conns := conns, unread := unread }) ∨
    (∃ status, UpToDate s.conns status ∧ s' = { s with status := status }) ∨
    (∃ now, e = .poll now) ∨ ∃ now count, e = .readLogs now count := by
  have hset {c : Nat} {new last : Link} (heq : s.conns.set c new = s.conns ++ [last]) : False := by
    have hlength := congrArg List.length heq
    simp at hlength
  cases e with
  | begin cn address now =>
      simp only [step, Option.ite_none_right_eq_some, Option.some.injEq] at h
      obtain ⟨⟨hnow, hall⟩, rfl⟩ := h
      refine .inl ⟨_, s.unread, .begin ⟨cn, address, now, none, none⟩ rfl rfl hnow ?_, ?_, rfl⟩
      · intro conn hconn hlive haddress
        have hfree := List.all_eq_true.mp hall conn hconn
        simp [Link.live, hlive, haddress] at hfree
      · intro new heq
        obtain rfl := List.singleton_inj.mp (List.append_cancel_left heq)
        exact free_of_orderly horderly
  | info c ts key value =>
      obtain ⟨conn, hconn, rfl⟩ := Option.map_eq_some_iff.mp h
      obtain ⟨hget, hlive⟩ := Option.filter_eq_some_iff.mp hconn
      simp only [Link.live, Bool.and_eq_true, decide_eq_true_eq] at hlive
      have hsame : s.conns.set c conn = s.conns := by
        obtain ⟨hlt, rfl⟩ := List.getElem?_eq_some_iff.mp hget
        exact List.set_getElem_self hlt
      have hwrites : Writes s.conns s.unread (s.conns.set c conn)
          (s.unread ++ [(c, .info ts conn.address key value)]) :=
        .act c conn conn _ hget hlive.1 (.refl conn) rfl
          ⟨fun hopen => (by cases hopen), fun hopen => absurd hopen.1 hopen.2⟩ (fun _ => hlive.2)
          ⟨fun hend => (by cases hend), fun hend => absurd hlive.1 hend⟩ fun _ hts => .inl hts
      rw [hsame] at hwrites
      exact .inl ⟨_, _, hwrites, fun new heq => (hset (hsame.trans heq)).elim, rfl⟩
  | opened c now =>
      obtain ⟨conn, hconn, rfl⟩ := Option.map_eq_some_iff.mp h
      obtain ⟨hget, hlive⟩ := Option.filter_eq_some_iff.mp hconn
      simp only [Link.live, Bool.and_eq_true, decide_eq_true_eq] at hlive
      refine .inl ⟨_, _, .act c conn { conn with opened := some now }
        (.opened now conn.address conn.cn) hget hlive.1 ?_
        ⟨rfl, rfl, rfl⟩ ⟨fun _ => ⟨hlive.2, Option.some_ne_none now⟩, fun _ => rfl⟩
        (fun hinfo => by cases hinfo) ⟨fun hend => (by cases hend), fun hend => absurd hlive.1 hend⟩
        fun ts hts => .inr ?_, fun new heq => (hset heq).elim, rfl⟩
      · refine ⟨rfl, rfl, rfl, fun ts hts => ?_, fun _ hended => hended⟩
        rw [hlive.2] at hts
        cases hts
      · obtain rfl := Option.some.inj hts
        exact horderly conn hget
  | ended c now reason =>
      obtain ⟨conn, hconn, rfl⟩ := Option.map_eq_some_iff.mp h
      obtain ⟨hget, hlive⟩ := Option.filter_eq_some_iff.mp hconn
      simp only [Link.live, decide_eq_true_eq] at hlive
      refine .inl ⟨_, _, .act c conn { conn with ended := some reason }
        (.ended now conn.address (conn.opened.map fun _ => conn.cn) reason) hget hlive ?_
        ⟨rfl, rfl, rfl⟩ ⟨fun hopen => (by cases hopen), fun hopen => absurd hopen.1 hopen.2⟩
        (fun hinfo => by cases hinfo) ⟨fun _ => Option.some_ne_none reason, fun _ => rfl⟩
        fun ts hts => .inl hts, fun new heq => (hset heq).elim, rfl⟩
      refine ⟨rfl, rfl, rfl, fun _ hopened => hopened, fun _ hended => ?_⟩
      rw [hlive] at hended
      cases hended
  | rewrite status =>
      simp only [step, Option.ite_none_right_eq_some, Option.some.injEq] at h
      obtain ⟨hall, rfl⟩ := h
      refine .inr (.inl ⟨status, fun cl hcl => ?_, rfl⟩)
      obtain ⟨conn, hget, hlisted⟩ := (Option.any_eq_true _ _).mp (List.all_eq_true.mp hall cl hcl)
      simp only [Link.listedAs, Link.live, Bool.and_eq_true, decide_eq_true_eq,
        Option.isSome_iff_ne_none] at hlisted
      obtain ⟨⟨⟨⟨hlive, hopened⟩, hsince⟩, hcn⟩, hat⟩ := hlisted
      exact ⟨conn, hget, hlive, hopened, hsince, hcn, hat⟩
  | poll now => exact .inr (.inr (.inl ⟨now, rfl⟩))
  | readLogs now count => exact .inr (.inr (.inr ⟨now, count, rfl⟩))

theorem ready_of_orderly {now count : Nat} (h : s.Orderly (.readLogs now count)) :
    Ready now s.conns s.unread s.status s.db := by
  have hintime (c : Nat) (conn : Link) (hget : s.conns[c]? = some conn) : s.InTime now c conn :=
    h.2 c (List.getElem?_eq_some_iff.mp hget).1 conn hget
  have hunheard {c : Nat} (hline : ∃ line ∈ s.unread, line.1 = c) : ¬s.Heard c := by
    obtain ⟨line, hline, hc⟩ := hline
    exact fun hheard => hheard line hline hc
  refine ⟨fun c conn hget hended hline => ?_, fun c conn hget hline => ?_,
    fun c conn hget hlive hunseen ts hts => ?_⟩
  · rw [unlisted_iff, ← seen_iff, or_iff_not_imp_left, not_not]
    exact (hintime c conn hget).1 hended (hunheard hline)
  · exact (hintime c conn hget).2.1 (hline.imp_right hunheard)
  · exact (hintime c conn hget).2.2 hlive (mt seen_iff.mp hunseen) ts hts

end Steps

section Runs

variable {s s' : Site} {e : SiteStep}

structure Kept (s : Site) : Prop where
  wired : Wired s.conns s.unread
  books : Books s.conns s.unread s.status s.pending (if s.polled then Unclosed else AtRest)
    s.active s.db
  resync : s.world.collector.resync = false

theorem kept_init : Kept init := by
  refine ⟨.nil, ⟨⟨id, ?_⟩, ?_, .nil, ?_⟩, rfl⟩
  · refine ⟨⟨?_, ?_, ?_⟩, ?_, ?_, ?_, ?_, ?_⟩
    · intro id row hrow; cases hrow
    · intro id id' row row' k hrow; cases hrow
    · intro k entry hentry; cases hentry
    · intro id row hrow; cases hrow
    · intro id id' row row' hrow; cases hrow
    · intro id row hrow; cases hrow
    · intro c conn hget; cases hget
    · intro cl hcl; cases hcl
  · intro a b conn conn' _ hget; cases hget
  · intro id row c hrow; cases hrow

theorem Kept.step (h : s.Kept) (horderly : s.Orderly e) (hstep : s.step e = some s') :
    s'.Kept := by
  rcases writes_of_step horderly hstep with ⟨conns, unread, hwrites, hfree, rfl⟩ |
    ⟨status, hstatus, rfl⟩ | ⟨now, rfl⟩ | ⟨now, count, rfl⟩
  · exact ⟨h.wired.writes hwrites, h.books.writes h.wired hwrites hfree, h.resync⟩
  · exact ⟨h.wired, h.books.rewrite hstatus, h.resync⟩
  · by_cases hpolled : s.polled = true
    · simp [Site.step, hpolled] at hstep
    · have hbooks := h.books
      rw [if_neg hpolled] at hbooks
      rw [Site.step, if_neg hpolled] at hstep
      obtain rfl := Option.some.inj hstep
      obtain ⟨hbooks', hresync⟩ := hbooks.poll h.wired h.resync
      exact ⟨h.wired, hbooks', hresync⟩
  · by_cases hpolled : s.polled = true
    · have hbooks := h.books
      rw [if_pos hpolled] at hbooks
      rw [Site.step, if_pos hpolled, List.take_of_length_le horderly.1,
        List.drop_eq_nil_of_le horderly.1] at hstep
      obtain rfl := Option.some.inj hstep
      exact ⟨h.wired.readAll, hbooks.readLogs h.wired (ready_of_orderly horderly), h.resync⟩
    · simp [Site.step, hpolled] at hstep

theorem Kept.oneRowEach (h : s.Kept) (hsettled : s.AllSettled) : s.OneRowEach := by
  obtain ⟨owner, hfiled⟩ := h.books.filed
  have hended (c : Nat) (conn : Link) (hget : s.conns[c]? = some conn) :
      HeardEnd s.conns s.unread c :=
    (hsettled c (List.getElem?_eq_some_iff.mp hget).1 conn hget).heardEnd hget
  refine ⟨owner, ⟨fun id ⟨row, hrow⟩ => ?_, fun id ⟨row, hrow⟩ id' ⟨row', hrow'⟩ heq => ?_,
    fun c ⟨conn, hget, hopened⟩ => ?_⟩, fun id row hrow => ?_⟩
  · obtain ⟨conn, hget, hopened, -⟩ := (hfiled.owned id row hrow).of_link
    exact ⟨conn, hget, hopened⟩
  · exact hfiled.inj id id' row row' hrow hrow' heq
  · obtain ⟨id, row, hrow, hown, -⟩ := hfiled.reasons c conn hget hopened (hended c conn hget)
    exact ⟨id, ⟨row, hrow⟩, hown⟩
  · obtain ⟨conn, hget, hopened, hname, haddress, -⟩ := (hfiled.owned id row hrow).of_link
    refine ⟨conn, hget, hname, haddress, ?_⟩
    obtain ⟨id', row', hrow', hown, hreason⟩ :=
      hfiled.reasons _ conn hget hopened (hended _ conn hget)
    obtain rfl := hfiled.inj id' id row' row hrow' hrow hown
    obtain rfl := Option.some.inj (hrow'.symm.trans hrow)
    exact hreason

theorem one_row_per_connection (hreaches : Reaches step Orderly init s)
    (hsettled : s.AllSettled) : s.OneRowEach :=
  (hreaches.invariant (fun _ _ _ hkept horderly hstep => hkept.step horderly hstep)
    kept_init).oneRowEach hsettled

end Runs

section Samples

def home : Text := "udp4:203.0.113.5:40000".toList

def aliceListed (cid since : Nat) : Client :=
  ⟨"alice".toList, home, "10.8.0.6".toList, (0, 0), since, [], cid, []⟩

def aliceLeaves : List SiteStep :=
  [.begin "alice".toList home 1000, .opened 0 1001, .rewrite ⟨1005, [aliceListed 0 1000], true⟩,
    .poll 1006, .readLogs 1006 100, .ended 0 1010 "left".toList]

-- Alice comes back from the same port after a settled connection, and leaves again
-- before a status lists her.
def returnsLater : List SiteStep := aliceLeaves ++
  [.rewrite ⟨1015, [], true⟩, .poll 1016, .readLogs 1016 100, .begin "alice".toList home 1100,
    .opened 1 1101, .ended 1 1102 "timed out".toList, .poll 1106, .readLogs 1106 100]

theorem alice_has_two_rows : ∃ s, runSteps step init returnsLater = some s ∧
    s.AllSettled ∧ s.db.sessions.keys = [1, 2] ∧ s.OneRowEach := by
  have hread : (runSteps step init returnsLater).any (fun s =>
      decide s.AllSettled && decide (s.db.sessions.keys = [1, 2])) = true := by
    decide
  obtain ⟨s, hrun, hfacts⟩ := (Option.any_eq_true _ _).mp hread
  simp only [Bool.and_eq_true, decide_eq_true_eq] at hfacts
  exact ⟨s, hrun, hfacts.1, hfacts.2, one_row_per_connection
    (Reaches.of_runSteps hrun (by decide)) hfacts.1⟩

-- Here she comes back at once: when the logs are read, the end line of her first
-- connection finds the row of the second.
def returnsAtOnce : List SiteStep := aliceLeaves ++
  [.begin "alice".toList home 1011, .opened 1 1012, .rewrite ⟨1015, [aliceListed 1 1011], true⟩,
    .poll 1016, .readLogs 1016 100, .ended 1 1100 "timed out".toList, .rewrite ⟨1105, [], true⟩,
    .poll 1106, .readLogs 1106 100]

theorem reused_port_loses_end_reason :
    ¬∀ s, Reaches step (fun _ _ => True) init s → s.AllSettled → s.OneRowEach := by
  intro h
  have hread : (runSteps step init returnsAtOnce).any (fun s => decide s.AllSettled &&
      (s.db.sessions.get? 1).any fun row => row.endReason = none) = true := by
    decide
  obtain ⟨s, hrun, hfacts⟩ := (Option.any_eq_true _ _).mp hread
  simp only [Bool.and_eq_true, decide_eq_true_eq, Option.any_eq_true] at hfacts
  obtain ⟨hsettled, row, hrow, hreason⟩ := hfacts
  have hreaches := Reaches.of_runSteps hrun (AllowedRun.of_runSteps hrun)
  obtain ⟨owner, -, hrows⟩ := h s hreaches hsettled
  obtain ⟨conn, hget, -, -, hended⟩ := hrows 1 row hrow
  have hlt := (List.getElem?_eq_some_iff.mp hget).1
  exact (hsettled _ hlt conn hget).1 (hended.symm.trans hreason)

end Samples

end Site

end OpenvpnServer.Collector
