import OpenvpnServer.Collector.Connections
import OpenvpnServer.Collector.Describe
import OpenvpnServer.Collector.Lemmas
import OpenvpnServer.Lib.Table

namespace OpenvpnServer.Collector

open OpenvpnServer.Lib

variable {line : LogLine} {conn conn' : Link} {rest : List (Nat × LogLine)}

def LogLine.isOpen : LogLine → Bool
  | .opened _ _ _ => true
  | _ => false

def LogLine.isInfo : LogLine → Bool
  | .info _ _ _ _ => true
  | _ => false

theorem LogLine.of_isEnd (h : line.isEnd = true) :
    line.isOpen = false ∧ line.isInfo = false := by
  cases line with
  | ended ts address cn reason => exact ⟨rfl, rfl⟩
  | _ => cases h

def Link.Wrote (conn : Link) : LogLine → Prop
  | .rejection _ _ _ _ => False
  | .info _ address _ _ => address = conn.address
  | .opened ts address cn => address = conn.address ∧ cn = conn.cn ∧ conn.opened = some ts
  | .ended _ address cn reason => address = conn.address ∧
      cn = (conn.opened.map fun _ => conn.cn) ∧ conn.ended = some reason

theorem Link.Wrote.address (h : conn.Wrote line) :
    line.address? = some conn.address := by
  cases line with
  | rejection ts client reason address => exact h.elim
  | info ts address key value => exact congrArg some h
  | opened ts address cn => exact congrArg some h.1
  | ended ts address cn reason => exact congrArg some h.1

theorem Link.Wrote.opened_ne (h : conn.Wrote line)
    (hopen : line.isOpen = true) : conn.opened ≠ none := by
  cases line with
  | opened ts address cn =>
      rw [h.2.2]
      exact Option.some_ne_none ts
  | _ => cases hopen

theorem Link.Wrote.ended_ne (h : conn.Wrote line)
    (hend : line.isEnd = true) : conn.ended ≠ none := by
  cases line with
  | ended ts address cn reason =>
      rw [h.2.2]
      exact Option.some_ne_none reason
  | _ => cases hend

section Told

variable {conns conns' : List Link} {unread unread' : List (Nat × LogLine)} {c d : Nat}

-- Something has become of the connection, and the line that tells of it has been read.
def Told (happened : Link → Prop) (tells : LogLine → Bool) (conns : List Link)
    (unread : List (Nat × LogLine)) (c : Nat) : Prop :=
  (∃ conn, conns[c]? = some conn ∧ happened conn) ∧
    ∀ line ∈ unread, line.1 = c → tells line.2 = false

def HeardOpen : List Link → List (Nat × LogLine) → Nat → Prop :=
  Told (fun conn => conn.opened ≠ none) LogLine.isOpen

def HeardEnd : List Link → List (Nat × LogLine) → Nat → Prop :=
  Told (fun conn => conn.ended ≠ none) LogLine.isEnd

-- Of a connection's lines the end is last and the opening before it; of connections
-- with one address the lines of the earlier one come first.
def Follows (x y : Nat × LogLine) : Prop :=
  (x.1 = y.1 → x.2.isEnd = false ∧ (x.2.isOpen = true → y.2.isEnd = true)) ∧
    (x.2.address? = y.2.address? → x.1 ≤ y.1)

structure Wired (conns : List Link) (unread : List (Nat × LogLine)) : Prop where
  wrote : ∀ line ∈ unread, ∃ conn, conns[line.1]? = some conn ∧ conn.Wrote line.2
  ordered : unread.Pairwise Follows
  -- an address has one live connection at a time
  alone : ∀ (a b : Nat) (conn conn' : Link), a < b → conns[a]? = some conn → conns[b]? = some conn' →
    conn.address = conn'.address → conn.ended ≠ none
  clock : ∀ (c : Nat) (conn : Link), conns[c]? = some conn →
    0 < conn.since ∧ ∀ ts, conn.opened = some ts → conn.since ≤ ts
  infoFirst : ∀ line ∈ unread, line.2.isInfo = true → ¬HeardOpen conns unread line.1
  endLast : ∀ line ∈ unread, ¬HeardEnd conns unread line.1
  turn : ∀ (c : Nat) (conn : Link), conns[c]? = some conn → HeardOpen conns unread c →
    ∀ line ∈ unread, line.2.address? = some conn.address → c ≤ line.1

structure Link.Grown (conn conn' : Link) : Prop where
  cn : conn'.cn = conn.cn
  address : conn'.address = conn.address
  since : conn'.since = conn.since
  opened : ∀ ts, conn.opened = some ts → conn'.opened = some ts
  ended : ∀ reason, conn.ended = some reason → conn'.ended = some reason

theorem Link.Grown.refl (conn : Link) : conn.Grown conn :=
  ⟨rfl, rfl, rfl, fun _ h => h, fun _ h => h⟩

theorem Link.Grown.opened_ne (h : conn.Grown conn') (ho : conn.opened ≠ none) :
    conn'.opened ≠ none := by
  obtain ⟨ts, hts⟩ := Option.ne_none_iff_exists'.mp ho
  rw [h.opened ts hts]
  exact Option.some_ne_none ts

theorem Link.Grown.ended_ne (h : conn.Grown conn') (he : conn.ended ≠ none) :
    conn'.ended ≠ none := by
  obtain ⟨reason, hreason⟩ := Option.ne_none_iff_exists'.mp he
  rw [h.ended reason hreason]
  exact Option.some_ne_none reason

-- What OpenVPN does between two rewrites of its status: a connection begins, or a live
-- one writes a line, which says that its handshake completed or that it ended if it did.
inductive Writes (conns : List Link) (unread : List (Nat × LogLine)) :
    List Link → List (Nat × LogLine) → Prop
  | begin (new : Link) (hopen : new.opened = none) (hlive : new.ended = none)
      (hnow : 0 < new.since)
      (hfree : ∀ conn ∈ conns, conn.ended = none → conn.address ≠ new.address) :
      Writes conns unread (conns ++ [new]) unread
  | act (c : Nat) (old new : Link) (line : LogLine) (hget : conns[c]? = some old)
      (hlive : old.ended = none) (hgrown : old.Grown new) (hwrote : new.Wrote line)
      (hopen : line.isOpen = true ↔ old.opened = none ∧ new.opened ≠ none)
      (hinfo : line.isInfo = true → new.opened = none)
      (hend : line.isEnd = true ↔ new.ended ≠ none)
      (hclock : ∀ ts, new.opened = some ts → old.opened = some ts ∨ new.since ≤ ts) :
      Writes conns unread (conns.set c new) (unread ++ [(c, line)])

theorem Writes.link (h : Writes conns unread conns' unread')
    (hget : conns[c]? = some conn) : ∃ conn', conns'[c]? = some conn' ∧ conn.Grown conn' := by
  cases h with
  | begin new hopen hlive hnow hfree =>
      exact ⟨conn, getElem?_concat_of_some hget, .refl conn⟩
  | act d old new line hold hlive hgrown hwrote hopen hinfo hend hclock =>
      by_cases hc : d = c
      · subst hc
        obtain rfl := Option.some.inj (hget.symm.trans hold)
        have hlt := (List.getElem?_eq_some_iff.mp hget).1
        exact ⟨new, by simp [hlt], hgrown⟩
      · exact ⟨conn, by rw [List.getElem?_set_ne hc]; exact hget, .refl conn⟩

theorem Writes.link_ended (h : Writes conns unread conns' unread')
    (hget : conns[c]? = some conn) (hended : conn.ended ≠ none) : conns'[c]? = some conn := by
  cases h with
  | begin => exact getElem?_concat_of_some hget
  | act d old new line hold hlive =>
      by_cases hc : d = c
      · subst hc
        obtain rfl := Option.some.inj (hget.symm.trans hold)
        exact absurd hlive hended
      · rw [List.getElem?_set_ne hc]
        exact hget

section Tells

variable {happened : Link → Prop} {tells : LogLine → Bool}

theorem told_writes (hgrown : ∀ conn conn', conn.Grown conn' → happened conn → happened conn')
    (hnew : ∀ new, new.opened = none → new.ended = none → ¬happened new)
    (htells : ∀ (old new : Link) (line : LogLine), old.ended = none →
      (line.isOpen = true ↔ old.opened = none ∧ new.opened ≠ none) →
      (line.isEnd = true ↔ new.ended ≠ none) →
      (tells line = true ↔ ¬happened old ∧ happened new))
    (h : Writes conns unread conns' unread') (c : Nat) :
    Told happened tells conns' unread' c ↔ Told happened tells conns unread c := by
  have hlink := fun (conn : Link) (hget : conns[c]? = some conn) => h.link hget
  cases h with
  | begin new hopen hlive hnow hfree =>
      refine and_congr_left fun _ => ⟨?_, ?_⟩
      · rintro ⟨conn', hget, hyes⟩
        rcases getElem?_concat_cases hget with hold | ⟨-, rfl⟩
        · exact ⟨conn', hold, hyes⟩
        · exact absurd hyes (hnew conn' hopen hlive)
      · rintro ⟨conn, hget, hyes⟩
        exact ⟨conn, getElem?_concat_of_some hget, hyes⟩
  | act d old new line hold hlive hgrew hwrote hopen hinfo hend hclock =>
      have hline := htells old new line hlive hopen hend
      constructor
      · rintro ⟨⟨conn', hget, hyes⟩, hread⟩
        refine ⟨?_, fun line hline hc => hread line (List.mem_append_left _ hline) hc⟩
        rcases getElem?_set_cases hget with ⟨rfl, rfl⟩ | ⟨-, hsame⟩
        · refine ⟨old, hold, ?_⟩
          by_contra hno
          have hunread := hread (d, line) (by simp) rfl
          rw [hline.mpr ⟨hno, hyes⟩] at hunread
          cases hunread
        · exact ⟨conn', hsame, hyes⟩
      · rintro ⟨⟨conn, hget, hyes⟩, hread⟩
        obtain ⟨conn', hget', hgrew'⟩ := hlink conn hget
        refine ⟨⟨conn', hget', hgrown conn conn' hgrew' hyes⟩, fun other hother hc => ?_⟩
        rcases List.mem_append.mp hother with hother | hother
        · exact hread other hother hc
        · rw [List.mem_singleton.mp hother] at hc ⊢
          subst hc
          obtain rfl := Option.some.inj (hget.symm.trans hold)
          exact Bool.eq_false_iff.mpr fun htold => (hline.mp htold).1 hyes

theorem told_read
    (hyes : tells line = true → ∃ conn, conns[c]? = some conn ∧ happened conn)
    (honce : tells line = true → ∀ other ∈ rest, other.1 = c → tells other.2 = false) (d : Nat) :
    Told happened tells conns rest d ↔
      Told happened tells conns ((c, line) :: rest) d ∨ (d = c ∧ tells line = true) := by
  constructor
  · rintro ⟨hhappened, hread⟩
    by_cases hnew : d = c ∧ tells line = true
    · exact .inr hnew
    · refine .inl ⟨hhappened, fun other hother hd => ?_⟩
      rcases List.mem_cons.mp hother with rfl | hother
      · exact Bool.eq_false_iff.mpr fun htold => hnew ⟨hd.symm, htold⟩
      · exact hread other hother hd
  · rintro (⟨hhappened, hread⟩ | ⟨rfl, htold⟩)
    · exact ⟨hhappened, fun other hother => hread other (List.mem_cons_of_mem _ hother)⟩
    · exact ⟨hyes htold, honce htold⟩

end Tells

theorem heardOpen_writes (h : Writes conns unread conns' unread') (c : Nat) :
    HeardOpen conns' unread' c ↔ HeardOpen conns unread c := by
  refine told_writes (fun _ _ hgrown => hgrown.opened_ne) (fun _ hopen _ hyes => hyes hopen)
    (fun old new line _ hopen _ => ?_) h c
  rw [hopen, not_not]

theorem heardEnd_writes (h : Writes conns unread conns' unread') (c : Nat) :
    HeardEnd conns' unread' c ↔ HeardEnd conns unread c := by
  refine told_writes (fun _ _ hgrown => hgrown.ended_ne) (fun _ _ hlive hyes => hyes hlive)
    (fun old new line hlive _ hend => ?_) h c
  rw [hend, not_not]
  exact (and_iff_right hlive).symm

theorem not_heardOpen_of_none (hget : conns[c]? = some conn)
    (hopen : conn.opened = none) : ¬HeardOpen conns unread c := by
  rintro ⟨⟨other, hother, hopened⟩, -⟩
  obtain rfl := Option.some.inj (hget.symm.trans hother)
  exact hopened hopen

theorem not_heardEnd_of_live (hget : conns[c]? = some conn)
    (hlive : conn.ended = none) : ¬HeardEnd conns unread c := by
  rintro ⟨⟨other, hother, hended⟩, -⟩
  obtain rfl := Option.some.inj (hget.symm.trans hother)
  exact hended hlive

theorem Link.Wrote.grown (h : conn.Wrote line)
    (hgrown : conn.Grown conn') (hlive : conn.ended = none) : conn'.Wrote line := by
  cases line with
  | rejection ts client reason address => exact h
  | info ts address key value => exact h.trans hgrown.address.symm
  | opened ts address cn =>
      exact ⟨h.1.trans hgrown.address.symm, h.2.1.trans hgrown.cn.symm, hgrown.opened ts h.2.2⟩
  | ended ts address cn reason =>
      obtain ⟨-, -, hended⟩ := h
      rw [hlive] at hended
      cases hended

theorem Wired.nil : Wired [] [] where
  wrote := fun _ h => absurd h List.not_mem_nil
  ordered := .nil
  alone := fun _ _ _ _ _ h => by simp at h
  clock := fun _ _ h => by simp at h
  infoFirst := fun _ h => absurd h List.not_mem_nil
  endLast := fun _ h => absurd h List.not_mem_nil
  turn := fun _ _ _ _ _ h => absurd h List.not_mem_nil

theorem Wired.begin (h : Wired conns unread) {new : Link} (hopen : new.opened = none)
    (hlive : new.ended = none) (hnow : 0 < new.since)
    (hfree : ∀ conn ∈ conns, conn.ended = none → conn.address ≠ new.address) :
    Wired (conns ++ [new]) unread := by
  have hwrites : Writes conns unread (conns ++ [new]) unread := .begin new hopen hlive hnow hfree
  refine ⟨fun line hline => ?_, h.ordered, fun a b conn conn' hlt ha hb haddress => ?_,
    fun c conn hget => ?_, fun line hline hinfo => ?_, fun line hline => ?_,
    fun c conn hget hheard => ?_⟩
  · obtain ⟨conn, hget, hwrote⟩ := h.wrote line hline
    exact ⟨conn, getElem?_concat_of_some hget, hwrote⟩
  · have hlast := (List.getElem?_eq_some_iff.mp hb).1
    rw [List.length_append, List.length_singleton] at hlast
    have hold : conns[a]? = some conn := by
      rwa [List.getElem?_append_left (by omega)] at ha
    rcases getElem?_concat_cases hb with hb | ⟨-, rfl⟩
    · exact h.alone a b conn conn' hlt hold hb haddress
    · exact fun hnone => hfree conn (List.mem_of_getElem? hold) hnone haddress
  · rcases getElem?_concat_cases hget with hold | ⟨-, rfl⟩
    · exact h.clock c conn hold
    · refine ⟨hnow, fun ts hts => ?_⟩
      rw [hopen] at hts
      cases hts
  · rw [heardOpen_writes hwrites]
    exact h.infoFirst line hline hinfo
  · rw [heardEnd_writes hwrites]
    exact h.endLast line hline
  · rcases getElem?_concat_cases hget with hold | ⟨-, rfl⟩
    · exact h.turn c conn hold ((heardOpen_writes hwrites c).mp hheard)
    · exact absurd hheard (not_heardOpen_of_none hget hopen)

theorem Wired.act (h : Wired conns unread) {old new : Link}
    (hget : conns[d]? = some old) (hlive : old.ended = none)
    (hwrites : Writes conns unread (conns.set d new) (unread ++ [(d, line)]))
    (hgrown : old.Grown new) (hwrote : new.Wrote line)
    (hopen : line.isOpen = true → old.opened = none)
    (hinfo : line.isInfo = true → new.opened = none)
    (hclock : ∀ ts, new.opened = some ts → old.opened = some ts ∨ new.since ≤ ts) :
    Wired (conns.set d new) (unread ++ [(d, line)]) := by
  -- a later connection has another address
  have hlater : ∀ c conn, conns[c]? = some conn → conn.address = old.address → c ≤ d := by
    intro c conn hc haddress
    by_contra hlt
    exact h.alone d c old conn (by omega) hget hc haddress.symm hlive
  have hback {c : Nat} {conn' : Link} (hc : (conns.set d new)[c]? = some conn') :
      ∃ conn, conns[c]? = some conn ∧ conn.Grown conn' := by
    rcases getElem?_set_cases hc with ⟨rfl, rfl⟩ | ⟨-, hsame⟩
    · exact ⟨old, hget, hgrown⟩
    · exact ⟨conn', hsame, .refl conn'⟩
  have hnew : (conns.set d new)[d]? = some new := by
    simp [(List.getElem?_eq_some_iff.mp hget).1]
  refine ⟨fun other hother => ?_, ?_, fun a b conn conn' hlt ha hb haddress => ?_,
    fun c conn hc => ?_, fun other hother => ?_, fun other hother => ?_,
    fun c conn hc hheard other hother haddress => ?_⟩
  · rcases List.mem_append.mp hother with hother | hother
    · obtain ⟨conn, hc, hconn⟩ := h.wrote other hother
      by_cases hd : d = other.1
      · rw [← hd] at hc ⊢
        obtain rfl := Option.some.inj (hc.symm.trans hget)
        exact ⟨new, hnew, hconn.grown hgrown hlive⟩
      · exact ⟨conn, by rw [List.getElem?_set_ne hd]; exact hc, hconn⟩
    · rw [List.mem_singleton.mp hother]
      exact ⟨new, hnew, hwrote⟩
  · refine List.pairwise_append.mpr ⟨h.ordered, List.pairwise_singleton _ _, ?_⟩
    intro x hx y hy
    obtain rfl := List.mem_singleton.mp hy
    obtain ⟨conn, hc, hconn⟩ := h.wrote x hx
    refine ⟨fun hsame => ?_, fun haddress => ?_⟩
    · rw [hsame] at hc
      obtain rfl := Option.some.inj (hc.symm.trans hget)
      refine ⟨Bool.eq_false_iff.mpr fun hend => hconn.ended_ne hend hlive, fun hxopen => ?_⟩
      · have hopened := hconn.opened_ne hxopen
        cases line with
        | rejection ts client reason address => exact hwrote.elim
        | info ts address key value => exact absurd (hinfo rfl) (hgrown.opened_ne hopened)
        | opened ts address cn => exact absurd (hopen rfl) hopened
        | ended ts address cn reason => rfl
    · apply hlater x.1 conn hc
      rw [hconn.address, hwrote.address, Option.some.injEq] at haddress
      rw [haddress, hgrown.address]
  · obtain ⟨olda, holda, hga⟩ := hback ha
    obtain ⟨oldb, holdb, hgb⟩ := hback hb
    refine hga.ended_ne (h.alone a b olda oldb hlt holda holdb ?_)
    rw [← hga.address, ← hgb.address]
    exact haddress
  · rcases getElem?_set_cases hc with ⟨rfl, rfl⟩ | ⟨-, hsame⟩
    · obtain ⟨hpos, hle⟩ := h.clock d old hget
      refine ⟨by rw [hgrown.since]; exact hpos, fun ts hts => ?_⟩
      rcases hclock ts hts with hold | hnow
      · rw [hgrown.since]
        exact hle ts hold
      · exact hnow
    · exact h.clock c conn hsame
  · rw [heardOpen_writes hwrites]
    intro hotherinfo
    rcases List.mem_append.mp hother with hother | hother
    · exact h.infoFirst other hother hotherinfo
    · rw [List.mem_singleton.mp hother] at hotherinfo ⊢
      refine not_heardOpen_of_none hget ?_
      by_contra hopened
      exact hgrown.opened_ne hopened (hinfo hotherinfo)
  · rw [heardEnd_writes hwrites]
    rcases List.mem_append.mp hother with hother | hother
    · exact h.endLast other hother
    · rw [List.mem_singleton.mp hother]
      exact not_heardEnd_of_live hget hlive
  · obtain ⟨oldc, holdc, hgc⟩ := hback hc
    rw [hgc.address] at haddress
    rcases List.mem_append.mp hother with hother | hother
    · exact h.turn c oldc holdc ((heardOpen_writes hwrites c).mp hheard) other hother haddress
    · rw [List.mem_singleton.mp hother] at haddress ⊢
      rw [hwrote.address, Option.some.injEq, hgrown.address] at haddress
      exact hlater c oldc holdc haddress.symm

theorem Wired.writes (h : Wired conns unread) (hw : Writes conns unread conns' unread') :
    Wired conns' unread' := by
  cases hw with
  | begin new hopen hlive hnow hfree => exact h.begin hopen hlive hnow hfree
  | act d old new line hget hlive hgrown hwrote hopen hinfo hend hclock =>
      exact h.act hget hlive (.act d old new line hget hlive hgrown hwrote hopen hinfo hend hclock)
        hgrown hwrote (fun hline => (hopen.mp hline).1) hinfo hclock

section Read

variable {line : LogLine} {rest : List (Nat × LogLine)}

theorem heardOpen_read (h : Wired conns ((c, line) :: rest)) (d : Nat) :
    HeardOpen conns rest d ↔
      HeardOpen conns ((c, line) :: rest) d ∨ (d = c ∧ line.isOpen = true) := by
  refine told_read (fun hopen => ?_) (fun hopen other hother hc => ?_) d
  · obtain ⟨conn, hget, hwrote⟩ := h.wrote (c, line) List.mem_cons_self
    exact ⟨conn, hget, hwrote.opened_ne hopen⟩
  · have hend := (((List.pairwise_cons.mp h.ordered).1 other hother).1 hc.symm).2 hopen
    exact (LogLine.of_isEnd hend).1

theorem heardEnd_read (h : Wired conns ((c, line) :: rest)) (d : Nat) :
    HeardEnd conns rest d ↔
      HeardEnd conns ((c, line) :: rest) d ∨ (d = c ∧ line.isEnd = true) := by
  refine told_read (fun hend => ?_) (fun hend other hother hc => ?_) d
  · obtain ⟨conn, hget, hwrote⟩ := h.wrote (c, line) List.mem_cons_self
    exact ⟨conn, hget, hwrote.ended_ne hend⟩
  · have hlast := (((List.pairwise_cons.mp h.ordered).1 other hother).1 hc.symm).1
    rw [hend] at hlast
    cases hlast

theorem Wired.read (h : Wired conns ((c, line) :: rest)) : Wired conns rest := by
  obtain ⟨hfirst, hrest⟩ := List.pairwise_cons.mp h.ordered
  refine ⟨fun other hother => h.wrote other (List.mem_cons_of_mem _ hother), hrest, h.alone,
    h.clock, fun other hother hinfo => ?_, fun other hother => ?_,
    fun d conn hget hheard other hother haddress => ?_⟩
  · rw [heardOpen_read h]
    rintro (hold | ⟨hc, hopen⟩)
    · exact h.infoFirst other (List.mem_cons_of_mem _ hother) hinfo hold
    · have hend := ((hfirst other hother).1 hc.symm).2 hopen
      rw [(LogLine.of_isEnd hend).2] at hinfo
      cases hinfo
  · rw [heardEnd_read h]
    rintro (hold | ⟨hc, hend⟩)
    · exact h.endLast other (List.mem_cons_of_mem _ hother) hold
    · have hlast := ((hfirst other hother).1 hc.symm).1
      rw [hend] at hlast
      cases hlast
  · rcases (heardOpen_read h d).mp hheard with hold | ⟨rfl, -⟩
    · exact h.turn d conn hget hold other (List.mem_cons_of_mem _ hother) haddress
    · obtain ⟨conn', hget', hwrote⟩ := h.wrote (d, line) List.mem_cons_self
      obtain rfl := Option.some.inj (hget'.symm.trans hget)
      exact (hfirst other hother).2 (hwrote.address.trans haddress.symm)

end Read

section Current

variable {a : Text}

-- The connection that the next line about an address is about.
structure Current (conns : List Link) (unread : List (Nat × LogLine)) (a : Text) (c : Nat) :
    Prop where
  at_address : ∃ conn, conns[c]? = some conn ∧ conn.address = a
  unended : ¬HeardEnd conns unread c
  first : ∀ line ∈ unread, line.2.address? = some a → c ≤ line.1

theorem Current.unended_line (h : Wired conns unread) (hget : conns[c]? = some conn)
    (hended : conn.ended ≠ none) (hunended : ¬HeardEnd conns unread c) :
    ∃ line ∈ unread, line.1 = c ∧ line.2.address? = some conn.address := by
  by_contra hnone
  refine hunended ⟨⟨conn, hget, hended⟩, fun line hline hc => ?_⟩
  obtain ⟨other, hother, hwrote⟩ := h.wrote line hline
  rw [hc] at hother
  obtain rfl := Option.some.inj (hother.symm.trans hget)
  exact absurd ⟨line, hline, hc, hwrote.address⟩ hnone

theorem Current.le (h : Wired conns unread) (hc : Current conns unread a c)
    (hd : Current conns unread a d) : d ≤ c := by
  by_contra hlt
  obtain ⟨conn, hget, haddress⟩ := hc.at_address
  obtain ⟨conn', hget', haddress'⟩ := hd.at_address
  have hended := h.alone c d conn conn' (by omega) hget hget' (haddress.trans haddress'.symm)
  obtain ⟨line, hline, hown, hlineaddress⟩ := Current.unended_line h hget hended hc.unended
  have hle := hd.first line hline (by rw [hlineaddress, haddress])
  omega

theorem Current.unique (h : Wired conns unread) (hc : Current conns unread a c)
    (hd : Current conns unread a d) : c = d :=
  Nat.le_antisymm (hd.le h hc) (hc.le h hd)

theorem Current.of_heardOpen (h : Wired conns unread)
    (hget : conns[c]? = some conn) (hheard : HeardOpen conns unread c)
    (hunended : ¬HeardEnd conns unread c) : Current conns unread conn.address c :=
  ⟨⟨conn, hget, rfl⟩, hunended, h.turn c conn hget hheard⟩

theorem Current.of_head
    (h : Wired conns ((c, line) :: rest)) (hget : conns[c]? = some conn) :
    Current conns ((c, line) :: rest) conn.address c := by
  obtain ⟨conn', hget', hwrote⟩ := h.wrote (c, line) List.mem_cons_self
  obtain rfl := Option.some.inj (hget'.symm.trans hget)
  refine ⟨⟨conn', hget, rfl⟩, h.endLast (c, line) List.mem_cons_self, fun other hother ha => ?_⟩
  rcases List.mem_cons.mp hother with rfl | hother
  · exact Nat.le_refl c
  · exact ((List.pairwise_cons.mp h.ordered).1 other hother).2 (hwrote.address.trans ha.symm)

theorem Current.read
    (h : Wired conns ((c, line) :: rest)) (hd : Current conns ((c, line) :: rest) a d)
    (hend : ¬(d = c ∧ line.isEnd = true)) : Current conns rest a d := by
  refine ⟨hd.at_address, ?_, fun other hother => hd.first other (List.mem_cons_of_mem _ hother)⟩
  rw [heardEnd_read h]
  exact not_or.mpr ⟨hd.unended, hend⟩

theorem Current.writes (h : Wired conns unread) (hw : Writes conns unread conns' unread')
    (hc : Current conns unread a c) : Current conns' unread' a c := by
  obtain ⟨conn, hget, haddress⟩ := hc.at_address
  obtain ⟨conn', hget', hgrown⟩ := hw.link hget
  refine ⟨⟨conn', hget', hgrown.address.trans haddress⟩, ?_, fun line hline hline' => ?_⟩
  · rw [heardEnd_writes hw]
    exact hc.unended
  · cases hw with
    | begin => exact hc.first line hline hline'
    | act d old new other hold hlive hgrown' hwrote hopen hinfo hend hclock =>
        rcases List.mem_append.mp hline with hline | hline
        · exact hc.first line hline hline'
        · rw [List.mem_singleton.mp hline] at hline' ⊢
          by_contra hlt
          refine h.alone d c old conn (by omega) hold hget ?_ hlive
          rw [hwrote.address, Option.some.injEq, hgrown'.address] at hline'
          rw [hline', haddress]

end Current

section Queue

variable {pending : Pending} {db db' : Database}

def SeenIn (db : Database) (c : Nat) : Prop :=
  ∃ id row, db.sessions.get? id = some row ∧ row.cid = some c

-- Whose handshake a pending entry is, and how far it got.
structure Waits (conns : List Link) (unread : List (Nat × LogLine)) (a : Text) (peer : Peer)
    (c : Nat) : Prop where
  current : Current conns unread a c
  reached : (peer.cn = none ∧ ¬HeardOpen conns unread c) ∨
    (HeardOpen conns unread c ∧ ∃ conn, conns[c]? = some conn ∧ peer.cn = some conn.cn ∧
      conn.opened = some peer.ts)

-- A handshake that was heard of is pending until it ends or a poll sees its connection.
structure Queued (conns : List Link) (unread : List (Nat × LogLine)) (pending : Pending)
    (db : Database) : Prop where
  waits : ∀ a peer, pending.get? a = some peer → ∃ c, Waits conns unread a peer c
  kept : ∀ (c : Nat) (conn : Link), conns[c]? = some conn → HeardOpen conns unread c →
    ¬HeardEnd conns unread c → (∃ peer, pending.get? conn.address = some peer) ∨ SeenIn db c

theorem Queued.nil : Queued [] [] .empty .empty where
  waits := fun _ _ h => by cases h
  kept := fun _ _ h => by simp at h

theorem Queued.mono (h : Queued conns unread pending db)
    (hseen : ∀ c, SeenIn db c → SeenIn db' c) : Queued conns unread pending db' :=
  ⟨h.waits, fun c conn hget hheard hunended =>
    (h.kept c conn hget hheard hunended).imp_right (hseen c)⟩

theorem Queued.writes (hwired : Wired conns unread) (hw : Writes conns unread conns' unread')
    (h : Queued conns unread pending db) : Queued conns' unread' pending db := by
  refine ⟨fun a peer hpeer => ?_, fun c conn' hget hheard hunended => ?_⟩
  · obtain ⟨c, hcurrent, hreached⟩ := h.waits a peer hpeer
    refine ⟨c, hcurrent.writes hwired hw, ?_⟩
    rw [heardOpen_writes hw]
    refine hreached.imp_right fun ⟨hheard, conn, hget, hcn, hts⟩ => ⟨hheard, ?_⟩
    obtain ⟨conn', hget', hgrown⟩ := hw.link hget
    exact ⟨conn', hget', by rw [hgrown.cn]; exact hcn, hgrown.opened _ hts⟩
  · rw [heardOpen_writes hw] at hheard
    rw [heardEnd_writes hw] at hunended
    obtain ⟨conn, hold, -⟩ := hheard.1
    obtain ⟨grown, hget', hgrown⟩ := hw.link hold
    obtain rfl := Option.some.inj (hget'.symm.trans hget)
    rw [hgrown.address]
    exact h.kept c conn hold hheard hunended

section ReadLine

variable {line : LogLine} {rest : List (Nat × LogLine)}

theorem Waits.of_head (hwired : Wired conns ((c, line) :: rest))
    (hget : conns[c]? = some conn) {peer : Peer}
    (hwaits : Waits conns ((c, line) :: rest) conn.address peer d) : d = c :=
  hwaits.current.unique hwired (.of_head hwired hget)

theorem Waits.read_other (hwired : Wired conns ((c, line) :: rest)) {a : Text} {peer : Peer}
    (hwaits : Waits conns ((c, line) :: rest) a peer d) (hne : d ≠ c) :
    Waits conns rest a peer d := by
  refine ⟨hwaits.current.read hwired fun h => hne h.1, ?_⟩
  rw [heardOpen_read hwired]
  refine hwaits.reached.imp (fun ⟨hcn, hheard⟩ => ⟨hcn, ?_⟩) (fun ⟨hheard, hconn⟩ => ⟨.inl hheard, hconn⟩)
  exact not_or.mpr ⟨hheard, fun h => hne h.1⟩

theorem Queued.read (hwired : Wired conns ((c, line) :: rest))
    (h : Queued conns ((c, line) :: rest) pending db) :
    Queued conns rest (pendingLine pending line) db := by
  obtain ⟨conn, hget, hwrote⟩ := hwired.wrote (c, line) List.mem_cons_self
  have haddress : line.address? = some conn.address := hwrote.address
  have hcurrent := Current.of_head hwired hget
  refine ⟨fun a peer hpeer => ?_, fun d other hother hheard hunended => ?_⟩
  · rw [get?_pendingLine, haddress] at hpeer
    by_cases ha : conn.address = a
    · subst ha
      rw [if_pos rfl] at hpeer
      cases line with
      | rejection ts client reason address => exact hwrote.elim
      | ended ts address cn reason => cases hpeer
      | opened ts address cn =>
          obtain rfl := Option.some.inj hpeer
          have hnow : HeardOpen conns rest c := (heardOpen_read hwired c).mpr (.inr ⟨rfl, rfl⟩)
          refine ⟨c, hcurrent.read hwired (fun h => by cases h.2), .inr ⟨hnow, conn, hget, ?_⟩⟩
          exact ⟨congrArg some hwrote.2.1, hwrote.2.2⟩
      | info ts address key value =>
          obtain rfl := Option.some.inj hpeer
          have hnot := hwired.infoFirst (c, _) List.mem_cons_self rfl
          refine ⟨c, hcurrent.read hwired (fun h => by cases h.2), .inl ⟨?_, ?_⟩⟩
          · cases hold : pending.get? conn.address with
            | none => cases key <;> rfl
            | some old =>
                obtain ⟨d, hwaits⟩ := h.waits conn.address old hold
                obtain rfl := hwaits.of_head hwired hget
                have hcn : old.cn = none :=
                  (hwaits.reached.resolve_right fun hheard => hnot hheard.1).1
                cases key <;> exact hcn
          · rw [heardOpen_read hwired]
            exact not_or.mpr ⟨hnot, fun h => by cases h.2⟩
    · rw [if_neg (by simpa using ha)] at hpeer
      obtain ⟨d, hwaits⟩ := h.waits a peer hpeer
      refine ⟨d, hwaits.read_other hwired ?_⟩
      rintro rfl
      obtain ⟨same, hsame, hat⟩ := hwaits.current.at_address
      obtain rfl := Option.some.inj (hsame.symm.trans hget)
      exact ha hat
  · by_cases hd : d = c
    · subst hd
      obtain rfl := Option.some.inj (hother.symm.trans hget)
      left
      cases line with
      | rejection ts client reason address => exact hwrote.elim
      | ended ts address cn reason =>
          exact absurd ((heardEnd_read hwired d).mpr (.inr ⟨rfl, rfl⟩)) hunended
      | opened ts address cn =>
          rw [get?_pendingLine, haddress, if_pos rfl]
          exact ⟨_, rfl⟩
      | info ts address key value =>
          rw [get?_pendingLine, haddress, if_pos rfl]
          exact ⟨_, rfl⟩
    · have hheard' : HeardOpen conns ((c, line) :: rest) d :=
        ((heardOpen_read hwired d).mp hheard).resolve_right fun h => hd h.1
      have hunended' : ¬HeardEnd conns ((c, line) :: rest) d := fun hold =>
        hunended ((heardEnd_read hwired d).mpr (.inl hold))
      have hne : conn.address ≠ other.address := by
        intro heq
        have hnow := Current.of_heardOpen hwired hother hheard' hunended'
        rw [← heq] at hnow
        exact hd (hnow.unique hwired hcurrent)
      rw [get?_pendingLine, haddress, if_neg (by simpa using hne)]
      exact h.kept d other hother hheard' hunended'

end ReadLine

end Queue

end Told

end OpenvpnServer.Collector
