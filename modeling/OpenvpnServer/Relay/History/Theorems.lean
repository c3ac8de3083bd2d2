import OpenvpnServer.Relay.History.Lemmas

namespace OpenvpnServer.Relay.History

open OpenvpnServer.Lib ActivityLog

variable {instanceName id : Text} {session : RelaySession}

section Machine

def counters : List Counter :=
  [.accepted, .denied, .failed, .bytesUp, .bytesDown, .uncounted]

-- The counters of a session are no lower than in an earlier answer of the process.
def CountersGrow (answered answer : List RelaySession) : Prop :=
  ∀ session ∈ answer, ∀ old ∈ answered, old.id = session.id →
    ∀ c ∈ counters, old.count c ≤ session.count c

-- Every process has a name of its own, and its clock advances between two answers.
def scheduled (s : System) : Step → Prop
  | .relay label => servedInOrder s.relay label
  | .restartRelay instanceName _ => IsInstance instanceName ∧ instanceName ∉ s.used
  | .restartUi => True
  | .unread => True
  | .turn relayNow _ _ =>
      (∀ time ∈ s.clock, time < relayNow) ∧ CountersGrow s.answered (s.answer relayNow)

-- No session that is recorded was seen last before the time for which rows are kept.
def recent (s : System) : Step → Prop
  | .turn relayNow now committed => committed = true → ∀ session ∈ s.answer relayNow,
      complete session = true → now - retention ≤ session.lastSeen
  | _ => True

def allowed (s : System) (label : Step) : Prop := scheduled s label ∧ recent s label

instance (answered answer : List RelaySession) : Decidable (CountersGrow answered answer) :=
  inferInstanceAs (Decidable (∀ session ∈ answer, ∀ old ∈ answered, old.id = session.id →
    ∀ c ∈ counters, old.count c ≤ session.count c))

instance (s : System) (label : Step) : Decidable (scheduled s label) :=
  match label with
  | .relay label => inferInstanceAs (Decidable (servedInOrder s.relay label))
  | .restartRelay instanceName _ =>
      inferInstanceAs (Decidable (IsInstance instanceName ∧ instanceName ∉ s.used))
  | .restartUi => isTrue trivial
  | .unread => isTrue trivial
  | .turn relayNow _ _ =>
      inferInstanceAs (Decidable ((∀ time ∈ s.clock, time < relayNow) ∧
        CountersGrow s.answered (s.answer relayNow)))

instance (s : System) (label : Step) : Decidable (recent s label) :=
  match label with
  | .turn relayNow now committed =>
      inferInstanceAs (Decidable (committed = true → ∀ session ∈ s.answer relayNow,
        complete session = true → now - retention ≤ session.lastSeen))
  | .relay _ => isTrue trivial
  | .restartRelay _ _ => isTrue trivial
  | .restartUi => isTrue trivial
  | .unread => isTrue trivial

instance (s : System) (label : Step) : Decidable (allowed s label) :=
  inferInstanceAs (Decidable (scheduled s label ∧ recent s label))

end Machine

section Invariant

def Issued (used : List Text) (id : Text) : Prop :=
  ∃ name ∈ used, IsInstance name ∧ ∃ n, id = sessionID name n

structure Sound (s : System) : Prop where
  relay : Accounted s.relay
  name : IsInstance s.relay.log.instanceName
  used : s.relay.log.instanceName ∈ s.used
  issued : ∀ id row, s.table.get? id = some row → Issued s.used id ∧ 0 ≤ row.active
  -- a row of the running process has the counters of one of its answers
  answered : ∀ n row, s.table.get? (sessionID s.relay.log.instanceName n) = some row →
    ∃ old ∈ s.answered, old.id = sessionID s.relay.log.instanceName n ∧
      ∀ c ∈ counters, row.count c = old.count c
  seen : ∀ id session, s.seen.get? id = some session → Issued s.used id ∧
    (complete session = true → ∃ row, s.table.get? id = some row ∧ Shows row session)
  clock : ∀ n session, s.seen.get? (sessionID s.relay.log.instanceName n) = some session →
    session.active ≠ 0 → ∃ time, s.clock = some time ∧ session.lastSeen ≤ time
  same : essence s.table = essence s.full

theorem sound_init (h : IsInstance instanceName) (transport : Text) :
    Sound (.init instanceName transport) where
  relay := accounted_init instanceName transport
  name := h
  used := List.mem_singleton_self _
  issued := fun _ _ hrow => nomatch hrow
  answered := fun _ _ hrow => nomatch hrow
  seen := fun _ _ hseen => nomatch hseen
  clock := fun _ _ hseen => nomatch hseen
  same := rfl

variable {s : System}

theorem not_issued (h : IsInstance instanceName)
    (hfresh : instanceName ∉ s.used) (n : Nat) : ¬Issued s.used (sessionID instanceName n) := by
  rintro ⟨name, hname, hinstance, m, hid⟩
  have hcut : OfInstance instanceName (sessionID name m) :=
    hid ▸ (ofInstance_sessionID h instanceName n).mpr rfl
  rw [(ofInstance_sessionID hinstance instanceName m).mp hcut] at hname
  exact hfresh hname

theorem Issued.cons {used : List Text} (h : Issued used id) (name : Text) :
    Issued (name :: used) id := by
  obtain ⟨other, hother, hrest⟩ := h
  exact ⟨other, List.mem_cons_of_mem _ hother, hrest⟩

theorem Sound.restartRelay (h : Sound s) (transport : Text)
    (hname : IsInstance instanceName) (hfresh : instanceName ∉ s.used) :
    Sound { s with
      relay := .init instanceName transport
      used := instanceName :: s.used
      answered := []
      clock := none } where
  relay := accounted_init instanceName transport
  name := hname
  used := List.mem_cons_self
  issued := fun id row hrow => ⟨(h.issued id row hrow).1.cons _, (h.issued id row hrow).2⟩
  answered := fun n row hrow => absurd (h.issued _ row hrow).1 (not_issued hname hfresh n)
  seen := fun id session hseen => ⟨(h.seen id session hseen).1.cons _, (h.seen id session hseen).2⟩
  clock := fun n session hseen => absurd (h.seen _ session hseen).1 (not_issued hname hfresh n)
  same := h.same

theorem Sound.restartUi (h : Sound s) : Sound { s with seen := .empty } where
  relay := h.relay
  name := h.name
  used := h.used
  issued := h.issued
  answered := h.answered
  seen := fun _ _ hseen => nomatch hseen
  clock := fun _ _ hseen => nomatch hseen
  same := h.same

theorem Sound.relayStep (h : Sound s) {label : FlowStep} {relay : Traced}
    (hallowed : servedInOrder s.relay label) (hstep : s.relay.step label = some relay) :
    Sound { s with relay := relay } := by
  have hname : relay.log.instanceName = s.relay.log.instanceName := by
    obtain ⟨log, hlog, rfl⟩ := Option.map_eq_some_iff.mp hstep
    exact instanceName_step hlog
  refine ⟨h.relay.step hallowed hstep, ?_, ?_, h.issued, ?_, h.seen, ?_, h.same⟩
  all_goals simp only [hname]
  · exact h.name
  · exact h.used
  · exact h.answered
  · exact h.clock

theorem Sound.asked (h : Sound s) {relayNow : Int} (hclock : ∀ time ∈ s.clock, time < relayNow) :
    Sound (s.asked relayNow) where
  relay := h.relay
  name := h.name
  used := h.used
  issued := h.issued
  answered := fun n row hrow => by
    obtain ⟨old, hold, hrest⟩ := h.answered n row hrow
    exact ⟨old, List.mem_append_right _ hold, hrest⟩
  seen := h.seen
  clock := fun n session hseen hactive => by
    obtain ⟨time, htime, hle⟩ := h.clock n session hseen hactive
    have hlt := hclock time htime
    exact ⟨relayNow, rfl, by omega⟩
  same := h.same

end Invariant

section Turn

variable {s : System} {relayNow now : Int}

theorem Sound.idle_of_seen (h : Sound s) (hclock : ∀ time ∈ s.clock, time < relayNow)
    (hmem : session ∈ s.answer relayNow)
    (hseen : s.seen.get? session.id = some session) : session.active = 0 := by
  by_contra hactive
  obtain ⟨n, hid⟩ := h.relay.answer_id hmem
  obtain ⟨time, htime, hle⟩ := h.clock n session (hid ▸ hseen) hactive
  have hlast := (h.relay.answer_active hmem).2 hactive
  have hlt := hclock time htime
  omega

def System.news (s : System) (relayNow : Int) : List RelaySession :=
  (s.answer relayNow).filter fun session => s.seen.get? session.id ≠ some session

theorem Sound.table_recorded (h : Sound s) (relayNow now : Int) :
    (s.recorded relayNow now).table = dropExpired now ((s.news relayNow).foldl (recordRow now)
      (endOthers s.relay.log.instanceName s.table)) := by
  have hchanged := changed_snapshots (h.relay.nodup_answer relayNow) s.seen
  unfold System.recorded record System.answer
  dsimp only
  rw [hchanged]
  rfl

theorem Sound.nodup_news (h : Sound s) (relayNow : Int) :
    ((s.news relayNow).map RelaySession.id).Nodup :=
  (h.relay.nodup_answer relayNow).sublist (List.filter_sublist.map _)

theorem Sound.shows_merged (h : Sound s) (hgrow : CountersGrow s.answered (s.answer relayNow))
    (hmem : session ∈ s.answer relayNow) (grp : Text) :
    Shows ((s.table.get? session.id).elim (newRow now grp session) (·.merge now session))
      session := by
  cases hrow : s.table.get? session.id with
  | none => exact ⟨fun c => by cases c <;> rfl, le_refl _⟩
  | some row =>
      obtain ⟨n, hid⟩ := h.relay.answer_id hmem
      obtain ⟨old, hold, holdid, hcount⟩ := h.answered n row (hid ▸ hrow)
      have hmax (c : Counter) (hc : c ∈ counters) :
          max (row.count c) (session.count c) = session.count c := by
        rw [hcount c hc, max_eq_right (hgrow session hmem old hold (holdid.trans hid.symm) c hc)]
      refine ⟨fun c => ?_, le_max_right _ _⟩
      cases c with
      | active => rfl
      | accepted => exact hmax .accepted (by decide)
      | denied => exact hmax .denied (by decide)
      | failed => exact hmax .failed (by decide)
      | bytesUp => exact hmax .bytesUp (by decide)
      | bytesDown => exact hmax .bytesDown (by decide)
      | uncounted => exact hmax .uncounted (by decide)

theorem Sound.folded_shows (h : Sound s) (hgrow : CountersGrow s.answered (s.answer relayNow))
    (now : Int) (hmem : session ∈ s.answer relayNow)
    (hkept : complete session = true) :
    ∃ row, ((s.news relayNow).foldl (recordRow now)
        (endOthers s.relay.log.instanceName s.table)).get? session.id = some row ∧
      Shows row session := by
  obtain ⟨n, hid⟩ := h.relay.answer_id hmem
  have hown : (endOthers s.relay.log.instanceName s.table).get? session.id =
      s.table.get? session.id := by
    rw [hid]
    exact get?_endOthers_own h.name s.table n
  by_cases hseen : s.seen.get? session.id = some session
  · obtain ⟨row, hrow, hshows⟩ := (h.seen _ session hseen).2 hkept
    refine ⟨row, ?_, hshows⟩
    rw [get?_foldl_recordRow_ne, hown, hrow]
    intro hnews
    obtain ⟨other, hother, hsame⟩ := List.mem_map.mp hnews
    obtain ⟨hanswer, hdiffers⟩ := List.mem_filter.mp hother
    have hequal : other = session :=
      List.inj_on_of_nodup_map (h.relay.nodup_answer relayNow) hanswer hmem hsame
    rw [hequal] at hdiffers
    exact of_decide_eq_true hdiffers hseen
  · have hnews : session ∈ s.news relayNow := List.mem_filter.mpr ⟨hmem, by simpa using hseen⟩
    obtain ⟨grp, hgrp⟩ := @get?_foldl_recordRow now _
      (endOthers s.relay.log.instanceName s.table) _ (h.nodup_news relayNow) hnews hkept
    rw [hown] at hgrp
    exact ⟨_, hgrp, h.shows_merged hgrow hmem grp⟩

theorem Sound.recorded_shows (h : Sound s) (hgrow : CountersGrow s.answered (s.answer relayNow))
    (hfresh : ∀ session ∈ s.answer relayNow, complete session = true →
      now - retention ≤ session.lastSeen)
    (hmem : session ∈ s.answer relayNow)
    (hkept : complete session = true) :
    ∃ row, (s.recorded relayNow now).table.get? session.id = some row ∧ Shows row session := by
  obtain ⟨row, hrow, hshows⟩ := h.folded_shows hgrow now hmem hkept
  have hrecent : now - retention ≤ row.lastSeen :=
    (hfresh session hmem hkept).trans hshows.lastSeen
  refine ⟨row, ?_, hshows⟩
  rw [h.table_recorded, dropExpired, Dict.get?_filter, hrow]
  exact Option.filter_eq_some_iff.mpr ⟨rfl, decide_eq_true hrecent⟩

theorem Sound.recorded_cases (h : Sound s) (hgrow : CountersGrow s.answered (s.answer relayNow))
    {row : Row} (hrow : (s.recorded relayNow now).table.get? id = some row) :
    (∃ session ∈ s.answer relayNow, session.id = id ∧ Shows row session) ∨
      ∃ old, s.table.get? id = some old ∧ row = endOther s.relay.log.instanceName id old := by
  rw [h.table_recorded, dropExpired, Dict.get?_filter, Option.filter_eq_some_iff] at hrow
  rcases get?_foldl_recordRow_cases hrow.1 with hbefore | ⟨session, hnews, hkept, rfl⟩
  · rw [endOthers_eq h.name, Dict.get?_mapValues] at hbefore
    obtain ⟨old, hold, rfl⟩ := Option.map_eq_some_iff.mp hbefore
    exact .inr ⟨old, hold, rfl⟩
  · have hmem := (List.mem_filter.mp hnews).1
    obtain ⟨shown, hshown, hshows⟩ := h.folded_shows hgrow now hmem hkept
    rw [hrow.1, Option.some.injEq] at hshown
    exact .inl ⟨session, hmem, rfl, hshown ▸ hshows⟩

theorem endOther_active {name : Text} {row : Row} (h : 0 ≤ row.active) :
    0 ≤ (endOther name id row).active ∧
      (like (name ++ [':', '%']) id = false → (endOther name id row).active = 0) := by
  unfold endOther
  by_cases hother : 0 < row.active ∧ like (name ++ [':', '%']) id = false
  · rw [if_pos hother]
    exact ⟨le_refl _, fun _ => rfl⟩
  · rw [if_neg hother]
    refine ⟨h, fun hlike => ?_⟩
    by_contra hne
    exact hother ⟨by omega, hlike⟩

theorem endOther_own {name : Text} (h : IsInstance name) (n : Nat) (row : Row) :
    endOther name (sessionID name n) row = row := by
  have hlike := (like_sessionID h h n).mpr rfl
  simp [endOther, hlike]

theorem Sound.answer_issued (h : Sound s)
    (hmem : session ∈ s.answer relayNow) : Issued s.used session.id := by
  obtain ⟨n, hid⟩ := h.relay.answer_id hmem
  exact ⟨_, h.used, h.name, n, hid⟩

theorem Sound.recorded_same (h : Sound s) (hclock : ∀ time ∈ s.clock, time < relayNow) (now : Int) :
    essence (s.recorded relayNow now).table = essence (s.recorded relayNow now).full := by
  rw [h.table_recorded]
  refine essence_dropExpired now (essence_foldl_filter _ (essence_endOthers h.name h.same)
    (h.relay.nodup_answer relayNow) ?_)
  intro session hmem hleft hkept
  have hseen : s.seen.get? session.id = some session := by simpa using hleft
  obtain ⟨n, hid⟩ := h.relay.answer_id hmem
  obtain ⟨row, hrow, hshows⟩ := (h.seen _ session hseen).2 hkept
  have hfull : (essence s.full).get? session.id = some row.forget := by
    rw [← h.same, get?_essence, hrow, Option.map_some]
  rw [get?_essence] at hfull
  obtain ⟨other, hother, hforget⟩ := Option.map_eq_some_iff.mp hfull
  refine ⟨h.idle_of_seen hclock hmem hseen, other, ?_, hshows.of_forget hforget.symm⟩
  rw [hid] at hother ⊢
  rw [get?_endOthers_own h.name, hother]

theorem Sound.recorded (h : Sound s) (hclock : ∀ time ∈ s.clock, time < relayNow)
    (hgrow : CountersGrow s.answered (s.answer relayNow))
    (hfresh : ∀ session ∈ s.answer relayNow, complete session = true →
      now - retention ≤ session.lastSeen) : Sound (s.recorded relayNow now) where
  relay := h.relay
  name := h.name
  used := h.used
  issued := fun id row hrow => by
    rcases h.recorded_cases hgrow hrow with ⟨session, hmem, rfl, hshows⟩ | ⟨old, hold, rfl⟩
    · have hactive : row.active = session.active := hshows.count .active
      exact ⟨h.answer_issued hmem, hactive ▸ (h.relay.answer_active hmem).1⟩
    · obtain ⟨hissued, hactive⟩ := h.issued id old hold
      exact ⟨hissued, (endOther_active hactive).1⟩
  answered := fun n row hrow => by
    rcases h.recorded_cases hgrow hrow with ⟨session, hmem, hid, hshows⟩ | ⟨old, hold, rfl⟩
    · exact ⟨session, List.mem_append_left _ hmem, hid, fun c _ => hshows.count c⟩
    · obtain ⟨earlier, hearlier, hrest⟩ := h.answered n old hold
      change ∃ earlier ∈ _, _ ∧ ∀ c ∈ counters,
        (endOther s.relay.log.instanceName (sessionID s.relay.log.instanceName n) old).count c = _
      rw [endOther_own h.name]
      exact ⟨earlier, List.mem_append_right _ hearlier, hrest⟩
  seen := fun id session hseen => by
    obtain ⟨hmem, rfl⟩ := mem_of_get?_snapshots hseen
    exact ⟨h.answer_issued hmem, h.recorded_shows hgrow hfresh hmem⟩
  clock := fun n session hseen hactive => by
    obtain ⟨hmem, -⟩ := mem_of_get?_snapshots hseen
    exact ⟨relayNow, rfl, le_of_eq ((h.relay.answer_active hmem).2 hactive)⟩
  same := h.recorded_same hclock now

end Turn

section History

variable {s next : System}

theorem Sound.step (h : Sound s) {label : Step} (hallowed : allowed s label)
    (hstep : s.step label = some next) : Sound next := by
  cases label with
  | relay label =>
      obtain ⟨relay, hrelay, rfl⟩ := Option.map_eq_some_iff.mp hstep
      exact h.relayStep hallowed.1 hrelay
  | restartRelay instanceName transport =>
      cases hstep
      exact h.restartRelay transport hallowed.1.1 hallowed.1.2
  | restartUi =>
      cases hstep
      exact h.restartUi
  | unread =>
      cases hstep
      exact h
  | turn relayNow now committed =>
      obtain ⟨⟨hclock, hgrow⟩, hfresh⟩ := hallowed
      cases hstep
      cases committed with
      | false => exact h.asked hclock
      | true => exact h.recorded hclock hgrow (hfresh rfl)

theorem Sound.of_reaches {transport : Text} (hname : IsInstance instanceName)
    (hreaches : Reaches System.step allowed (.init instanceName transport) s) : Sound s :=
  hreaches.invariant (fun _ _ _ h hallowed hstep => h.step hallowed hstep)
    (sound_init hname transport)

theorem sumOf_forget (rows : List (Text × Row)) {value : Row → Int}
    (h : ∀ row, value row.forget = value row) :
    sumOf (rows.map fun entry => (entry.1, entry.2.forget)) value = sumOf rows value := by
  simp only [sumOf, List.map_map, Function.comp_def, h]

theorem visitOf_forget (now : Int) (rows : List (Text × Row)) (key : Text × Text) :
    visitOf now (rows.map fun entry => (entry.1, entry.2.forget)) key = visitOf now rows key := by
  have hactive (row : Row) :
      (if now - 3 * pollSeconds ≤ row.forget.sampledAt then row.forget.active else 0) =
        if now - 3 * pollSeconds ≤ row.sampledAt then row.active else 0 := by
    by_cases hidle : row.active = 0
    · simp [Row.forget, hidle]
    · simp [Row.forget, hidle]
  unfold visitOf
  rw [List.filter_map]
  dsimp only
  rw [sumOf_forget _ hactive]
  simp only [sumOf_forget _ (fun _ => rfl : ∀ row : Row, row.forget.accepted = row.accepted),
    sumOf_forget _ (fun _ => rfl : ∀ row : Row, row.forget.denied = row.denied),
    sumOf_forget _ (fun _ => rfl : ∀ row : Row, row.forget.failed = row.failed),
    sumOf_forget _ (fun _ => rfl : ∀ row : Row, row.forget.bytesUp = row.bytesUp),
    sumOf_forget _ (fun _ => rfl : ∀ row : Row, row.forget.bytesDown = row.bytesDown),
    sumOf_forget _ (fun _ => rfl : ∀ row : Row, row.forget.uncounted = row.uncounted),
    List.map_map]
  rfl

theorem sessions_essence (client credential : Option Text) (now : Int) (table : Table) :
    sessions client credential now (essence table) = sessions client credential now table := by
  unfold sessions
  dsimp only
  have hentries : (essence table).entries =
      table.entries.map fun entry => (entry.1, entry.2.forget) := rfl
  rw [hentries, List.filter_map, List.map_map, funext (visitOf_forget now _)]
  rfl

-- The table after a turn, beside the answer of that turn and the table in which every
-- turn recorded its whole answer.
structure HistoryExact (s : System) (answer : List RelaySession) : Prop where
  shown : ∀ session ∈ answer, complete session = true →
    ∃ row, s.table.get? session.id = some row ∧ ∀ c, row.count c = session.count c
  ended : ∀ id row, s.table.get? id = some row → ¬OfInstance s.relay.log.instanceName id →
    row.active = 0
  visits : ∀ client credential now,
    sessions client credential now s.table = sessions client credential now s.full

theorem relay_history_exact {instanceName transport : Text} (hname : IsInstance instanceName)
    (hreaches : Reaches System.step allowed (.init instanceName transport) s) {relayNow now : Int}
    (hallowed : allowed s (.turn relayNow now true))
    (hstep : s.step (.turn relayNow now true) = some next) :
    HistoryExact next (s.answer relayNow) := by
  have h := Sound.of_reaches hname hreaches
  obtain ⟨⟨hclock, hgrow⟩, hfresh⟩ := hallowed
  obtain rfl : s.recorded relayNow now = next := Option.some.inj hstep
  refine ⟨fun session hmem hkept => ?_, fun id row hrow hother => ?_,
    fun client credential time => ?_⟩
  · obtain ⟨row, hrow, hshows⟩ := h.recorded_shows hgrow (hfresh rfl) hmem hkept
    exact ⟨row, hrow, hshows.count⟩
  · rcases h.recorded_cases hgrow hrow with ⟨session, hmem, rfl, -⟩ | ⟨old, hold, rfl⟩
    · obtain ⟨n, hid⟩ := h.relay.answer_id hmem
      rw [hid] at hother
      exact absurd ((ofInstance_sessionID h.name _ n).mpr rfl) hother
    · obtain ⟨⟨name, -, hinstance, n, rfl⟩, hactive⟩ := h.issued id old hold
      refine (endOther_active hactive).2 (Bool.eq_false_iff.mpr fun hlike => hother ?_)
      rw [ofInstance_sessionID hinstance]
      exact (like_sessionID hinstance h.name n).mp hlike
  · rw [← sessions_essence client credential time (s.recorded relayNow now).table,
      h.recorded_same hclock now, sessions_essence]

def restartedRelay : List Step :=
  (openFlow 1 10 20).map .relay ++ [.turn 3 3 true, .relay (.finish 1),
    .relay (.settle 1 ([], []) 4), .turn 8 8 false, .turn 13 13 true, .restartUi, .turn 18 18 true,
    .unread, .turn 23 23 true, .restartRelay "s".toList "http2".toList] ++
    (openFlow 1 5 6).map .relay

theorem restarted_relay_history_exact :
    ∃ s next, runSteps System.step (.init "r".toList "http2".toList) restartedRelay = some s ∧
      s.step (.turn 30 30 true) = some next ∧
      next.table.entries.map (fun entry => (entry.1, entry.2.active, entry.2.bytesUp)) =
        [("r:1".toList, 0, 10), ("s:1".toList, 1, 5)] ∧
      (sessions none none 30 next.table).map (fun visit => (visit.id, visit.active, visit.bytesUp)) =
        [("r:1".toList, 1, 15)] ∧
      HistoryExact next (s.answer 30) := by
  have hread : (runSteps System.step (.init "r".toList "http2".toList) restartedRelay).any
      (fun s => decide (allowed s (.turn 30 30 true)) &&
        decide ((s.recorded 30 30).table.entries.map (fun entry =>
          (entry.1, entry.2.active, entry.2.bytesUp)) =
            [("r:1".toList, 0, 10), ("s:1".toList, 1, 5)]) &&
        decide ((sessions none none 30 (s.recorded 30 30).table).map (fun visit =>
          (visit.id, visit.active, visit.bytesUp)) = [("r:1".toList, 1, 15)])) = true := by
    decide
  have hallowed : AllowedRun System.step allowed (.init "r".toList "http2".toList)
      restartedRelay := by
    decide
  obtain ⟨s, hs, hfacts⟩ := (Option.any_eq_true _ _).mp hread
  simp only [Bool.and_eq_true, decide_eq_true_eq] at hfacts
  obtain ⟨⟨hturn, hrows⟩, hvisits⟩ := hfacts
  exact ⟨s, _, hs, rfl, hrows, hvisits,
    relay_history_exact (by decide) (.of_runSteps hs hallowed) hturn rfl⟩

-- A session stays in the relay's answers for as long as there is room, its row only for a
-- year.
def oldSession : List Step :=
  (openFlow 1 10 20 ++ [FlowStep.finish 1, FlowStep.settle 1 ([], []) 2]).map .relay

theorem old_session_not_kept :
    ∃ s, runSteps System.step (.init "r".toList "http2".toList) oldSession = some s ∧
      AllowedRun System.step scheduled (.init "r".toList "http2".toList) oldSession ∧
      scheduled s (.turn 31536100 31536100 true) ∧
      (∃ session ∈ s.answer 31536100, complete session = true ∧ session.id = "r:1".toList) ∧
      (s.recorded 31536100 31536100).table = .empty ∧
      ¬HistoryExact (s.recorded 31536100 31536100) (s.answer 31536100) := by
  have hread : (runSteps System.step (.init "r".toList "http2".toList) oldSession).any (fun s =>
      decide (scheduled s (.turn 31536100 31536100 true)) &&
        decide (∃ session ∈ s.answer 31536100, complete session = true ∧
          session.id = "r:1".toList) &&
        decide ((s.recorded 31536100 31536100).table = .empty)) = true := by
    decide
  have hallowed : AllowedRun System.step scheduled (.init "r".toList "http2".toList)
      oldSession := by
    decide
  obtain ⟨s, hs, hfacts⟩ := (Option.any_eq_true _ _).mp hread
  simp only [Bool.and_eq_true, decide_eq_true_eq] at hfacts
  obtain ⟨⟨hturn, session, hmem, hkept, hid⟩, hempty⟩ := hfacts
  refine ⟨s, hs, hallowed, hturn, ⟨session, hmem, hkept, hid⟩, hempty, fun hexact => ?_⟩
  obtain ⟨row, hrow, -⟩ := hexact.shown session hmem hkept
  rw [hempty] at hrow
  exact nomatch hrow

end History

end OpenvpnServer.Relay.History
