import OpenvpnServer.Lib.Ipaddress.Lemmas
import OpenvpnServer.Lib.Ledger
import OpenvpnServer.Lib.Run
import OpenvpnServer.Relay.Activity

namespace OpenvpnServer.Relay

open OpenvpnServer.Lib OpenvpnServer.Lib.Ipaddress

variable {f : FlowLog} {session name : Text} {row : RelaySession} {order : List Text} {id : Nat}
  {c : ClientActivity}

inductive Counter where
  | active
  | accepted
  | denied
  | failed
  | bytesUp
  | bytesDown
  | uncounted
  deriving DecidableEq

def RelaySession.count (row : RelaySession) : Counter → Int
  | .active => row.active
  | .accepted => row.accepted
  | .denied => row.denied
  | .failed => row.failed
  | .bytesUp => row.bytesUp
  | .bytesDown => row.bytesDown
  | .uncounted => row.uncounted

-- A client's row in the log has its live flows in `openFlows`, one in an answer
-- in `active`.
def ClientActivity.stored (c : ClientActivity) : Counter → Int
  | .active => c.openFlows
  | .accepted => c.accepted
  | .denied => c.denied
  | .failed => c.failed
  | .bytesUp => c.bytesUp
  | .bytesDown => c.bytesDown
  | .uncounted => c.uncounted

namespace FlowLog

def live (f : FlowLog) : Bool := f.opened && !f.settled

def entered (f : FlowLog) : Bool := f.opened || f.settled

-- What the rows of the log hold of a flow. The bytes of a live one are not in it.
def stored (f : FlowLog) : Counter → Int
  | .active => if f.live then 1 else 0
  | .accepted => if f.opened then 1 else 0
  | .denied => if f.settled ∧ f.ending = .denied then 1 else 0
  | .failed => if f.settled ∧ f.ending = .failed then 1 else 0
  | .bytesUp => if f.settled ∧ f.event.counted then f.up else 0
  | .bytesDown => if f.settled ∧ f.event.counted then f.down else 0
  | .uncounted => if f.settled ∧ f.opened ∧ !f.event.counted then 1 else 0

theorem stored_of_not_entered (h : f.entered = false) (c : Counter) :
    f.stored c = 0 := by
  rw [entered, Bool.or_eq_false_iff] at h
  cases c <;> simp [stored, live, h.1, h.2]

theorem stored_active (f : FlowLog) : f.stored .active = if f.live then 1 else 0 := rfl

theorem stored_active_nonneg (f : FlowLog) : 0 ≤ f.stored .active := by
  rw [stored_active]
  split <;> omega

theorem live_of_stored (h : f.stored .active = 0) : f.live = false := by
  rw [stored_active] at h
  cases hlive : f.live with
  | false => rfl
  | true =>
      rw [hlive] at h
      cases h

theorem entered_of_live (h : f.live = true) : f.entered = true := by
  rw [live, Bool.and_eq_true] at h
  rw [entered, h.1, Bool.true_or]

end FlowLog

section Shares

def sharesOf (flows : Dict Nat FlowLog) (id : Nat) (c : Counter) : Int :=
  (flows.get? id).elim 0 fun f => f.stored c

def visits (flows : Dict Nat FlowLog) (session : Text) : Finset Nat :=
  (flows.keys.filter fun id => (flows.get? id).any fun f => f.event.sessionID = session).toFinset

variable {flows : Dict Nat FlowLog} {id : Nat} {f g : FlowLog}

theorem mem_visits :
    id ∈ visits flows session ↔ ∃ f, flows.get? id = some f ∧ f.event.sessionID = session := by
  simp only [visits, List.mem_toFinset, List.mem_filter, Option.any_eq_true, decide_eq_true_eq,
    Dict.mem_keys_iff]
  constructor
  · rintro ⟨-, f, hf, hsession⟩
    exact ⟨f, hf, hsession⟩
  · rintro ⟨f, hf, hsession⟩
    exact ⟨⟨f, hf⟩, f, hf, hsession⟩

theorem sharesOf_of_get? (h : flows.get? id = some f) : sharesOf flows id = f.stored := by
  funext c
  rw [sharesOf, h]
  rfl

theorem sharesOf_set_self : sharesOf (flows.set id g) id = g.stored :=
  sharesOf_of_get? (Dict.get?_set_self _ _ _)

theorem sharesOf_set_ne {other : Nat} (h : other ≠ id) :
    sharesOf (flows.set id g) other = sharesOf flows other := by
  funext c
  rw [sharesOf, Dict.get?_set_ne _ _ h, sharesOf]

theorem sharesOf_set_of_stored (hf : flows.get? id = some f) (h : g.stored = f.stored)
    (other : Nat) : sharesOf (flows.set id g) other = sharesOf flows other := by
  by_cases hother : other = id
  · rw [hother, sharesOf_set_self, sharesOf_of_get? hf, h]
  · exact sharesOf_set_ne hother

theorem sharesOf_active_nonneg (flows : Dict Nat FlowLog) (id : Nat) :
    0 ≤ sharesOf flows id .active := by
  unfold sharesOf
  cases flows.get? id with
  | none => exact le_refl 0
  | some f => exact f.stored_active_nonneg

theorem visits_set (hf : flows.get? id = some f) :
    visits (flows.set id g) session =
      if g.event.sessionID = session then insert id (visits flows session)
      else (visits flows session).erase id := by
  ext other
  rw [mem_visits]
  by_cases hother : other = id
  · subst hother
    rw [Dict.get?_set_self]
    split
    · rename_i hsession
      simp [hsession]
    · rename_i hsession
      simp [hsession]
  · rw [Dict.get?_set_ne _ _ hother]
    split <;> simp [hother, mem_visits]

end Shares

section Sessions

open ActivityLog

theorem sessionID_ne_nil (instanceName : Text) (n : Nat) : sessionID instanceName n ≠ [] := by
  unfold sessionID
  simp

theorem sessionID_injective {instanceName : Text} {n m : Nat}
    (h : sessionID instanceName n = sessionID instanceName m) : n = m := by
  have htail : decimal n = decimal m := by
    have hlist := List.append_cancel_left h
    exact (List.cons.inj hlist).2
  have hread := decimal?_decimal n
  rw [htail, decimal?_decimal, Option.some.injEq] at hread
  exact hread.symm

structure SessionsSound (a : ActivityLog) : Prop where
  ids : ∀ session row, a.sessions.get? session = some row → row.id = session ∧
    ∃ n ≤ a.sessionSequence, session = sessionID a.instanceName n
  joined : ∀ id f, a.flows.get? id = some f → f.event.sessionID ≠ [] →
    ∃ n ≤ a.sessionSequence, f.event.sessionID = sessionID a.instanceName n
  entered : ∀ id f, a.flows.get? id = some f →
    (f.event.sessionID ≠ [] ↔ f.event.client ≠ [] ∧ f.entered = true)
  kept : ∀ id f, a.flows.get? id = some f → f.live = true → f.event.client ≠ [] →
    ∃ row, a.sessions.get? f.event.sessionID = some row
  issued : ∀ key session, a.currentSessions.get? key = some session →
    ∃ n ≤ a.sessionSequence, session = sessionID a.instanceName n
  current : ∀ key session row, a.currentSessions.get? key = some session →
    a.sessions.get? session = some row → sessionKey row.client row.credentialID = key
  keys : ∀ id f row, a.flows.get? id = some f → a.sessions.get? f.event.sessionID = some row →
    sessionKey f.event.client f.identity = sessionKey row.client row.credentialID
  booked : Booked a.sessions.get? RelaySession.count (visits a.flows) (sharesOf a.flows)

variable {a : ActivityLog}

theorem SessionsSound.of_eq (h : SessionsSound a) {b : ActivityLog}
    (hname : b.instanceName = a.instanceName) (hflows : b.flows = a.flows)
    (hsessions : b.sessions = a.sessions) (hcurrent : b.currentSessions = a.currentSessions)
    (hsequence : b.sessionSequence = a.sessionSequence) : SessionsSound b := by
  constructor
  all_goals simp only [hname, hflows, hsessions, hcurrent, hsequence]
  · exact h.ids
  · exact h.joined
  · exact h.entered
  · exact h.kept
  · exact h.issued
  · exact h.current
  · exact h.keys
  · exact h.booked

theorem SessionsSound.get?_nil (h : SessionsSound a) : a.sessions.get? [] = none := by
  cases hrow : a.sessions.get? [] with
  | none => rfl
  | some row =>
      obtain ⟨-, n, -, hid⟩ := h.ids _ _ hrow
      exact absurd hid.symm (sessionID_ne_nil _ _)

theorem SessionsSound.visits_fresh (h : SessionsSound a) :
    visits a.flows (sessionID a.instanceName (a.sessionSequence + 1)) = ∅ := by
  rw [Finset.eq_empty_iff_forall_notMem]
  intro id hid
  obtain ⟨f, hf, hsession⟩ := mem_visits.mp hid
  obtain ⟨n, hn, hjoined⟩ := h.joined id f hf (by rw [hsession]; exact sessionID_ne_nil _ _)
  have hsame := sessionID_injective (hjoined.symm.trans hsession)
  omega

theorem SessionsSound.eraseRow (h : SessionsSound a)
    (hrow : a.sessions.get? row.id = some row) (hactive : row.active = 0)
    {current : Dict Text Text}
    (hcurrent : ∀ key session, current.get? key = some session →
      a.currentSessions.get? key = some session) :
    SessionsSound
      { a with sessions := a.sessions.erase row.id, currentSessions := current } := by
  have hfound : ∀ session other, (a.sessions.erase row.id).get? session = some other →
      a.sessions.get? session = some other := fun _ _ hother => (Dict.get?_of_erase hother).2
  refine ⟨fun session other hother => h.ids session other (hfound _ _ hother), h.joined, h.entered,
    ?_, fun key session hkey => h.issued key session (hcurrent _ _ hkey), ?_, ?_, ?_⟩
  · intro id f hf hlive hclient
    obtain ⟨other, hother⟩ := h.kept id f hf hlive hclient
    refine ⟨other, ?_⟩
    rw [Dict.get?_erase, if_neg]
    · exact hother
    -- a live flow would be counted in the row
    · intro hsession
      have hmember : id ∈ visits a.flows row.id := mem_visits.mpr ⟨f, hf, hsession⟩
      have hzero := h.booked.share_eq_zero hrow (fun i => sharesOf_active_nonneg a.flows i)
        hactive hmember
      rw [sharesOf_of_get? hf] at hzero
      rw [FlowLog.live_of_stored hzero] at hlive
      cases hlive
  · intro key session other hkey hother
    exact h.current key session other (hcurrent _ _ hkey) (hfound _ _ hother)
  · intro id f other hf hother
    exact h.keys id f other hf (hfound _ _ hother)
  · exact h.booked.drop fun session other hother => ⟨hfound _ _ hother, rfl⟩

theorem oldestSession_spec {sessions : Dict Text RelaySession}
    {oldest : RelaySession} (h : oldestSession sessions order = some oldest) :
    oldest.active = 0 ∧ ∃ session, sessions.get? session = some oldest := by
  have hfold : ∀ row ∈ oldestSession sessions order,
      row.active = 0 ∧ ∃ session, sessions.get? session = some row := by
    refine List.foldlRecOn (motive := fun best => ∀ row ∈ best,
      row.active = 0 ∧ ∃ session, sessions.get? session = some row) order _
      (fun row hrow => absurd hrow (Option.not_mem_none row)) ?_
    intro best hbest session _ row hrow
    unfold olderSession at hrow
    split at hrow
    · exact hbest row hrow
    · rename_i found hfound
      split at hrow
      · rename_i hactive
        cases hrow
        exact ⟨hactive.1, session, hfound⟩
      · exact hbest row hrow
  exact hfold oldest h

theorem SessionsSound.evictSession (h : SessionsSound a) (order : List Text) :
    SessionsSound (a.evictSession order) := by
  unfold ActivityLog.evictSession
  split
  · cases hold : oldestSession a.sessions order with
    | none => exact h
    | some oldest =>
        obtain ⟨hactive, session, hrow⟩ := oldestSession_spec hold
        have hid := (h.ids session oldest hrow).1
        rw [← hid] at hrow
        refine h.eraseRow hrow hactive fun key current hcurrent => ?_
        split at hcurrent
        · exact (Dict.get?_of_erase hcurrent).2
        · exact hcurrent
  · exact h

theorem evictSession_frame (a : ActivityLog) (order : List Text) :
    ∃ sessions currentSessions,
      a.evictSession order = { a with sessions := sessions, currentSessions := currentSessions } ∧
      ∀ other listed, sessions.get? other = some listed → a.sessions.get? other = some listed := by
  unfold ActivityLog.evictSession
  split
  · split
    · exact ⟨a.sessions, a.currentSessions, rfl, fun _ _ hlisted => hlisted⟩
    · exact ⟨_, _, rfl, fun other listed hlisted => (Dict.get?_of_erase hlisted).2⟩
  · exact ⟨a.sessions, a.currentSessions, rfl, fun _ _ hlisted => hlisted⟩

theorem SessionsSound.openSession (h : SessionsSound a) (f : FlowLog) (now : Int) :
    SessionsSound (a.openSession f now) := by
  have hfresh : ∀ row, a.sessions.get? (a.newSession f now).id ≠ some row := by
    intro row hrow
    obtain ⟨-, n, hn, hid⟩ := h.ids _ _ hrow
    have hsame := sessionID_injective hid
    omega
  have hcases : ∀ session row, (a.openSession f now).sessions.get? session = some row →
      session = (a.newSession f now).id ∧ row = a.newSession f now ∨
        session ≠ (a.newSession f now).id ∧ a.sessions.get? session = some row := by
    intro session row hrow
    rcases Dict.get?_set_cases hrow with ⟨hid, hnew⟩ | ⟨hne, hold⟩
    · exact .inl ⟨hid, hnew⟩
    · exact .inr ⟨hne, hold⟩
  refine ⟨?_, ?_, h.entered, ?_, ?_, ?_, ?_, ?_⟩
  · intro session row hrow
    rcases hcases session row hrow with ⟨rfl, rfl⟩ | ⟨-, hold⟩
    · exact ⟨rfl, a.sessionSequence + 1, le_refl _, rfl⟩
    · obtain ⟨hid, n, hn, hsession⟩ := h.ids session row hold
      exact ⟨hid, n, Nat.le_succ_of_le hn, hsession⟩
  · intro id g hg hne
    obtain ⟨n, hn, hsession⟩ := h.joined id g hg hne
    exact ⟨n, Nat.le_succ_of_le hn, hsession⟩
  · intro id g hg hlive hclient
    obtain ⟨row, hrow⟩ := h.kept id g hg hlive hclient
    refine ⟨row, ?_⟩
    change (a.sessions.set _ _).get? _ = _
    rw [Dict.get?_set_ne]
    · exact hrow
    · intro hsession
      exact hfresh row (hsession ▸ hrow)
  · intro key session hkey
    rcases Dict.get?_set_cases hkey with ⟨rfl, rfl⟩ | ⟨-, hold⟩
    · exact ⟨a.sessionSequence + 1, le_refl _, rfl⟩
    · obtain ⟨n, hn, hsession⟩ := h.issued key session hold
      exact ⟨n, Nat.le_succ_of_le hn, hsession⟩
  · intro key session row hkey hrow
    rcases Dict.get?_set_cases hkey with ⟨rfl, rfl⟩ | ⟨-, hold⟩
    · rcases hcases _ row hrow with ⟨-, rfl⟩ | ⟨hne, -⟩
      · rfl
      · exact absurd rfl hne
    · rcases hcases session row hrow with ⟨rfl, -⟩ | ⟨-, hrow⟩
      · obtain ⟨n, hn, hsession⟩ := h.issued key _ hold
        have hsame := sessionID_injective hsession
        omega
      · exact h.current key session row hold hrow
  · intro id g row hg hrow
    rcases hcases _ row hrow with ⟨hsession, -⟩ | ⟨-, hrow⟩
    · have hmember : id ∈ visits a.flows (a.newSession f now).id :=
        mem_visits.mpr ⟨g, hg, hsession⟩
      have hempty : visits a.flows (a.newSession f now).id = ∅ := h.visits_fresh
      rw [hempty] at hmember
      exact absurd hmember (Finset.notMem_empty _)
    · exact h.keys id g row hg hrow
  · have hzero : ∀ c, (a.newSession f now).count c = 0 := by
      intro c
      cases c <;> rfl
    refine h.booked.openRow hzero h.visits_fresh fun other found hfound => ?_
    rcases hcases other found hfound with hnew | ⟨-, hold⟩
    · exact .inl hnew
    · exact .inr hold

section Rows

variable {session : Text} {change : RelaySession → RelaySession}
  (hchange : ∀ row, (change row).id = row.id ∧ (change row).client = row.client ∧
    (change row).credentialID = row.credentialID)

include hchange

theorem get?_modify_session {other : Text}
    (h : (a.sessions.modify session change).get? other = some row) :
    ∃ old, a.sessions.get? other = some old ∧ row.id = old.id ∧ row.client = old.client ∧
      row.credentialID = old.credentialID ∧ (row = old ∨ other = session ∧ row = change old) := by
  rcases Dict.get?_modify_cases h with ⟨rfl, old, hold, rfl⟩ | ⟨-, hold⟩
  · obtain ⟨hid, hclient, hcredential⟩ := hchange old
    exact ⟨old, hold, hid, hclient, hcredential, .inr ⟨rfl, rfl⟩⟩
  · exact ⟨row, hold, rfl, rfl, rfl, .inl rfl⟩

theorem exists_modify_session {other : Text}
    (h : a.sessions.get? other = some row) :
    ∃ row', (a.sessions.modify session change).get? other = some row' := by
  rw [Dict.get?_modify]
  split
  · exact ⟨change row, by rw [h]; rfl⟩
  · exact ⟨row, h⟩

theorem SessionsSound.modifyRow (h : SessionsSound a) (hcount : ∀ row, (change row).count = row.count) :
    SessionsSound { a with sessions := a.sessions.modify session change } := by
  refine ⟨?_, h.joined, h.entered, ?_, h.issued, ?_, ?_, ?_⟩
  · intro other row hrow
    obtain ⟨old, hold, hid, -⟩ := get?_modify_session hchange hrow
    rw [hid]
    exact h.ids other old hold
  · intro id f hf hlive hclient
    obtain ⟨row, hrow⟩ := h.kept id f hf hlive hclient
    exact exists_modify_session hchange hrow
  · intro key other row hkey hrow
    obtain ⟨old, hold, -, hclient, hcredential, -⟩ := get?_modify_session hchange hrow
    rw [hclient, hcredential]
    exact h.current key other old hkey hold
  · intro id f row hf hrow
    obtain ⟨old, hold, -, hclient, hcredential, -⟩ := get?_modify_session hchange hrow
    rw [hclient, hcredential]
    exact h.keys id f old hf hold
  · intro other row hrow c
    obtain ⟨old, hold, -, -, -, hsame⟩ := get?_modify_session hchange hrow
    have hbooked := h.booked other old hold c
    rcases hsame with rfl | ⟨-, rfl⟩
    · exact hbooked
    · rw [hcount]
      exact hbooked

theorem SessionsSound.post (h : SessionsSound a) {g : FlowLog}
    (hf : a.flows.get? id = some f) (hrow : a.sessions.get? session = some row)
    (hsession : g.event.sessionID = session)
    (hjoin : f.event.sessionID = session ∨ f.entered = false)
    (hkey : sessionKey g.event.client g.identity = sessionKey row.client row.credentialID)
    (hclient : g.event.client ≠ []) (hentered : g.entered = true)
    (hcharged : ∀ c, (change row).count c = row.count c + (g.stored c - f.stored c)) :
    SessionsSound
      { a with flows := a.flows.set id g, sessions := a.sessions.modify session change } := by
  have hne : session ≠ [] := by
    rintro rfl
    rw [h.get?_nil] at hrow
    cases hrow
  have hrow' : (a.sessions.modify session change).get? session = some (change row) := by
    rw [Dict.get?_modify, if_pos rfl, hrow]
    rfl
  refine ⟨?_, ?_, ?_, ?_, h.issued, ?_, ?_, ?_⟩
  · intro other row hrow
    obtain ⟨old, hold, hid, -⟩ := get?_modify_session hchange hrow
    rw [hid]
    exact h.ids other old hold
  · intro other k hk hk'
    rcases Dict.get?_set_cases hk with ⟨rfl, rfl⟩ | ⟨-, hold⟩
    · rw [hsession]
      exact (h.ids session row hrow).2
    · exact h.joined other k hold hk'
  · intro other k hk
    rcases Dict.get?_set_cases hk with ⟨rfl, rfl⟩ | ⟨-, hold⟩
    · rw [hsession]
      exact ⟨fun _ => ⟨hclient, hentered⟩, fun _ => hne⟩
    · exact h.entered other k hold
  · intro other k hk hlive hname
    rcases Dict.get?_set_cases hk with ⟨rfl, rfl⟩ | ⟨-, hold⟩
    · rw [hsession]
      exact ⟨_, hrow'⟩
    · obtain ⟨found, hfound⟩ := h.kept other k hold hlive hname
      exact exists_modify_session hchange hfound
  · intro key other found hkey hfound
    obtain ⟨old, hold, -, hname, hcredential, -⟩ := get?_modify_session hchange hfound
    rw [hname, hcredential]
    exact h.current key other old hkey hold
  · intro other k found hk hfound
    obtain ⟨old, hold, -, hname, hcredential, -⟩ := get?_modify_session hchange hfound
    rw [hname, hcredential]
    rcases Dict.get?_set_cases hk with ⟨rfl, rfl⟩ | ⟨-, hk⟩
    · rw [hsession, hrow, Option.some.injEq] at hold
      rw [hkey, hold]
    · exact h.keys other k old hk hold
  · have hmember : id ∈ visits a.flows session ∨ ∀ c, sharesOf a.flows id c = 0 := by
      rcases hjoin with hjoin | hjoin
      · exact .inl (mem_visits.mpr ⟨f, hf, hjoin⟩)
      · refine .inr fun c => ?_
        rw [sharesOf_of_get? hf]
        exact FlowLog.stored_of_not_entered hjoin c
    have hothers : ∀ other found, other ≠ session → a.sessions.get? other = some found →
        id ∉ visits a.flows other ∧ visits (a.flows.set id g) other = visits a.flows other := by
      intro other found hother hfound
      have hnot : id ∉ visits a.flows other := by
        intro hmem
        obtain ⟨k, hk, hin⟩ := mem_visits.mp hmem
        rw [hf, Option.some.injEq] at hk
        subst hk
        rcases hjoin with hjoin | hjoin
        · exact hother (hin.symm.trans hjoin)
        · have hnone : f.event.sessionID = [] := by
            by_contra hsome
            have hin := ((h.entered id f hf).mp hsome).2
            rw [hjoin] at hin
            cases hin
          rw [hnone] at hin
          rw [← hin, h.get?_nil] at hfound
          cases hfound
      refine ⟨hnot, ?_⟩
      rw [visits_set hf, hsession, if_neg (Ne.symm hother), Finset.erase_eq_of_notMem hnot]
    refine h.booked.post hrow hmember hrow' ?_ ?_ ?_ hothers ?_
    · intro c
      rw [hcharged c, sharesOf_set_self, sharesOf_of_get? hf]
    · intro other hother
      change (a.sessions.modify session change).get? other = _
      rw [Dict.get?_modify, if_neg hother]
    · change visits (a.flows.set id g) session = _
      rw [visits_set hf, if_pos hsession]
    · exact fun other hother => sharesOf_set_ne hother

end Rows

theorem SessionsSound.setFlow (h : SessionsSound a) {g : FlowLog}
    (hf : a.flows.get? id = some f) (hsession : g.event.sessionID = f.event.sessionID)
    (hentered : g.event.sessionID ≠ [] ↔ g.event.client ≠ [] ∧ g.entered = true)
    (hkept : g.live = true → f.live = true ∨ g.event.client = [])
    (hsame : f.event.sessionID ≠ [] → g.event.client = f.event.client ∧ g.identity = f.identity ∧
      g.stored = f.stored) :
    SessionsSound { a with flows := a.flows.set id g } := by
  refine ⟨h.ids, ?_, ?_, ?_, h.issued, h.current, ?_, ?_⟩
  · intro other k hk hne
    rcases Dict.get?_set_cases hk with ⟨rfl, rfl⟩ | ⟨-, hold⟩
    · rw [hsession] at hne ⊢
      exact h.joined other f hf hne
    · exact h.joined other k hold hne
  · intro other k hk
    rcases Dict.get?_set_cases hk with ⟨rfl, rfl⟩ | ⟨-, hold⟩
    · exact hentered
    · exact h.entered other k hold
  · intro other k hk hlive hclient
    rcases Dict.get?_set_cases hk with ⟨rfl, rfl⟩ | ⟨-, hold⟩
    · have hne := hentered.mpr ⟨hclient, FlowLog.entered_of_live hlive⟩
      rw [hsession] at hne ⊢
      rcases hkept hlive with hlive | hnone
      · exact h.kept other f hf hlive ((h.entered other f hf).mp hne).1
      · exact absurd hnone hclient
    · exact h.kept other k hold hlive hclient
  · intro other k row hk hrow
    rcases Dict.get?_set_cases hk with ⟨rfl, rfl⟩ | ⟨-, hold⟩
    · rw [hsession] at hrow
      have hne : f.event.sessionID ≠ [] := by
        intro hnil
        rw [hnil, h.get?_nil] at hrow
        cases hrow
      obtain ⟨hclient, hidentity, -⟩ := hsame hne
      rw [hclient, hidentity]
      exact h.keys other f row hf hrow
    · exact h.keys other k row hold hrow
  · refine h.booked.congr fun session row hrow => ⟨?_, fun other hother => ?_⟩
    · ext other
      rw [mem_visits, mem_visits]
      by_cases hid : other = id
      · rw [hid, Dict.get?_set_self, hf]
        simp [hsession]
      · rw [Dict.get?_set_ne _ _ hid]
    · by_cases hid : other = id
      · subst hid
        obtain ⟨k, hk, hin⟩ := mem_visits.mp hother
        rw [hf, Option.some.injEq] at hk
        subst hk
        have hne : f.event.sessionID ≠ [] := by
          intro hnil
          rw [← hin, hnil, h.get?_nil] at hrow
          cases hrow
        exact sharesOf_set_of_stored hf (hsame hne).2.2 other
      · exact sharesOf_set_ne hid

theorem SessionsSound.addFlow (h : SessionsSound a) (hnew : a.flows.get? id = none)
    (now : Int) (sequence : Nat) :
    SessionsSound { a with flows := a.flows.set id (.new id now), sequence := sequence } := by
  refine ⟨h.ids, ?_, ?_, ?_, h.issued, h.current, ?_, ?_⟩
  · intro other k hk hne
    rcases Dict.get?_set_cases hk with ⟨rfl, rfl⟩ | ⟨-, hold⟩
    · exact absurd rfl hne
    · exact h.joined other k hold hne
  · intro other k hk
    rcases Dict.get?_set_cases hk with ⟨rfl, rfl⟩ | ⟨-, hold⟩
    · simp [FlowLog.new]
    · exact h.entered other k hold
  · intro other k hk hlive hclient
    rcases Dict.get?_set_cases hk with ⟨rfl, rfl⟩ | ⟨-, hold⟩
    · exact absurd rfl hclient
    · exact h.kept other k hold hlive hclient
  · intro other k row hk hrow
    rcases Dict.get?_set_cases hk with ⟨rfl, rfl⟩ | ⟨-, hold⟩
    · have hnil : a.sessions.get? [] = some row := hrow
      rw [h.get?_nil] at hnil
      cases hnil
    · exact h.keys other k row hold hrow
  · refine h.booked.congr fun session row hrow => ⟨?_, fun other hother => ?_⟩
    · ext other
      rw [mem_visits, mem_visits]
      by_cases hid : other = id
      · have hne : [] ≠ session := by
          rintro rfl
          rw [h.get?_nil] at hrow
          cases hrow
        rw [hid, Dict.get?_set_self, hnew]
        simp [FlowLog.new, hne]
      · rw [Dict.get?_set_ne _ _ hid]
    · have hid : other ≠ id := by
        rintro rfl
        obtain ⟨k, hk, -⟩ := mem_visits.mp hother
        rw [hnew] at hk
        cases hk
      exact sharesOf_set_ne hid

structure Joins (a : ActivityLog) (f : FlowLog) (sessions : Dict Text RelaySession)
    (currentSessions : Dict Text Text) (sessionSequence : Nat) (session : Text)
    (row : RelaySession) : Prop where
  sound : SessionsSound
    { a with
      sessions := sessions, currentSessions := currentSessions, sessionSequence := sessionSequence }
  found : sessions.get? session = some row
  key : sessionKey f.event.client f.identity = sessionKey row.client row.credentialID
  clients : ∀ other listed, sessions.get? other = some listed →
    (∃ old, a.sessions.get? other = some old ∧ listed.client = old.client) ∨
      listed.client = f.event.client

theorem Joins.touch {sessions : Dict Text RelaySession}
    {currentSessions : Dict Text Text} {sessionSequence : Nat}
    (h : Joins a f sessions currentSessions sessionSequence session row)
    (now : Int) :
    Joins a f (sessions.modify session (·.touch now)) currentSessions sessionSequence session
      (row.touch now) := by
  have hchange : ∀ row : RelaySession, (row.touch now).id = row.id ∧
      (row.touch now).client = row.client ∧ (row.touch now).credentialID = row.credentialID :=
    fun row => ⟨rfl, rfl, rfl⟩
  refine ⟨h.sound.modifyRow hchange ?_, ?_, h.key, ?_⟩
  · intro row
    funext c
    cases c <;> rfl
  · rw [Dict.get?_modify, if_pos rfl, h.found]
    rfl
  · intro other listed hlisted
    rcases Dict.get?_modify_cases hlisted with ⟨rfl, old, hold, rfl⟩ | ⟨-, hold⟩
    · exact h.clients other old hold
    · exact h.clients other listed hold

theorem currentSession_spec (h : SessionsSound a) {now : Int}
    (hrow : a.currentSession f now = some row) :
    a.sessions.get? row.id = some row ∧
      sessionKey row.client row.credentialID = sessionKey f.event.client f.identity := by
  unfold currentSession at hrow
  have hfound := (Option.filter_eq_some_iff.mp hrow).1
  cases hcurrent : a.currentSessions.get? (sessionKey f.event.client f.identity) with
  | none =>
      rw [hcurrent, Option.getD_none, h.get?_nil] at hfound
      cases hfound
  | some session =>
      rw [hcurrent, Option.getD_some] at hfound
      rw [(h.ids session row hfound).1]
      exact ⟨hfound, h.current _ session row hcurrent hfound⟩

theorem sessionLocked_joins (h : SessionsSound a) (hclient : f.event.client ≠ [])
    (hnone : f.event.sessionID = []) (order : List Text) (now : Int) :
    ∃ sessions currentSessions sessionSequence session row,
      a.sessionLocked order f now =
        ({ a with
            sessions := sessions, currentSessions := currentSessions
            sessionSequence := sessionSequence },
          f.withSession session, some session) ∧
      Joins a f sessions currentSessions sessionSequence session row := by
  unfold sessionLocked
  rw [if_neg hclient, if_neg (not_not.mpr hnone)]
  cases hcurrent : a.currentSession f now with
  | some row =>
      obtain ⟨hfound, hkey⟩ := currentSession_spec h hcurrent
      have hjoins : Joins a f a.sessions a.currentSessions a.sessionSequence row.id row :=
        ⟨h, hfound, hkey.symm, fun other listed hlisted => .inl ⟨listed, hlisted, rfl⟩⟩
      exact ⟨_, _, _, _, _, rfl, hjoins.touch now⟩
  | none =>
      obtain ⟨sessions, currentSessions, hframe, hlisted⟩ := evictSession_frame a order
      have hsound := (h.evictSession order).openSession f now
      rw [hframe] at hsound ⊢
      have hjoins : Joins a f (sessions.set (a.newSession f now).id (a.newSession f now))
          (currentSessions.set (sessionKey f.event.client f.identity) (a.newSession f now).id)
          (a.sessionSequence + 1) (a.newSession f now).id (a.newSession f now) := by
        refine ⟨hsound, Dict.get?_set_self _ _ _, rfl, fun other listed hother => ?_⟩
        rcases Dict.get?_set_cases hother with ⟨-, rfl⟩ | ⟨-, hold⟩
        · exact .inr rfl
        · exact .inl ⟨listed, hlisted other listed hold, rfl⟩
      exact ⟨_, _, _, _, _, rfl, hjoins.touch now⟩

-- What a located flow and its charged session are, besides sound.
structure Entry (a : ActivityLog) (f : FlowLog) (located : ActivityLog × FlowLog × Option Text)
    (sessions : Dict Text RelaySession) : Prop where
  frame : ∃ sessions currentSessions sessionSequence, located.1 =
    { a with
      sessions := sessions, currentSessions := currentSessions, sessionSequence := sessionSequence }
  flow : ∃ session, located.2.1 = f.withSession session
  clients : ∀ other listed, sessions.get? other = some listed →
    (∃ old, a.sessions.get? other = some old ∧ listed.client = old.client) ∨
      listed.client = f.event.client

theorem withSession_self (f : FlowLog) : f.withSession f.event.sessionID = f := rfl

theorem SessionsSound.session_eq_nil (h : SessionsSound a)
    (hf : a.flows.get? id = some f) (hout : f.event.client = [] ∨ f.entered = false) :
    f.event.sessionID = [] := by
  by_contra hne
  obtain ⟨hclient, hin⟩ := (h.entered id f hf).mp hne
  rcases hout with hnone | hout
  · exact hclient hnone
  · rw [hout] at hin
    cases hin

-- A flow is entered in its session, or is ended there. `found` is the flow as the
-- session is looked up for it, and `done` says what becomes of it.
theorem SessionsSound.enter (h : SessionsSound a)
    (hf : a.flows.get? id = some f) (found : FlowLog) (done : FlowLog → FlowLog)
    (charge : RelaySession → RelaySession)
    (hsame : found.event.sessionID = f.event.sessionID ∧ found.event.client = f.event.client ∧
      found.identity = f.identity)
    (hdone : ∀ k, (done k).event = k.event ∧ (done k).identity = k.identity)
    (hentered : ∀ session, (done (found.withSession session)).entered = true)
    (hcharge : ∀ row, (charge row).id = row.id ∧ (charge row).client = row.client ∧
      (charge row).credentialID = row.credentialID)
    (hcounts : ∀ row session c, (charge row).count c =
      row.count c + ((done (found.withSession session)).stored c - f.stored c))
    (hstate : f.entered = false ∨ f.live = true) (order : List Text) (now : Int) :
    let located := a.sessionLocked order found now
    SessionsSound
        { located.1 with
          flows := located.1.flows.set id (done located.2.1)
          sessions := chargeSession located charge } ∧
      Entry a found located (chargeSession located charge) := by
  obtain ⟨hsession, hname, hidentity⟩ := hsame
  by_cases hclient : f.event.client = []
  · have hlocated : a.sessionLocked order found now = (a, found, none) := by
      rw [sessionLocked, if_pos (hname.trans hclient)]
    have hnil := h.session_eq_nil hf (.inl hclient)
    have hnone : (done found).event.sessionID = [] := by rw [(hdone found).1, hsession, hnil]
    have hempty : (done found).event.client = [] := by rw [(hdone found).1, hname, hclient]
    rw [hlocated]
    refine ⟨?_, ⟨_, _, _, rfl⟩, ⟨_, (withSession_self found).symm⟩,
      fun other listed hlisted => .inl ⟨listed, hlisted, rfl⟩⟩
    refine h.setFlow hf (hnone.trans hnil.symm) ?_ (fun _ => .inr hempty)
      (fun hne => absurd hnil hne)
    simp [hnone, hempty]
  · rcases hstate with hout | hlive
    · have hnil := h.session_eq_nil hf (.inr hout)
      obtain ⟨sessions, current, sequence, session, row, hlocated, hjoins⟩ :=
        sessionLocked_joins h (by rw [hname]; exact hclient) (hsession.trans hnil) order now
      rw [hlocated]
      have hevent := (hdone (found.withSession session)).1
      refine ⟨?_, ⟨_, _, _, rfl⟩, ⟨session, rfl⟩, ?_⟩
      · refine hjoins.sound.post hcharge hf hjoins.found ?_ (.inr hout) ?_ ?_ (hentered session)
          (hcounts row session)
        · rw [hevent]
          rfl
        · rw [hevent, (hdone (found.withSession session)).2]
          exact hjoins.key
        · rw [hevent]
          exact hname ▸ hclient
      · intro other listed hlisted
        rcases Dict.get?_modify_cases hlisted with ⟨rfl, old, hold, rfl⟩ | ⟨-, hold⟩
        · rw [(hcharge old).2.1]
          exact hjoins.clients _ old hold
        · exact hjoins.clients other listed hold
    · obtain ⟨row, hrow⟩ := h.kept id f hf hlive hclient
      have hne := (h.entered id f hf).mpr ⟨hclient, FlowLog.entered_of_live hlive⟩
      have hlocated : a.sessionLocked order found now =
          (a, found, some f.event.sessionID) := by
        rw [sessionLocked, if_neg (by rw [hname]; exact hclient), hsession, if_pos hne, hrow]
        rfl
      have hkey := h.keys id f row hf hrow
      rw [hlocated]
      refine ⟨?_, ⟨_, _, _, rfl⟩, ⟨_, (withSession_self found).symm⟩, ?_⟩
      · refine h.post hcharge hf hrow ?_ (.inl rfl) ?_ ?_ (hentered found.event.sessionID)
          (hcounts row found.event.sessionID)
        · rw [(hdone found).1, hsession]
        · rw [(hdone found).1, (hdone found).2, hname, hidentity, hkey]
        · rw [(hdone found).1, hname]
          exact hclient
      · intro other listed hlisted
        rcases Dict.get?_modify_cases hlisted with ⟨rfl, old, hold, rfl⟩ | ⟨-, hold⟩
        · exact .inl ⟨old, hold, (hcharge old).2.1⟩
        · exact .inl ⟨listed, hold, rfl⟩

end Sessions

section Clients

open ActivityLog

-- The clients' rows and the flows that entered each since it was made.
structure ClientsSound (clients : Dict Text ClientActivity) (flows : Dict Nat FlowLog)
    (entered : Text → Finset Nat) : Prop where
  names : ∀ name c, clients.get? name = some c → c.client = name ∧ c.active = 0
  member : ∀ name c id, clients.get? name = some c → id ∈ entered name →
    ∃ f, flows.get? id = some f ∧ f.event.client = name ∧ f.entered = true
  kept : ∀ id f, flows.get? id = some f → f.live = true →
    (∃ c, clients.get? f.event.client = some c) ∧ id ∈ entered f.event.client
  booked : Booked clients.get? ClientActivity.stored entered (sharesOf flows)

-- A row that is made later starts without flows.
def listedOnly (clients : Dict Text ClientActivity) (entered : Text → Finset Nat) (name : Text) :
    Finset Nat :=
  if (clients.get? name).isSome then entered name else ∅

def enterRow (entered : Text → Finset Nat) (name : Text) (id : Nat) (other : Text) : Finset Nat :=
  if other = name then insert id (entered other) else entered other

variable {clients : Dict Text ClientActivity} {flows : Dict Nat FlowLog}
  {entered : Text → Finset Nat}

theorem listedOnly_of_get? (h : clients.get? name = some c) :
    listedOnly clients entered name = entered name := by
  rw [listedOnly, h, Option.isSome_some, if_pos rfl]

theorem ClientsSound.listed (h : ClientsSound clients flows entered) :
    ClientsSound clients flows (listedOnly clients entered) := by
  refine ⟨h.names, ?_, ?_, ?_⟩
  · intro name c id hc hid
    rw [listedOnly_of_get? hc] at hid
    exact h.member name c id hc hid
  · intro id f hf hlive
    obtain ⟨⟨c, hc⟩, hid⟩ := h.kept id f hf hlive
    rw [listedOnly_of_get? hc]
    exact ⟨⟨c, hc⟩, hid⟩
  · exact h.booked.congr fun name c hc => ⟨listedOnly_of_get? hc, fun _ _ => rfl⟩

theorem ClientsSound.eraseRow (h : ClientsSound clients flows entered)
    (hc : clients.get? name = some c) (hopen : c.openFlows = 0) :
    ClientsSound (clients.erase name) flows entered := by
  have hfound : ∀ other found, (clients.erase name).get? other = some found →
      clients.get? other = some found := fun _ _ hother => (Dict.get?_of_erase hother).2
  refine ⟨fun other found hother => h.names other found (hfound _ _ hother),
    fun other found id hother => h.member other found id (hfound _ _ hother), ?_, ?_⟩
  · intro id f hf hlive
    obtain ⟨⟨found, hrow⟩, hid⟩ := h.kept id f hf hlive
    refine ⟨⟨found, ?_⟩, hid⟩
    rw [Dict.get?_erase, if_neg]
    · exact hrow
    · intro hname
      rw [hname] at hid
      have hzero := h.booked.share_eq_zero hc (fun i => sharesOf_active_nonneg flows i) hopen hid
      rw [sharesOf_of_get? hf] at hzero
      rw [FlowLog.live_of_stored hzero] at hlive
      cases hlive
  · exact h.booked.drop fun other found hother => ⟨hfound _ _ hother, rfl⟩

theorem ClientsSound.newRow (h : ClientsSound clients flows entered) {e : FlowEvent}
    (hnone : clients.get? e.client = none) (hempty : entered e.client = ∅) (now : Int) :
    ClientsSound (clients.set e.client (newClient e now)) flows entered := by
  refine ⟨?_, ?_, ?_, ?_⟩
  · intro name c hc
    rcases Dict.get?_set_cases hc with ⟨rfl, rfl⟩ | ⟨-, hold⟩
    · exact ⟨rfl, rfl⟩
    · exact h.names name c hold
  · intro name c id hc hid
    rcases Dict.get?_set_cases hc with ⟨rfl, rfl⟩ | ⟨-, hold⟩
    · rw [hempty] at hid
      exact absurd hid (Finset.notMem_empty _)
    · exact h.member name c id hold hid
  · intro id f hf hlive
    obtain ⟨⟨c, hc⟩, hid⟩ := h.kept id f hf hlive
    have hne : f.event.client ≠ e.client := by
      intro hsame
      rw [hsame, hnone] at hc
      cases hc
    exact ⟨⟨c, by rw [Dict.get?_set_ne _ _ hne, hc]⟩, hid⟩
  · have hzero : ∀ c, (newClient e now).stored c = 0 := by
      intro c
      cases c <;> rfl
    refine h.booked.openRow hzero hempty fun other found hfound => ?_
    rcases Dict.get?_set_cases hfound with hnew | ⟨-, hold⟩
    · exact .inl hnew
    · exact .inr hold

theorem oldestClient_spec (h : (oldestClient clients order).2 ≠ 0) :
    ∃ c, clients.get? (oldestClient clients order).1 = some c ∧ c.openFlows = 0 := by
  have hfold : (oldestClient clients order).2 = 0 ∨
      ∃ c, clients.get? (oldestClient clients order).1 = some c ∧ c.openFlows = 0 := by
    refine List.foldlRecOn (motive := fun best : Text × Int => best.2 = 0 ∨
      ∃ c, clients.get? best.1 = some c ∧ c.openFlows = 0) order _ (.inl rfl) ?_
    intro best hbest name _
    unfold olderClient
    split
    · exact hbest
    · rename_i c hc
      split
      · rename_i hopen
        exact .inr ⟨c, hc, hopen.1⟩
      · exact hbest
  exact hfold.resolve_left h

theorem ClientsSound.evictClient (h : ClientsSound clients flows entered) (order : List Text) :
    ClientsSound (evictClient clients order) flows entered := by
  unfold ActivityLog.evictClient
  split
  · dsimp only
    split
    · rename_i hseen
      obtain ⟨c, hc, hopen⟩ := oldestClient_spec hseen
      exact h.eraseRow hc hopen
    · exact h
  · exact h

theorem get?_evictClient_none (h : clients.get? name = none) :
    (evictClient clients order).get? name = none := by
  unfold ActivityLog.evictClient
  split
  · dsimp only
    split
    · rw [Dict.get?_erase, h, ite_self]
    · exact h
  · exact h

theorem ClientsSound.trimClient (h : ClientsSound clients flows entered) (name : Text) :
    ClientsSound (trimClient clients name) flows entered := by
  unfold ActivityLog.trimClient
  split
  · rename_i htrim
    obtain ⟨c, hc, hopen⟩ := Option.any_eq_true _ _ |>.mp htrim.2
    exact h.eraseRow hc (of_decide_eq_true hopen)
  · exact h

theorem ClientsSound.clientLocked (h : ClientsSound clients flows entered) (order : List Text)
    (e : FlowEvent) (now : Int) :
    ClientsSound (clientLocked clients order e now) flows (listedOnly clients entered) ∧
      ∃ c, (clientLocked clients order e now).get? e.client = some c := by
  unfold ActivityLog.clientLocked
  cases hc : clients.get? e.client with
  | some c =>
      refine ⟨?_, _, Dict.get?_set_self _ _ _⟩
      have hlisted := h.listed
      refine ⟨?_, ?_, ?_, ?_⟩
      · intro name found hfound
        rcases Dict.get?_set_cases hfound with ⟨rfl, rfl⟩ | ⟨-, hold⟩
        · exact hlisted.names e.client c hc
        · exact hlisted.names name found hold
      · intro name found id hfound hid
        rcases Dict.get?_set_cases hfound with ⟨rfl, rfl⟩ | ⟨-, hold⟩
        · exact hlisted.member e.client c id hc hid
        · exact hlisted.member name found id hold hid
      · intro id f hf hlive
        obtain ⟨⟨found, hfound⟩, hid⟩ := hlisted.kept id f hf hlive
        refine ⟨?_, hid⟩
        rw [Dict.get?_set]
        split
        · exact ⟨_, rfl⟩
        · exact ⟨found, hfound⟩
      · intro name found hfound k
        rcases Dict.get?_set_cases hfound with ⟨rfl, rfl⟩ | ⟨-, hold⟩
        · rw [← hlisted.booked e.client c hc k]
          cases k <;> rfl
        · exact hlisted.booked name found hold k
  | none =>
      refine ⟨?_, _, Dict.get?_set_self _ _ _⟩
      refine (h.listed.evictClient order).newRow (get?_evictClient_none hc) ?_ now
      rw [listedOnly, hc, Option.isSome_none, if_neg Bool.false_ne_true]

section Flow

variable {id : Nat} {f g : FlowLog} (hf : flows.get? id = some f)

include hf

theorem ClientsSound.post (h : ClientsSound clients flows entered)
    {change : ClientActivity → ClientActivity} (hc : clients.get? g.event.client = some c)
    (hchange : ∀ c, (change c).client = c.client ∧ (change c).active = c.active)
    (hname : g.event.client = f.event.client) (hentered : g.entered = true)
    (hjoin : id ∈ entered g.event.client ∨ f.entered = false)
    (hcharged : ∀ k, (change c).stored k = c.stored k + (g.stored k - f.stored k)) :
    ClientsSound (clients.modify g.event.client change) (flows.set id g)
      (enterRow entered g.event.client id) := by
  have hself : enterRow entered g.event.client id g.event.client =
      insert id (entered g.event.client) := by
    rw [enterRow, if_pos rfl]
  have hother : ∀ name, name ≠ g.event.client → enterRow entered g.event.client id name =
      entered name := by
    intro name hne
    rw [enterRow, if_neg hne]
  refine ⟨?_, ?_, ?_, ?_⟩
  · intro name found hfound
    rcases Dict.get?_modify_cases hfound with ⟨rfl, old, hold, rfl⟩ | ⟨-, hold⟩
    · rw [(hchange old).1, (hchange old).2]
      exact h.names _ old hold
    · exact h.names name found hold
  · intro name found other hfound hmem
    have hold : ∃ old, clients.get? name = some old := by
      rcases Dict.get?_modify_cases hfound with ⟨rfl, old, hold, -⟩ | ⟨-, hold⟩
      · exact ⟨old, hold⟩
      · exact ⟨found, hold⟩
    obtain ⟨old, hold⟩ := hold
    by_cases hid : other = id
    · subst hid
      refine ⟨g, Dict.get?_set_self _ _ _, ?_, hentered⟩
      by_cases hsame : name = g.event.client
      · exact hsame.symm
      · rw [hother name hsame] at hmem
        obtain ⟨k, hk, hkname, -⟩ := h.member name old other hold hmem
        rw [hf, Option.some.injEq] at hk
        rw [hname, hk, hkname]
    · have hmem : other ∈ entered name := by
        by_cases hsame : name = g.event.client
        · rw [hsame, hself, Finset.mem_insert] at hmem
          rw [hsame]
          exact hmem.resolve_left hid
        · rw [hother name hsame] at hmem
          exact hmem
      rw [Dict.get?_set_ne _ _ hid]
      exact h.member name old other hold hmem
  · intro other k hk hlive
    have hrow : ∀ name old, clients.get? name = some old →
        ∃ found, (clients.modify g.event.client change).get? name = some found := by
      intro name old hold
      rw [Dict.get?_modify, hold]
      split
      · exact ⟨_, rfl⟩
      · exact ⟨_, rfl⟩
    rcases Dict.get?_set_cases hk with ⟨rfl, rfl⟩ | ⟨-, hold⟩
    · refine ⟨hrow _ c hc, ?_⟩
      rw [hself]
      exact Finset.mem_insert_self _ _
    · obtain ⟨⟨old, hrowOld⟩, hmem⟩ := h.kept other k hold hlive
      refine ⟨hrow _ old hrowOld, ?_⟩
      by_cases hsame : k.event.client = g.event.client
      · rw [hsame, hself]
        rw [hsame] at hmem
        exact Finset.mem_insert_of_mem hmem
      · rw [hother _ hsame]
        exact hmem
  · have hmember : id ∈ entered g.event.client ∨ ∀ k, sharesOf flows id k = 0 := by
      rcases hjoin with hjoin | hjoin
      · exact .inl hjoin
      · refine .inr fun k => ?_
        rw [sharesOf_of_get? hf]
        exact FlowLog.stored_of_not_entered hjoin k
    have hrow' : (clients.modify g.event.client change).get? g.event.client = some (change c) := by
      rw [Dict.get?_modify, if_pos rfl, hc]
      rfl
    refine h.booked.post hc hmember hrow' ?_ ?_ hself ?_ fun other hne => sharesOf_set_ne hne
    · intro k
      rw [hcharged k, sharesOf_set_self, sharesOf_of_get? hf]
    · intro name hne
      rw [Dict.get?_modify, if_neg hne]
    · intro name old hne hold
      refine ⟨fun hmem => ?_, hother name hne⟩
      obtain ⟨k, hk, hkname, -⟩ := h.member name old id hold hmem
      rw [hf, Option.some.injEq] at hk
      rw [hk, hkname] at hname
      exact hne hname.symm

theorem ClientsSound.enter (h : ClientsSound clients flows entered)
    (change : ClientActivity → ClientActivity)
    (hchange : ∀ c, (change c).client = c.client ∧ (change c).active = c.active)
    (hname : g.event.client = f.event.client) (hentered : g.entered = true)
    (hstate : f.entered = false ∨ f.live = true)
    (hcharged : ∀ c k, (change c).stored k = c.stored k + (g.stored k - f.stored k))
    (order : List Text) {e : FlowEvent} (he : e.client = f.event.client) (now : Int) :
    ClientsSound ((ActivityLog.clientLocked clients order e now).modify f.event.client change)
      (flows.set id g) (enterRow (listedOnly clients entered) f.event.client id) := by
  obtain ⟨hlocked, c, hc⟩ := h.clientLocked order e now
  rw [he] at hc
  have hpost := hlocked.post (g := g) hf (hname ▸ hc) hchange hname hentered ?_ (hcharged c)
  · rwa [hname] at hpost
  · rcases hstate with hout | hlive
    · exact .inr hout
    · obtain ⟨⟨row, hrow⟩, hmem⟩ := h.kept id f hf hlive
      rw [hname, listedOnly_of_get? hrow]
      exact .inl hmem

theorem ClientsSound.setFlow (h : ClientsSound clients flows entered)
    (hentered : g.entered = f.entered) (hlive : g.live = f.live)
    (hname : f.entered = true → g.event.client = f.event.client) (hstored : g.stored = f.stored) :
    ClientsSound clients (flows.set id g) entered := by
  refine ⟨h.names, ?_, ?_, ?_⟩
  · intro name c other hc hmem
    obtain ⟨k, hk, hkname, hkentered⟩ := h.member name c other hc hmem
    by_cases hid : other = id
    · rw [hid, hf, Option.some.injEq] at hk
      subst hk
      refine ⟨g, by rw [hid, Dict.get?_set_self], ?_, by rw [hentered, hkentered]⟩
      rw [hname hkentered, hkname]
    · exact ⟨k, by rw [Dict.get?_set_ne _ _ hid, hk], hkname, hkentered⟩
  · intro other k hk hklive
    rcases Dict.get?_set_cases hk with ⟨rfl, rfl⟩ | ⟨-, hold⟩
    · rw [hlive] at hklive
      rw [hname (FlowLog.entered_of_live hklive)]
      exact h.kept other f hf hklive
    · exact h.kept other k hold hklive
  · exact h.booked.congr fun name c hc =>
      ⟨rfl, fun other _ => sharesOf_set_of_stored hf hstored other⟩

end Flow

theorem ClientsSound.addFlow (h : ClientsSound clients flows entered)
    (hnew : flows.get? id = none) (now : Int) :
    ClientsSound clients (flows.set id (.new id now)) entered := by
  have hold : ∀ name c other, clients.get? name = some c → other ∈ entered name → other ≠ id := by
    rintro name c other hc hmem rfl
    obtain ⟨k, hk, -⟩ := h.member name c other hc hmem
    rw [hnew] at hk
    cases hk
  refine ⟨h.names, ?_, ?_, ?_⟩
  · intro name c other hc hmem
    rw [Dict.get?_set_ne _ _ (hold name c other hc hmem)]
    exact h.member name c other hc hmem
  · intro other k hk hlive
    rcases Dict.get?_set_cases hk with ⟨rfl, rfl⟩ | ⟨-, hk⟩
    · exact absurd hlive Bool.false_ne_true
    · exact h.kept other k hk hlive
  · exact h.booked.congr fun name c hc =>
      ⟨rfl, fun other hmem => sharesOf_set_ne (hold name c other hc hmem)⟩

end Clients

end OpenvpnServer.Relay
