import Mathlib.Algebra.BigOperators.Ring.Finset
import OpenvpnServer.Relay.Activity.Lemmas

namespace OpenvpnServer.Relay

open OpenvpnServer.Lib

variable {id : Nat} {f g : FlowLog} {k selected : Text} {row : RelaySession} {members : Finset Nat}
  {t : Traced}

section Machine

-- The log, and for each client the flows that entered its row. A row that is
-- made anew has none of those that entered an earlier one.
structure Traced where
  log : ActivityLog
  entered : Text → Finset Nat

def Traced.init (instanceName transport : Text) : Traced :=
  ⟨newActivity instanceName transport, fun _ => ∅⟩

-- The flow that `connected` or `finish` puts in its rows.
def enteringFlow (a : ActivityLog) : FlowStep → Option FlowLog
  | .connected id _ _ => a.flows.get? id
  | .settle id _ _ => a.flows.get? id
  | _ => none

def Traced.enter (t : Traced) (label : FlowStep) : Text → Finset Nat :=
  match enteringFlow t.log label with
  | none => t.entered
  | some f => enterRow (listedOnly t.log.clients t.entered) f.event.client f.event.id

def Traced.step (t : Traced) (label : FlowStep) : Option Traced :=
  (t.log.step label).map fun log => ⟨log, t.enter label⟩

def FlowLog.waiting (f : FlowLog) : Bool := !f.opened && !f.ended

-- What ServeHTTP does in order: a flow is identified and described before it is
-- connected, connected at most once and before it ends, and adds nothing after
-- its end.
def servedInOrder (t : Traced) : FlowStep → Prop
  | .identify id _ _ _ => ∀ f ∈ t.log.flows.get? id, f.waiting = true
  | .describe id _ _ _ => ∀ f ∈ t.log.flows.get? id, f.waiting = true
  | .reject id _ _ => ∀ f ∈ t.log.flows.get? id, f.waiting = true
  | .connected id _ _ => ∀ f ∈ t.log.flows.get? id, f.waiting = true
  | .add id _ _ => ∀ f ∈ t.log.flows.get? id, f.ended = false
  | _ => True

instance (t : Traced) (label : FlowStep) : Decidable (servedInOrder t label) :=
  match label with
  | .identify id _ _ _ =>
      inferInstanceAs (Decidable (∀ f ∈ t.log.flows.get? id, f.waiting = true))
  | .describe id _ _ _ =>
      inferInstanceAs (Decidable (∀ f ∈ t.log.flows.get? id, f.waiting = true))
  | .reject id _ _ => inferInstanceAs (Decidable (∀ f ∈ t.log.flows.get? id, f.waiting = true))
  | .connected id _ _ =>
      inferInstanceAs (Decidable (∀ f ∈ t.log.flows.get? id, f.waiting = true))
  | .add id _ _ => inferInstanceAs (Decidable (∀ f ∈ t.log.flows.get? id, f.ended = false))
  | .begin _ => isTrue trivial
  | .reason _ _ => isTrue trivial
  | .finish _ => isTrue trivial
  | .settle _ _ _ => isTrue trivial

end Machine

section Invariant

open ActivityLog

structure FlowsSound (a : ActivityLog) : Prop where
  ids : ∀ id f, a.flows.get? id = some f → f.event.id = id ∧ id ≤ a.sequence
  ended : ∀ id f, a.flows.get? id = some f → f.settled = true → f.ended = true
  nodup : a.active.Nodup
  active : ∀ id, id ∈ a.active ↔ ∃ f, a.flows.get? id = some f ∧ f.live = true

-- Every session is that of some flow's client.
def SessionsOwned (a : ActivityLog) : Prop :=
  ∀ session row, a.sessions.get? session = some row →
    ∃ id f, a.flows.get? id = some f ∧ f.entered = true ∧ f.event.client = row.client

structure Accounted (t : Traced) : Prop where
  flows : FlowsSound t.log
  sessions : SessionsSound t.log
  owned : SessionsOwned t.log
  clients : ClientsSound t.log.clients t.log.flows t.entered

theorem accounted_init (instanceName transport : Text) :
    Accounted (.init instanceName transport) := by
  have hflows : ∀ id f, (newActivity instanceName transport).flows.get? id ≠ some f :=
    fun id f h => nomatch h
  have hsessions : ∀ id row, (newActivity instanceName transport).sessions.get? id ≠ some row :=
    fun id row h => nomatch h
  have hclients : ∀ name c, (newActivity instanceName transport).clients.get? name ≠ some c :=
    fun name c h => nomatch h
  refine ⟨⟨?_, ?_, List.nodup_nil, ?_⟩, ⟨?_, ?_, ?_, ?_, ?_, ?_, ?_, ?_⟩, ?_, ⟨?_, ?_, ?_, ?_⟩⟩
  · exact fun id f hf => absurd hf (hflows id f)
  · exact fun id f hf => absurd hf (hflows id f)
  · exact fun id => ⟨fun hid => absurd hid List.not_mem_nil,
      fun ⟨f, hf, _⟩ => absurd hf (hflows id f)⟩
  · exact fun id row hrow => absurd hrow (hsessions id row)
  · exact fun id f hf => absurd hf (hflows id f)
  · exact fun id f hf => absurd hf (hflows id f)
  · exact fun id f hf => absurd hf (hflows id f)
  · exact fun key session hkey => nomatch hkey
  · exact fun key session row _ hrow => absurd hrow (hsessions session row)
  · exact fun id f row hf => absurd hf (hflows id f)
  · exact fun id row hrow => absurd hrow (hsessions id row)
  · exact fun id row hrow => absurd hrow (hsessions id row)
  · exact fun name c hc => absurd hc (hclients name c)
  · exact fun name c id hc => absurd hc (hclients name c)
  · exact fun id f hf => absurd hf (hflows id f)
  · exact fun name c hc => absurd hc (hclients name c)

variable {t : Traced}

structure Harmless (f g : FlowLog) : Prop where
  id : g.event.id = f.event.id
  session : g.event.sessionID = f.event.sessionID
  opened : g.opened = f.opened
  settled : g.settled = f.settled
  ended : f.ended = true → g.ended = true
  client : f.entered = true → g.event.client = f.event.client ∧ g.identity = f.identity
  stored : g.stored = f.stored

theorem Accounted.setFlow (h : Accounted t)
    (hf : t.log.flows.get? id = some f) (hg : Harmless f g) :
    Accounted ⟨{ t.log with flows := t.log.flows.set id g }, t.entered⟩ := by
  have hentered : g.entered = f.entered := by rw [FlowLog.entered, hg.opened, hg.settled]; rfl
  have hlive : g.live = f.live := by rw [FlowLog.live, hg.opened, hg.settled]; rfl
  have hjoined := h.sessions.entered id f hf
  have hsession : g.event.sessionID ≠ [] ↔ g.event.client ≠ [] ∧ g.entered = true := by
    rw [hg.session, hjoined, hentered]
    constructor
    · rintro ⟨hclient, hin⟩
      rw [(hg.client hin).1]
      exact ⟨hclient, hin⟩
    · rintro ⟨hclient, hin⟩
      rw [(hg.client hin).1] at hclient
      exact ⟨hclient, hin⟩
  refine ⟨⟨?_, ?_, h.flows.nodup, ?_⟩, ?_, ?_, ?_⟩
  · intro other k hk
    rcases Dict.get?_set_cases hk with ⟨rfl, rfl⟩ | ⟨-, hold⟩
    · rw [hg.id]
      exact h.flows.ids other f hf
    · exact h.flows.ids other k hold
  · intro other k hk hsettled
    rcases Dict.get?_set_cases hk with ⟨rfl, rfl⟩ | ⟨-, hold⟩
    · rw [hg.settled] at hsettled
      exact hg.ended (h.flows.ended other f hf hsettled)
    · exact h.flows.ended other k hold hsettled
  · intro other
    rw [h.flows.active other]
    by_cases hid : other = id
    · simp [hid, hf, hlive]
    · rw [Dict.get?_set_ne _ _ hid]
  · refine h.sessions.setFlow hf hg.session hsession (fun hl => .inl (by rw [← hlive, hl])) ?_
    intro hne
    obtain ⟨hclient, hidentity⟩ := hg.client (hjoined.mp hne).2
    exact ⟨hclient, hidentity, hg.stored⟩
  · intro session row hrow
    obtain ⟨other, k, hk, hin, hclient⟩ := h.owned session row hrow
    by_cases hid : other = id
    · rw [hid, hf, Option.some.injEq] at hk
      subst hk
      refine ⟨id, g, Dict.get?_set_self _ _ _, by rw [hentered, hin], ?_⟩
      rw [(hg.client hin).1, hclient]
    · exact ⟨other, k, by rw [Dict.get?_set_ne _ _ hid, hk], hin, hclient⟩
  · exact h.clients.setFlow hf hentered hlive (fun hin => (hg.client hin).1) hg.stored

theorem Accounted.begin (h : Accounted t) (now : Int) :
    Accounted ⟨t.log.begin now, t.entered⟩ := by
  have hnew : t.log.flows.get? (t.log.sequence + 1) = none := by
    cases hf : t.log.flows.get? (t.log.sequence + 1) with
    | none => rfl
    | some f =>
        have hbound := (h.flows.ids _ f hf).2
        omega
  refine ⟨⟨?_, ?_, h.flows.nodup, ?_⟩, h.sessions.addFlow hnew now _, ?_,
    h.clients.addFlow hnew now⟩
  · intro id f hf
    rcases Dict.get?_set_cases hf with ⟨rfl, rfl⟩ | ⟨-, hold⟩
    · exact ⟨rfl, le_refl _⟩
    · obtain ⟨hid, hbound⟩ := h.flows.ids id f hold
      exact ⟨hid, Nat.le_succ_of_le hbound⟩
  · intro id f hf hsettled
    rcases Dict.get?_set_cases hf with ⟨rfl, rfl⟩ | ⟨-, hold⟩
    · cases hsettled
    · exact h.flows.ended id f hold hsettled
  · intro id
    change id ∈ t.log.active ↔ ∃ f, (t.log.flows.set _ _).get? id = some f ∧ _
    rw [h.flows.active id]
    by_cases hid : id = t.log.sequence + 1
    · simp [hid, hnew, FlowLog.new, FlowLog.live]
    · rw [Dict.get?_set_ne _ _ hid]
  · intro session row hrow
    obtain ⟨id, f, hf, hin, hclient⟩ := h.owned session row hrow
    have hne : id ≠ t.log.sequence + 1 := by
      rintro rfl
      rw [hnew] at hf
      cases hf
    exact ⟨id, f, (Dict.get?_set_ne _ _ hne).trans hf, hin, hclient⟩

theorem Accounted.of_entry (h : Accounted t) {b : ActivityLog}
    {entered : Text → Finset Nat} (hf : t.log.flows.get? id = some f)
    (hflows : b.flows = t.log.flows.set id g) (hid : g.event.id = f.event.id)
    (hsequence : b.sequence = t.log.sequence) (hsettled : g.settled = true → g.ended = true)
    (hactive : b.active = if g.live then t.log.active.insert id else t.log.active.erase id)
    (hentered : g.entered = true) (hclient : g.event.client = f.event.client)
    (hsessions : SessionsSound b)
    (howned : ∀ other listed, b.sessions.get? other = some listed →
      (∃ old, t.log.sessions.get? other = some old ∧ listed.client = old.client) ∨
        listed.client = f.event.client)
    (hclients : ClientsSound b.clients (t.log.flows.set id g) entered) :
    Accounted ⟨b, entered⟩ := by
  refine ⟨⟨?_, ?_, ?_, ?_⟩, hsessions, ?_, by rw [hflows]; exact hclients⟩
  · intro other k hk
    rw [hflows] at hk
    rw [hsequence]
    rcases Dict.get?_set_cases hk with ⟨rfl, rfl⟩ | ⟨-, hold⟩
    · rw [hid]
      exact h.flows.ids other f hf
    · exact h.flows.ids other k hold
  · intro other k hk hk'
    rw [hflows] at hk
    rcases Dict.get?_set_cases hk with ⟨rfl, rfl⟩ | ⟨-, hold⟩
    · exact hsettled hk'
    · exact h.flows.ended other k hold hk'
  · change b.active.Nodup
    rw [hactive]
    split
    · exact h.flows.nodup.insert
    · exact h.flows.nodup.erase id
  · intro other
    change other ∈ b.active ↔ ∃ k, b.flows.get? other = some k ∧ k.live = true
    rw [hactive, hflows]
    by_cases hother : other = id
    · subst hother
      rw [Dict.get?_set_self]
      cases hlive : g.live with
      | true => simp [hlive]
      | false => simp [hlive, h.flows.nodup.mem_erase_iff]
    · rw [Dict.get?_set_ne _ _ hother, ← h.flows.active other]
      split
      · simp [hother]
      · simp [h.flows.nodup.mem_erase_iff, hother]
  · intro session row hrow
    change ∃ other k, b.flows.get? other = some k ∧ _
    rw [hflows]
    rcases howned session row hrow with ⟨old, hold, hname⟩ | hname
    · obtain ⟨other, k, hk, hin, hk'⟩ := h.owned session old hold
      rw [hname, ← hk']
      by_cases hother : other = id
      · rw [hother, hf, Option.some.injEq] at hk
        subst hk
        exact ⟨id, g, Dict.get?_set_self _ _ _, hentered, hclient⟩
      · exact ⟨other, k, by rw [Dict.get?_set_ne _ _ hother, hk], hin, rfl⟩
    · exact ⟨id, g, Dict.get?_set_self _ _ _, hentered, by rw [hclient, hname]⟩

theorem Accounted.connected (h : Accounted t)
    (hf : t.log.flows.get? id = some f) (hwaiting : f.waiting = true)
    (orders : List Text × List Text) (now : Int) :
    Accounted ⟨t.log.connected orders f now,
      enterRow (listedOnly t.log.clients t.entered) f.event.client f.event.id⟩ := by
  rw [FlowLog.waiting, Bool.and_eq_true, Bool.not_eq_true', Bool.not_eq_true'] at hwaiting
  obtain ⟨hopened, hended⟩ := hwaiting
  have hid := (h.flows.ids id f hf).1
  have hsettled : f.settled = false := by
    rw [Bool.eq_false_iff]
    intro hs
    rw [h.flows.ended id f hf hs] at hended
    cases hended
  have hout : f.entered = false := by rw [FlowLog.entered, hopened, hsettled]; rfl
  have hzero := FlowLog.stored_of_not_entered hout
  have hstored : ∀ session c, ((openedFlow f).withSession session).stored c =
      if c = .active ∨ c = .accepted then 1 else 0 := by
    intro session c
    cases c <;> simp [FlowLog.stored, FlowLog.live, FlowLog.withSession, openedFlow, hsettled]
  have hcounts : ∀ row session c, (sessionConnected row).count c =
      row.count c + (((openedFlow f).withSession session).stored c - f.stored c) := by
    intro row session c
    rw [hstored, hzero]
    cases c <;> simp [RelaySession.count, sessionConnected]
  obtain ⟨hsound, ⟨sessions, current, sequence, hframe⟩, ⟨session, hflow⟩, howned⟩ :=
    h.sessions.enter hf (openedFlow f) (fun k => k) sessionConnected ⟨rfl, rfl, rfl⟩ (fun k => ⟨rfl, rfl⟩)
      (fun session => rfl) (fun row => ⟨rfl, rfl, rfl⟩) hcounts (.inl hout) orders.1 f.start
  have hlive : ((openedFlow f).withSession session).live = true := by
    rw [FlowLog.live, Bool.and_eq_true, Bool.not_eq_true']
    exact ⟨rfl, hsettled⟩
  have hclients : ∀ c k, (clientConnected f.event.guest c).stored k =
      c.stored k + (((openedFlow f).withSession session).stored k - f.stored k) := by
    intro c k
    rw [hstored, hzero]
    cases k <;> simp [ClientActivity.stored, clientConnected]
  have hrows := h.clients.enter hf (g := (openedFlow f).withSession session)
    (clientConnected f.event.guest) (fun c => ⟨rfl, rfl⟩) rfl rfl (.inl hout) hclients orders.2
    (e := (openedFlow f).event) rfl now
  generalize hlocated : t.log.sessionLocked orders.1 (openedFlow f) f.start = located
    at hsound hframe hflow howned
  have hlog : t.log.connected orders f now =
      { located.1 with
        flows := located.1.flows.set f.event.id located.2.1
        sessions := chargeSession located sessionConnected
        active := located.1.active.insert f.event.id
        total := located.1.total + 1
        clients := (clientLocked located.1.clients orders.2 (openedFlow f).event now).modify
          f.event.client (clientConnected f.event.guest) } := by
    rw [← hlocated]
    rfl
  rw [hlog, hid]
  refine h.of_entry hf (g := (openedFlow f).withSession session) ?_ rfl ?_ ?_ ?_ rfl rfl ?_ howned ?_
  · rw [hframe, hflow]
  · rw [hframe]
  · exact fun hs => absurd hs (by simp [FlowLog.withSession, openedFlow, hsettled])
  · rw [hlive, if_pos rfl, hframe]
  · exact hsound.of_eq rfl rfl rfl rfl rfl
  · rw [hframe]
    exact hrows

def settledFlow (f : FlowLog) : FlowLog := { f with settled := true }

def finishedShare (f : FlowLog) : Counter → Int
  | .active => if f.opened then -1 else 0
  | .accepted => 0
  | .denied => if f.ending = .denied then 1 else 0
  | .failed => if f.ending = .failed then 1 else 0
  | .bytesUp => if f.event.counted then f.up else 0
  | .bytesDown => if f.event.counted then f.down else 0
  | .uncounted => if !f.event.counted && f.opened then 1 else 0

theorem stored_settledFlow (hsettled : f.settled = false) (session : Text)
    (c : Counter) :
    (settledFlow (f.withSession session)).stored c - f.stored c = finishedShare f c := by
  have hending : (settledFlow (f.withSession session)).ending = f.ending := rfl
  cases hopened : f.opened with
  | true =>
      cases c <;>
        simp [FlowLog.stored, FlowLog.live, hending, finishedShare, hsettled, hopened] <;>
        simp [settledFlow, FlowLog.withSession, hopened]
  | false =>
      cases c <;>
        simp [FlowLog.stored, FlowLog.live, hending, finishedShare, hsettled, hopened] <;>
        simp [settledFlow, FlowLog.withSession, hopened]

theorem count_sessionFinished (f : FlowLog) (now : Int) (row : RelaySession) (c : Counter) :
    (sessionFinished f now row).count c = row.count c + finishedShare f c := by
  cases c
  case accepted => exact (add_zero _).symm
  all_goals
    simp only [RelaySession.count, sessionFinished, finishedShare]
    split <;> omega

theorem stored_clientFinished (f : FlowLog) (now : Int) (row : ClientActivity) (c : Counter) :
    (clientFinished f now row).stored c = row.stored c + finishedShare f c := by
  cases c
  case accepted => exact (add_zero _).symm
  all_goals
    simp only [ClientActivity.stored, clientFinished, finishedShare]
    split <;> omega

theorem Accounted.settle (h : Accounted t)
    (hf : t.log.flows.get? id = some f) (hended : f.ended = true) (hsettled : f.settled = false)
    (orders : List Text × List Text) (now : Int) :
    Accounted ⟨t.log.settle orders f now,
      enterRow (listedOnly t.log.clients t.entered) f.event.client f.event.id⟩ := by
  have hid := (h.flows.ids id f hf).1
  have hstate : f.entered = false ∨ f.live = true := by
    rw [FlowLog.entered, FlowLog.live, hsettled]
    cases f.opened
    · exact .inl rfl
    · exact .inr rfl
  have hcounts : ∀ row session c, (sessionFinished f now row).count c =
      row.count c + ((settledFlow (f.withSession session)).stored c - f.stored c) := by
    intro row session c
    rw [stored_settledFlow hsettled, count_sessionFinished]
  obtain ⟨hsound, ⟨sessions, current, sequence, hframe⟩, ⟨session, hflow⟩, howned⟩ :=
    h.sessions.enter hf f settledFlow (sessionFinished f now) ⟨rfl, rfl, rfl⟩
      (fun k => ⟨rfl, rfl⟩) (fun session => Bool.or_true _) (fun row => ⟨rfl, rfl, rfl⟩) hcounts
      hstate orders.1 now
  have hclients : ∀ c k, (clientFinished f now c).stored k =
      c.stored k + ((settledFlow (f.withSession session)).stored k - f.stored k) := by
    intro c k
    rw [stored_settledFlow hsettled, stored_clientFinished]
  have hrows := h.clients.enter hf (g := settledFlow (f.withSession session))
    (clientFinished f now) (fun c => ⟨rfl, rfl⟩) rfl (Bool.or_true _) hstate hclients orders.2
    (e := f.event) rfl now
  have hlive : (settledFlow (f.withSession session)).live = false := Bool.and_false _
  generalize hlocated : t.log.sessionLocked orders.1 f now = located
    at hsound hframe hflow howned
  have hlog : (t.log.settle orders f now).flows =
        located.1.flows.set f.event.id (settledFlow located.2.1) ∧
      (t.log.settle orders f now).sessions = chargeSession located (sessionFinished f now) ∧
      (t.log.settle orders f now).currentSessions = located.1.currentSessions ∧
      (t.log.settle orders f now).sessionSequence = located.1.sessionSequence ∧
      (t.log.settle orders f now).instanceName = located.1.instanceName ∧
      (t.log.settle orders f now).sequence = located.1.sequence ∧
      (t.log.settle orders f now).active = located.1.active.erase f.event.id := by
    rw [← hlocated]
    exact ⟨rfl, rfl, rfl, rfl, rfl, rfl, rfl⟩
  obtain ⟨hflows, hsessions, hcurrent, hnumber, hname, hsequence, hactive⟩ := hlog
  rw [hid] at hflows hactive ⊢
  refine h.of_entry hf (g := settledFlow (f.withSession session)) ?_ rfl ?_ ?_ ?_ (Bool.or_true _)
    rfl ?_ ?_ (hrows.trimClient f.event.client)
  · rw [hflows, hframe, hflow]
  · rw [hsequence, hframe]
  · exact fun _ => hended
  · rw [hlive, if_neg Bool.false_ne_true, hactive, hframe]
  · exact hsound.of_eq hname hflows hsessions hcurrent hnumber
  · rw [hsessions]
    exact howned

section Steps

variable {f : FlowLog}

theorem FlowLog.not_settled_of_waiting (h : Accounted t)
    (hf : t.log.flows.get? id = some f) (hended : f.ended = false) : f.settled = false := by
  rw [Bool.eq_false_iff]
  intro hs
  rw [h.flows.ended id f hf hs] at hended
  cases hended

theorem harmless_of_waiting (hopened : f.opened = false) (hsettled : f.settled = false)
    (hid : g.event.id = f.event.id) (hsession : g.event.sessionID = f.event.sessionID)
    (hopened' : g.opened = f.opened) (hsettled' : g.settled = f.settled)
    (hended : g.ended = f.ended) : Harmless f g := by
  have hout : f.entered = false := by rw [FlowLog.entered, hopened, hsettled]; rfl
  have hout' : g.entered = false := by rw [FlowLog.entered, hopened', hsettled']; exact hout
  refine ⟨hid, hsession, hopened', hsettled', fun h => hended.trans h, ?_, ?_⟩
  · intro hin
    rw [hout] at hin
    cases hin
  · funext c
    rw [FlowLog.stored_of_not_entered hout, FlowLog.stored_of_not_entered hout']

theorem harmless_setReason (f : FlowLog) (reason : Text) : Harmless f (f.setReason reason) := by
  unfold FlowLog.setReason
  split
  · exact ⟨rfl, rfl, rfl, rfl, id, fun _ => ⟨rfl, rfl⟩, rfl⟩
  · refine ⟨rfl, rfl, rfl, rfl, id, fun _ => ⟨rfl, rfl⟩, ?_⟩
    funext c
    cases c <;> rfl

theorem harmless_add (hsettled : f.settled = false) (up down : Int) :
    Harmless f (f.add up down) := by
  refine ⟨rfl, rfl, rfl, rfl, id, fun _ => ⟨rfl, rfl⟩, ?_⟩
  funext c
  cases c <;> simp [FlowLog.stored, FlowLog.add, FlowLog.live, FlowLog.ending, hsettled]

theorem harmless_ended (f : FlowLog) : Harmless f { f with ended := true } := by
  refine ⟨rfl, rfl, rfl, rfl, fun _ => rfl, fun _ => ⟨rfl, rfl⟩, ?_⟩
  funext c
  cases c <;> rfl

theorem Accounted.update (h : Accounted t) {change : FlowLog → FlowLog}
    {log : ActivityLog} (hupdate : t.log.update id change = some log)
    (hchange : ∀ f, t.log.flows.get? id = some f → Harmless f (change f)) :
    Accounted ⟨log, t.entered⟩ := by
  unfold ActivityLog.update at hupdate
  obtain ⟨f, hf, rfl⟩ := Option.map_eq_some_iff.mp hupdate
  exact h.setFlow hf (hchange f hf)

theorem Accounted.update_waiting (h : Accounted t) {change : FlowLog → FlowLog}
    {log : ActivityLog} (hupdate : t.log.update id change = some log)
    (hwaiting : ∀ f ∈ t.log.flows.get? id, f.waiting = true)
    (hkeys : ∀ f, (change f).event.id = f.event.id ∧
      (change f).event.sessionID = f.event.sessionID ∧ (change f).opened = f.opened ∧
      (change f).settled = f.settled ∧ (change f).ended = f.ended) :
    Accounted ⟨log, t.entered⟩ := by
  refine h.update hupdate fun f hf => ?_
  have hw := hwaiting f hf
  rw [FlowLog.waiting, Bool.and_eq_true, Bool.not_eq_true', Bool.not_eq_true'] at hw
  obtain ⟨hid, hsession, hopened, hsettled, hended⟩ := hkeys f
  exact harmless_of_waiting hw.1 (FlowLog.not_settled_of_waiting h hf hw.2) hid hsession hopened
    hsettled hended

theorem Accounted.step (h : Accounted t) {label : FlowStep} {next : Traced}
    (hallowed : servedInOrder t label) (hstep : t.step label = some next) : Accounted next := by
  unfold Traced.step at hstep
  obtain ⟨log, hlog, rfl⟩ := Option.map_eq_some_iff.mp hstep
  cases label with
  | begin now =>
      cases hlog
      exact h.begin now
  | identify id client guest identity =>
      exact h.update_waiting hlog hallowed fun f => ⟨rfl, rfl, rfl, rfl, rfl⟩
  | describe id protocol target counted =>
      exact h.update_waiting hlog hallowed fun f => ⟨rfl, rfl, rfl, rfl, rfl⟩
  | reject id status reason =>
      refine h.update_waiting hlog hallowed fun f => ?_
      unfold FlowLog.reject FlowLog.setReason
      dsimp only
      split <;> exact ⟨rfl, rfl, rfl, rfl, rfl⟩
  | reason id reason => exact h.update hlog fun f _ => harmless_setReason f reason
  | add id up down =>
      refine h.update hlog fun f hf => ?_
      exact harmless_add (FlowLog.not_settled_of_waiting h hf (hallowed f hf)) up down
  | connected id orders now =>
      obtain ⟨f, hf, rfl⟩ := Option.map_eq_some_iff.mp hlog
      have hentered : t.enter (.connected id orders now) =
          enterRow (listedOnly t.log.clients t.entered) f.event.client f.event.id := by
        rw [Traced.enter, enteringFlow, hf]
      rw [hentered]
      exact h.connected hf (hallowed f hf) orders now
  | finish id => exact h.update hlog fun f _ => harmless_ended f
  | settle id orders now =>
      obtain ⟨f, hfilter, rfl⟩ := Option.map_eq_some_iff.mp hlog
      obtain ⟨hf, hends⟩ := Option.filter_eq_some_iff.mp hfilter
      rw [Bool.and_eq_true, Bool.not_eq_true'] at hends
      have hentered : t.enter (.settle id orders now) =
          enterRow (listedOnly t.log.clients t.entered) f.event.client f.event.id := by
        rw [Traced.enter, enteringFlow, hf]
      rw [hentered]
      exact h.settle hf hends.1 hends.2 orders now

theorem Accounted.of_reaches {instanceName transport : Text}
    (hreaches : Reaches Traced.step servedInOrder (.init instanceName transport) t) :
    Accounted t :=
  hreaches.invariant (fun _ _ _ h hallowed hstep => h.step hallowed hstep)
    (accounted_init instanceName transport)

end Steps

end Invariant

section Status

open ActivityLog

def ClientActivity.count (c : ClientActivity) : Counter → Int
  | .active => c.active
  | k => c.stored k

def FlowLog.shown (f : FlowLog) : Counter → Int
  | .active => if f.live then 1 else 0
  | .accepted => if f.opened then 1 else 0
  | .denied => if f.settled ∧ f.ending = .denied then 1 else 0
  | .failed => if f.settled ∧ f.ending = .failed then 1 else 0
  | .bytesUp => if f.event.counted then f.up else 0
  | .bytesDown => if f.event.counted then f.down else 0
  | .uncounted => if f.opened ∧ !f.event.counted then 1 else 0

def liveShare (active : Int) (e : FlowEvent) : Counter → Int
  | .active => active
  | .bytesUp => if e.counted then e.bytesUp else 0
  | .bytesDown => if e.counted then e.bytesDown else 0
  | .uncounted => if e.counted then 0 else 1
  | _ => 0

theorem shown_eq (h : f.entered = true) (c : Counter) :
    f.shown c = f.stored c + if f.live then liveShare 0 f.snapshot c else 0 := by
  have hsnapshot : f.snapshot.counted = f.event.counted ∧ f.snapshot.bytesUp = f.up ∧
      f.snapshot.bytesDown = f.down := ⟨rfl, rfl, rfl⟩
  rw [FlowLog.entered, Bool.or_eq_true] at h
  cases hopened : f.opened <;> cases hsettled : f.settled <;> cases hcounted : f.event.counted <;>
    cases c <;>
    simp_all [FlowLog.shown, FlowLog.stored, FlowLog.live, liveShare]

section Fold

variable {ρ : Type} {count : ρ → Counter → Int}

def addedTo (active : Int) (key : FlowEvent → Text) (events : List FlowEvent) (k : Text)
    (c : Counter) : Int :=
  (events.map fun e => if key e = k then liveShare active e c else 0).sum

theorem get?_foldl_addToSession {now : Int} {events : List FlowEvent} {d : Dict Text RelaySession}
    (h : (events.foldl (fun rows e => rows.modify e.sessionID (addToSession now e)) d).get? k =
      some row) :
    ∃ base, d.get? k = some base ∧ row.id = base.id ∧ row.client = base.client ∧
      ∀ c, row.count c = base.count c + addedTo 0 FlowEvent.sessionID events k c := by
  induction events generalizing d with
  | nil => exact ⟨row, h, rfl, rfl, fun c => (add_zero _).symm⟩
  | cons e rest ih =>
      rw [List.foldl_cons] at h
      obtain ⟨base, hbase, hid, hclient, hcount⟩ := ih h
      have hstep : ∃ first, d.get? k = some first ∧ base.id = first.id ∧
          base.client = first.client ∧ ∀ c, base.count c =
            first.count c + if e.sessionID = k then liveShare 0 e c else 0 := by
        rcases Dict.get?_modify_cases hbase with ⟨rfl, first, hfirst, rfl⟩ | ⟨hne, hold⟩
        · refine ⟨first, hfirst, rfl, rfl, fun c => ?_⟩
          rw [if_pos rfl]
          cases hcounted : e.counted <;> cases c <;>
            simp [RelaySession.count, addToSession, liveShare, hcounted]
        · refine ⟨base, hold, rfl, rfl, fun c => ?_⟩
          rw [if_neg (Ne.symm hne), add_zero]
      obtain ⟨first, hfirst, hid', hclient', hcount'⟩ := hstep
      refine ⟨first, hfirst, hid.trans hid', hclient.trans hclient', fun c => ?_⟩
      rw [hcount c, hcount' c, addedTo, addedTo, List.map_cons, List.sum_cons, add_assoc]

theorem get?_addFlow {d : Dict Text ClientActivity} {e : FlowEvent}
    {row : ClientActivity} (hrow : ∃ c, d.get? e.client = some c)
    (h : (addFlow d e).get? k = some row) :
    ∃ first, d.get? k = some first ∧ row.client = first.client ∧
      ∀ c, row.count c = first.count c + if e.client = k then liveShare 1 e c else 0 := by
  obtain ⟨first, hfirst⟩ := hrow
  unfold addFlow at h
  rw [hfirst, Option.getD_some] at h
  rcases Dict.get?_set_cases h with ⟨rfl, rfl⟩ | ⟨hne, hold⟩
  · refine ⟨first, hfirst, rfl, fun c => ?_⟩
    rw [if_pos rfl]
    cases hcounted : e.counted <;> cases c <;>
      simp [ClientActivity.count, ClientActivity.stored, addToClient, liveShare, hcounted]
  · refine ⟨row, hold, rfl, fun c => ?_⟩
    rw [if_neg (Ne.symm hne), add_zero]

theorem get?_foldl_addFlow {events : List FlowEvent} {d : Dict Text ClientActivity}
    {row : ClientActivity} (hrows : ∀ e ∈ events, ∃ c, d.get? e.client = some c)
    (h : (events.foldl addFlow d).get? k = some row) :
    ∃ base, d.get? k = some base ∧ row.client = base.client ∧
      ∀ c, row.count c = base.count c + addedTo 1 FlowEvent.client events k c := by
  induction events generalizing d with
  | nil => exact ⟨row, h, rfl, fun c => (add_zero _).symm⟩
  | cons e rest ih =>
      rw [List.foldl_cons] at h
      have hrest : ∀ other ∈ rest, ∃ c, (addFlow d e).get? other.client = some c := by
        intro other hother
        unfold addFlow
        rw [Dict.get?_set]
        split
        · exact ⟨_, rfl⟩
        · exact hrows other (List.mem_cons_of_mem _ hother)
      obtain ⟨base, hbase, hclient, hcount⟩ := ih hrest h
      obtain ⟨first, hfirst, hclient', hcount'⟩ := get?_addFlow (hrows e List.mem_cons_self) hbase
      refine ⟨first, hfirst, hclient.trans hclient', fun c => ?_⟩
      rw [hcount c, hcount' c, addedTo, addedTo, List.map_cons, List.sum_cons, add_assoc]

theorem sum_filterMap_filter {get : Nat → Option FlowLog} {p : FlowLog → Bool} {w : FlowLog → Int}
    (l : List Nat) :
    (((l.filterMap get).filter p).map w).sum =
      (l.map fun id => (get id).elim 0 fun f => if p f then w f else 0).sum := by
  induction l with
  | nil => rfl
  | cons id rest ih =>
      rw [List.map_cons, List.sum_cons, ← ih]
      cases hid : get id with
      | none => simp [List.filterMap_cons_none hid]
      | some f =>
          rw [List.filterMap_cons_some hid]
          by_cases hp : p f = true
          · simp [hp]
          · simp [hp]

theorem addedTo_liveEvents {a : ActivityLog} (h : FlowsSound a) {active : Int}
    {key : FlowEvent → Text}
    (hmembers : ∀ id f, a.flows.get? id = some f → f.live = true →
      (id ∈ members ↔ selects selected f.event.client = true ∧ key f.snapshot = k)) (c : Counter) :
    addedTo active key (a.liveEvents selected) k c =
      ∑ id ∈ members, (a.flows.get? id).elim 0 fun f =>
        if f.live then liveShare active f.snapshot c else 0 := by
  have hlive : ∀ id, (a.flows.get? id).elim 0
      (fun f => if f.live then liveShare active f.snapshot c else 0) =
      if id ∈ a.active.toFinset then
        (a.flows.get? id).elim 0 fun f => liveShare active f.snapshot c else 0 := by
    intro id
    have hin := h.active id
    cases hf : a.flows.get? id with
    | none => simp
    | some f =>
        rw [hf] at hin
        simp [hin]
  unfold addedTo liveEvents
  rw [List.map_map, sum_filterMap_filter, ← List.sum_toFinset _ h.nodup,
    Finset.sum_congr rfl fun id _ => hlive id, sum_common]
  refine Finset.sum_congr rfl fun id hid => ?_
  obtain ⟨f, hf, hl⟩ := (h.active id).mp (List.mem_toFinset.mp hid)
  have hiff := hmembers id f hf hl
  rw [hf]
  simp only [Option.elim_some, Function.comp_apply, hiff]
  by_cases hselects : selects selected f.event.client = true
  · simp [hselects]
  · simp [hselects]

end Fold

def flowsWhere (flows : Dict Nat FlowLog) (members : Finset Nat) (p : FlowLog → Bool) :
    Finset Nat :=
  members.filter fun id => (flows.get? id).any p

def bytesOf (flows : Dict Nat FlowLog) (bytes : FlowLog → Int) (id : Nat) : Int :=
  (flows.get? id).elim 0 bytes

structure RowExact (flows : Dict Nat FlowLog) (members : Finset Nat) (count : Counter → Int) :
    Prop where
  active : count .active = (flowsWhere flows members FlowLog.live).card
  accepted : count .accepted = (flowsWhere flows members FlowLog.opened).card
  denied : count .denied =
    (flowsWhere flows members fun f => f.settled && f.ending = .denied).card
  failed : count .failed =
    (flowsWhere flows members fun f => f.settled && f.ending = .failed).card
  bytesUp : count .bytesUp =
    ∑ id ∈ flowsWhere flows members fun f => f.event.counted, bytesOf flows FlowLog.up id
  bytesDown : count .bytesDown =
    ∑ id ∈ flowsWhere flows members fun f => f.event.counted, bytesOf flows FlowLog.down id
  uncounted : count .uncounted =
    (flowsWhere flows members fun f => f.opened && !f.event.counted).card

theorem rowExact_of_shown {flows : Dict Nat FlowLog} {count : Counter → Int}
    (h : ∀ c, count c = ∑ id ∈ members, (flows.get? id).elim 0 fun f => f.shown c) :
    RowExact flows members count := by
  have hcard : ∀ (p : FlowLog → Bool),
      (∑ id ∈ members, (flows.get? id).elim (0 : Int) fun f => if p f then 1 else 0) =
        (flowsWhere flows members p).card := by
    intro p
    rw [flowsWhere, ← Finset.sum_boole]
    refine Finset.sum_congr rfl fun id _ => ?_
    cases flows.get? id <;> simp
  have hbytes : ∀ (bytes : FlowLog → Int),
      (∑ id ∈ members, (flows.get? id).elim 0 fun f => if f.event.counted then bytes f else 0) =
        ∑ id ∈ flowsWhere flows members fun f => f.event.counted, bytesOf flows bytes id := by
    intro bytes
    rw [flowsWhere, Finset.sum_filter]
    refine Finset.sum_congr rfl fun id _ => ?_
    unfold bytesOf
    cases flows.get? id <;> simp
  refine ⟨?_, ?_, ?_, ?_, ?_, ?_, ?_⟩
  · rw [h, ← hcard]
    rfl
  · rw [h, ← hcard]
    rfl
  · rw [h, ← hcard]
    simp [FlowLog.shown]
  · rw [h, ← hcard]
    simp [FlowLog.shown]
  · rw [h, ← hbytes]
    rfl
  · rw [h, ← hbytes]
    rfl
  · rw [h, ← hcard]
    simp [FlowLog.shown]

theorem rowExact_of_booked {flows : Dict Nat FlowLog}
    {count : Counter → Int} (hentered : ∀ id ∈ members, ∀ f, flows.get? id = some f → f.entered = true)
    (h : ∀ c, count c = ∑ id ∈ members, sharesOf flows id c +
      ∑ id ∈ members, (flows.get? id).elim 0 fun f =>
        if f.live then liveShare 0 f.snapshot c else 0) : RowExact flows members count := by
  refine rowExact_of_shown fun c => ?_
  rw [h c, ← Finset.sum_add_distrib]
  refine Finset.sum_congr rfl fun id hid => ?_
  unfold sharesOf
  cases hf : flows.get? id with
  | none => rfl
  | some f =>
      simp only [Option.elim_some]
      rw [shown_eq (hentered id hid f hf)]

theorem closeVisit_spec (now : Int) (row : RelaySession) :
    (closeVisit now row).id = row.id ∧ (closeVisit now row).count = row.count := by
  unfold closeVisit
  split
  · exact ⟨rfl, by funext c; cases c <;> rfl⟩
  · split
    · exact ⟨rfl, by funext c; cases c <;> rfl⟩
    · exact ⟨rfl, by funext c; cases c <;> rfl⟩

theorem selects_self {client other : Text} (h : selects selected client = true)
    (hsame : selected = [] ∨ other = client) : selects selected other = true := by
  rcases hsame with hall | rfl
  · simp [selects, hall]
  · exact h

theorem Accounted.client_of_session (h : Accounted t)
    (hnames : ∀ id f, t.log.flows.get? id = some f → '\x00' ∉ f.event.client)
    (hf : t.log.flows.get? id = some f)
    (hrow : t.log.sessions.get? f.event.sessionID = some row) :
    f.event.client = row.client := by
  obtain ⟨other, k, hk, -, hclient⟩ := h.owned _ row hrow
  have hkey := h.sessions.keys id f row hf hrow
  unfold sessionKey at hkey
  rw [← hclient] at hkey ⊢
  have hcut := cutFirst_append_cons (hnames id f hf) f.identity
  rw [hkey, cutFirst_append_cons (hnames other k hk), Option.some.injEq, Prod.mk.injEq] at hcut
  exact hcut.1.symm

structure AnswerExact (t : Traced) (answer : StatusAnswer) : Prop where
  sessions : ∀ row ∈ answer.sessions,
    RowExact t.log.flows (visits t.log.flows row.id) row.count
  clients : ∀ row ∈ answer.clients, RowExact t.log.flows (t.entered row.client) row.count
  -- every flow of a known client that connected or ended is in one session
  entered : ∀ id f, t.log.flows.get? id = some f → f.entered = true → f.event.client ≠ [] →
    f.event.sessionID ≠ []
  -- the rows of a live flow are there, and it entered its client's row since it was made
  kept : ∀ id f, t.log.flows.get? id = some f → f.live = true →
    ((∃ c, t.log.clients.get? f.event.client = some c) ∧ id ∈ t.entered f.event.client) ∧
      (f.event.client ≠ [] → ∃ row, t.log.sessions.get? f.event.sessionID = some row)

theorem Accounted.sessions_exact (h : Accounted t)
    (hnames : selected = [] ∨
      ∀ id f, t.log.flows.get? id = some f → '\x00' ∉ f.event.client) (now : Int)
    (hrow : row ∈ (t.log.status selected now).sessions) :
    RowExact t.log.flows (visits t.log.flows row.id) row.count := by
  unfold status sessionSnapshot at hrow
  rw [List.mem_insertionSort] at hrow
  obtain ⟨listed, hlisted, rfl⟩ := List.mem_map.mp hrow
  obtain ⟨k, hk⟩ := (Dict.mem_values_iff _).mp hlisted
  obtain ⟨base, hbase, hid, -, hcount⟩ := get?_foldl_addToSession hk
  obtain ⟨hmem, hkey⟩ : base ∈ t.log.sessions.values.filter (fun row => selects selected row.client) ∧
      base.id = k := (Dict.get?_foldl_set hbase).resolve_right (fun hnone => nomatch hnone)
  obtain ⟨hvalue, hselects⟩ := List.mem_filter.mp hmem
  obtain ⟨session, hsession⟩ := (Dict.mem_values_iff _).mp hvalue
  have hsame : session = k := ((h.sessions.ids session base hsession).1.symm.trans hkey)
  subst hsame
  obtain ⟨hclosed, hcounts⟩ := closeVisit_spec now listed
  rw [hclosed, hcounts, hid, hkey]
  refine rowExact_of_booked ?_ fun c => ?_
  · intro id hmember f hf
    obtain ⟨g, hg, hin⟩ := mem_visits.mp hmember
    rw [hf, Option.some.injEq] at hg
    subst hg
    refine ((h.sessions.entered id f hf).mp ?_).2
    rw [hin]
    intro hnil
    rw [hnil, h.sessions.get?_nil] at hsession
    cases hsession
  · rw [hcount c, h.sessions.booked session base hsession c]
    congr 1
    refine addedTo_liveEvents h.flows (fun id f hf _ => ?_) c
    rw [mem_visits, hf]
    constructor
    · rintro ⟨g, hg, hin⟩
      cases hg
      refine ⟨selects_self hselects (hnames.imp_right fun hn => ?_), hin⟩
      exact h.client_of_session hn hf (by rw [hin]; exact hsession)
    · rintro ⟨-, hin⟩
      exact ⟨f, rfl, hin⟩

theorem Accounted.clients_exact (h : Accounted t) (selected : Text) (now : Int)
    {row : ClientActivity} (hrow : row ∈ (t.log.status selected now).clients) :
    RowExact t.log.flows (t.entered row.client) row.count := by
  unfold status summarizeClients at hrow
  rw [List.mem_insertionSort] at hrow
  obtain ⟨listed, hlisted, rfl⟩ := List.mem_map.mp hrow
  obtain ⟨k, hk⟩ := (Dict.mem_values_iff _).mp hlisted
  have hrows : ∀ e ∈ t.log.liveEvents selected,
      ∃ c, ((t.log.clients.values.filter fun c => selects selected c.client).foldl
        (fun rows row => rows.set row.client row) Dict.empty).get? e.client = some c := by
    intro e he
    obtain ⟨f, hf, rfl⟩ := List.mem_map.mp he
    obtain ⟨hfound, hselects⟩ := List.mem_filter.mp hf
    obtain ⟨id, hid, hget⟩ := List.mem_filterMap.mp hfound
    obtain ⟨g, hg, hlive⟩ := (h.flows.active id).mp hid
    rw [hget, Option.some.injEq] at hg
    subst hg
    obtain ⟨⟨c, hc⟩, -⟩ := h.clients.kept id f hget hlive
    have hname := (h.clients.names _ c hc).1
    refine Dict.exists_foldl_set (.inl ⟨c, List.mem_filter.mpr ⟨?_, ?_⟩, hname⟩)
    · exact (Dict.mem_values_iff _).mpr ⟨_, hc⟩
    · rw [hname]
      exact hselects
  obtain ⟨base, hbase, hclient, hcount⟩ := get?_foldl_addFlow hrows hk
  obtain ⟨hmem, hkey⟩ : base ∈ t.log.clients.values.filter (fun c => selects selected c.client) ∧
      base.client = k := (Dict.get?_foldl_set hbase).resolve_right (fun hnone => nomatch hnone)
  obtain ⟨hvalue, hselects⟩ := List.mem_filter.mp hmem
  obtain ⟨name, hname⟩ := (Dict.mem_values_iff _).mp hvalue
  obtain ⟨hclient', hactive⟩ := h.clients.names name base hname
  have hsame : name = k := hclient'.symm.trans hkey
  subst hsame
  change RowExact _ (t.entered listed.client) listed.count
  rw [hclient, hkey]
  have hmember : ∀ id f, t.log.flows.get? id = some f → id ∈ t.entered name →
      f.event.client = name ∧ f.entered = true := by
    intro id f hf hin
    obtain ⟨g, hg, hkeyed, hentered⟩ := h.clients.member name base id hname hin
    rw [hf, Option.some.injEq] at hg
    subst hg
    exact ⟨hkeyed, hentered⟩
  have hadded : ∀ active c, addedTo active FlowEvent.client (t.log.liveEvents selected) name c =
      ∑ id ∈ t.entered name, (t.log.flows.get? id).elim 0 fun f =>
        if f.live then liveShare active f.snapshot c else 0 := by
    intro active c
    refine addedTo_liveEvents h.flows (fun id f hf hlive => ?_) c
    constructor
    · intro hin
      obtain ⟨hkeyed, -⟩ := hmember id f hf hin
      exact ⟨by rw [hkeyed, ← hkey]; exact hselects, hkeyed⟩
    · rintro ⟨-, hkeyed⟩
      have hin := (h.clients.kept id f hf hlive).2
      have hkeyed : f.event.client = name := hkeyed
      rwa [hkeyed] at hin
  refine rowExact_of_booked (fun id hin f hf => (hmember id f hf hin).2) fun c => ?_
  rw [hcount c, hadded]
  by_cases hc : c = .active
  -- the log's row has its live flows in another field
  · have hzero : base.count c = 0 := by rw [hc]; exact hactive
    rw [hzero, zero_add, ← Finset.sum_add_distrib, hc]
    refine Finset.sum_congr rfl fun id _ => ?_
    unfold sharesOf
    cases t.log.flows.get? id with
    | none => rfl
    | some f => cases hlive : f.live <;> simp [FlowLog.stored_active, liveShare, hlive]
  · have hstored : base.count c = base.stored c := by
      cases c
      case active => exact absurd rfl hc
      all_goals rfl
    have hshare : ∀ e, liveShare 1 e c = liveShare 0 e c := by
      intro e
      cases c
      case active => exact absurd rfl hc
      all_goals rfl
    simp only [hshare]
    rw [hstored, h.clients.booked name base hname c]

theorem accounting_exact {instanceName transport : Text} {t : Traced}
    (hreaches : Reaches Traced.step servedInOrder (.init instanceName transport) t)
    (selected : Text)
    (hnames : selected = [] ∨
      ∀ id f, t.log.flows.get? id = some f → '\x00' ∉ f.event.client) (now : Int) :
    AnswerExact t (t.log.status selected now) := by
  have h := Accounted.of_reaches hreaches
  refine ⟨fun row hrow => h.sessions_exact hnames now hrow,
    fun row hrow => h.clients_exact selected now hrow, ?_, ?_⟩
  · intro id f hf hin hclient
    exact (h.sessions.entered id f hf).mpr ⟨hclient, hin⟩
  · intro id f hf hlive
    exact ⟨h.clients.kept id f hf hlive, h.sessions.kept id f hf hlive⟩

def openFlow (id : Nat) (up down : Int) : List FlowStep :=
  [.begin 1, .identify id "alice".toList false "profile".toList,
    .describe id "TCP".toList "nas:443".toList true, .connected id ([], []) 1, .add id up down]

def twoFlows : List FlowStep :=
  openFlow 1 10 20 ++ openFlow 2 30 40 ++ [.finish 1, .finish 1, .settle 1 ([], []) 2]

def twoFlowsFacts (t : Traced) : List (Int × Int × Int) :=
  (t.log.status "alice".toList 3).sessions.map fun row => (row.active, row.accepted, row.bytesUp)

theorem two_flows_accounting_exact :
    ∃ t, runSteps Traced.step (.init "r".toList "http2".toList) twoFlows = some t ∧
      twoFlowsFacts t = [(1, 2, 40)] ∧ AnswerExact t (t.log.status "alice".toList 3) := by
  have hrun : (runSteps Traced.step (.init "r".toList "http2".toList) twoFlows).map
      (fun t => (twoFlowsFacts t, t.log.flows.values.all fun f => '\x00' ∉ f.event.client)) =
        some ([(1, 2, 40)], true) := by
    decide
  have hallowed : AllowedRun Traced.step servedInOrder (.init "r".toList "http2".toList)
      twoFlows := by
    decide
  obtain ⟨t, ht, hfacts⟩ := Option.map_eq_some_iff.mp hrun
  rw [Prod.mk.injEq] at hfacts
  refine ⟨t, ht, hfacts.1, accounting_exact (.of_runSteps ht hallowed) _ (.inr ?_) 3⟩
  intro id f hf
  have hmem : f ∈ t.log.flows.values := (Dict.mem_values_iff _).mpr ⟨id, hf⟩
  exact of_decide_eq_true (List.all_eq_true.mp hfacts.2 f hmem)

end Status

end OpenvpnServer.Relay
