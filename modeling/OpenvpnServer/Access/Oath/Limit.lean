import Mathlib.Data.List.Chain
import Mathlib.Data.List.Infix
import OpenvpnServer.Access.Oath.Theorems
import OpenvpnServer.Lib.Ipaddress.Lemmas

-- The limit on wrong codes, over runs of the script for any clients.
namespace OpenvpnServer.Oath

open OpenvpnServer.Lib OpenvpnServer.Lib.Ipaddress

section Machine

variable (hotp : Text → Nat → Nat)

structure Run where
  attempt : Attempt
  secrets : Option (Text → Text)

structure CheckEvent where
  user : Text
  time : Nat
  accepted : Bool
  deriving DecidableEq, Repr

structure LimitState where
  oath : OathState
  events : List CheckEvent

def LimitState.start (files : Dict Text Files) : LimitState := ⟨.start files, []⟩

def LimitState.verdict (s : LimitState) (run : Run) : Except Reason Unit :=
  (verify hotp run.secrets (s.oath.filesOf run.attempt.user) run.attempt).1

def eventOf (attempt : Attempt) : Except Reason Unit → List CheckEvent
  | .ok () => [⟨attempt.user, attempt.now, true⟩]
  | .error .wrongCode => [⟨attempt.user, attempt.now, false⟩]
  | .error _ => []

def LimitState.step (s : LimitState) (run : Run) : Option LimitState :=
  (s.oath.step hotp run.secrets run.attempt).map fun oath =>
    ⟨oath, s.events ++ eventOf run.attempt (s.verdict hotp run)⟩

def eventsOf (s : LimitState) (user : Text) : List CheckEvent :=
  s.events.filter fun event => event.user = user

-- Failed checks one after another, each within 300 seconds of the one before.
structure Burst (events : List CheckEvent) : Prop where
  failed : ∀ event ∈ events, event.accepted = false
  close : events.IsChain fun a b => b.time < a.time + 300

end Machine

section Files

variable {hotp : Text → Nat → Nat} {secrets : Option (Text → Text)}

theorem checkCode_fail {files files' : Files} {secret code : Text} {now : Nat}
    {verdict : Except Reason Unit} (h : checkCode hotp files secret code now = (verdict, files')) :
    (verdict = .ok () ∧ files'.fail = none) ∨
      (verdict = .error .wrongCode ∧ wrongCodes files.fail now < 5 ∧
        files'.fail = some (decimal (wrongCodes files.fail now + 1), decimal now)) ∨
      (∃ reason, verdict = .error reason ∧ reason ≠ .wrongCode ∧ files' = files ∧
        (reason = .tooManyWrongCodes → 5 ≤ wrongCodes files.fail now)) := by
  unfold checkCode at h
  simp only at h
  split at h
  · rename_i hmany
    cases h
    exact .inr (.inr ⟨_, rfl, by decide, rfl, fun _ => hmany⟩)
  · rename_i hfew
    split at h
    · cases h
      exact .inr (.inl ⟨rfl, by omega, rfl⟩)
    · split at h
      · cases h
        exact .inr (.inr ⟨_, rfl, by decide, rfl, fun heq => by cases heq⟩)
      · cases h
        exact .inl ⟨rfl, rfl⟩

theorem verify_fail {files files' : Files} {attempt : Attempt} {verdict : Except Reason Unit}
    (h : verify hotp secrets files attempt = (verdict, files')) :
    (verdict = .ok () ∧ files'.fail = none) ∨
      (verdict = .error .wrongCode ∧ wrongCodes files.fail attempt.now < 5 ∧
        files'.fail = some (decimal (wrongCodes files.fail attempt.now + 1),
          decimal attempt.now)) ∨
      (∃ reason, verdict = .error reason ∧ reason ≠ .wrongCode ∧ files' = files ∧
        (reason = .tooManyWrongCodes → 5 ≤ wrongCodes files.fail attempt.now)) := by
  have hother (reason : Reason) (hwrong : reason ≠ .wrongCode)
      (hmany : reason ≠ .tooManyWrongCodes) (heq : (.error reason, files) = (verdict, files')) :
      ∃ reason, verdict = .error reason ∧ reason ≠ .wrongCode ∧ files' = files ∧
        (reason = .tooManyWrongCodes → 5 ≤ wrongCodes files.fail attempt.now) := by
    cases heq
    exact ⟨reason, rfl, hwrong, rfl, fun hsame => absurd hsame hmany⟩
  unfold verify at h
  split at h
  · exact .inr (.inr (hother _ (by decide) (by decide) h))
  · split at h
    · exact .inr (.inr (hother _ (by decide) (by decide) h))
    · split at h
      · exact .inr (.inr (hother _ (by decide) (by decide) h))
      · cases secrets with
        | none => exact .inr (.inr (hother _ (by decide) (by decide) h))
        | some secret =>
            simp only at h
            split at h
            · exact .inr (.inr (hother _ (by decide) (by decide) h))
            · exact checkCode_fail h

theorem wrongCodes_decimal (fails last now : Nat) :
    wrongCodes (some (decimal fails, decimal last)) now = if last + 300 ≤ now then 0 else fails := by
  simp only [wrongCodes, decimal?_decimal]

theorem oath_step_spec {s s' : OathState} {attempt : Attempt}
    (h : s.step hotp secrets attempt = some s') :
    s.now ≤ attempt.now ∧ ∀ user, s'.filesOf user =
      if user = attempt.user then (verify hotp secrets (s.filesOf attempt.user) attempt).2
      else s.filesOf user := by
  unfold OathState.step at h
  split at h
  · cases h
  · rename_i hnow
    refine ⟨by omega, fun user => ?_⟩
    split at h
    · rename_i files hverify
      cases h
      rw [filesOf_set, hverify]
    · rename_i reason files hverify
      cases h
      rw [filesOf_set, hverify]

theorem limit_step_spec {s s' : LimitState} {run : Run} (h : s.step hotp run = some s') :
    s'.events = s.events ++ eventOf run.attempt (s.verdict hotp run) ∧
      ∀ user, s'.oath.filesOf user =
        if user = run.attempt.user then
          (verify hotp run.secrets (s.oath.filesOf run.attempt.user) run.attempt).2
        else s.oath.filesOf user := by
  obtain ⟨oath, hoath, rfl⟩ := Option.map_eq_some_iff.mp h
  exact ⟨rfl, (oath_step_spec hoath).2⟩

end Files

section Counting

-- The count in the file covers every burst that ends at the last event.
structure Counted (fail : Option (Text × Text)) (events : List CheckEvent) : Prop where
  reset : ∀ event, events.getLast? = some event → event.accepted = true → fail = none
  last : ∀ event, events.getLast? = some event → event.accepted = false →
    ∃ count, fail = some (decimal count, decimal event.time) ∧ count ≤ 5 ∧
      ∀ burst, burst <:+ events → Burst burst → burst.length ≤ count
  short : ∀ burst, burst <:+: events → Burst burst → burst.length ≤ 5

variable {fail : Option (Text × Text)} {events : List CheckEvent} {user : Text} {now : Nat}

theorem counted_nil : Counted fail [] where
  reset := fun event h => by cases h
  last := fun event h => by cases h
  short := by
    intro burst hburst _
    rw [List.infix_nil.mp hburst]
    exact Nat.zero_le _

theorem Burst.of_concat {burst : List CheckEvent} {event : CheckEvent}
    (h : Burst (burst ++ [event])) :
    Burst burst ∧ ∀ last, burst.getLast? = some last → event.time < last.time + 300 := by
  have hclose := List.isChain_append.mp h.close
  refine ⟨⟨fun other hother => h.failed other (List.mem_append_left _ hother), hclose.1⟩, ?_⟩
  intro last hlast
  exact hclose.2.2 last hlast event rfl

theorem Counted.accept (h : Counted fail events) :
    Counted none (events ++ [⟨user, now, true⟩]) where
  reset := fun _ _ _ => rfl
  last := by
    intro event hlast hfailed
    rw [List.getLast?_concat] at hlast
    cases hlast
    cases hfailed
  short := by
    intro burst hburst hb
    rcases List.infix_concat_iff.mp hburst with hsuffix | hinfix
    · rcases List.suffix_concat_iff.mp hsuffix with rfl | ⟨front, rfl, -⟩
      · exact Nat.zero_le _
      · have haccepted := hb.failed ⟨user, now, true⟩ (by simp)
        cases haccepted
    · exact h.short burst hinfix hb

theorem Counted.wrong (h : Counted fail events) (hfew : wrongCodes fail now < 5) :
    Counted (some (decimal (wrongCodes fail now + 1), decimal now))
      (events ++ [⟨user, now, false⟩]) := by
  -- a burst up to this check is one up to the last, whose count was not reset
  have hburst (front : List CheckEvent) (hfront : front <:+ events)
      (hb : Burst (front ++ [⟨user, now, false⟩])) : front.length ≤ wrongCodes fail now := by
    cases hlast : front.getLast? with
    | none =>
        rw [List.getLast?_eq_none_iff.mp hlast]
        exact Nat.zero_le _
    | some last =>
        obtain ⟨hb', hclose⟩ := hb.of_concat
        have hevents : events.getLast? = some last := by
          obtain ⟨before, rfl⟩ := hfront
          rw [List.getLast?_append, hlast]
          rfl
        obtain ⟨count, rfl, -, hcount⟩ :=
          h.last last hevents (hb'.failed last (List.mem_of_getLast? hlast))
        have hrecent := hclose last hlast
        rw [wrongCodes_decimal, if_neg (by dsimp only at hrecent; omega)]
        exact hcount front hfront hb'
  have hsuffix (burst : List CheckEvent) (h : burst <:+ events ++ [⟨user, now, false⟩])
      (hb : Burst burst) : burst.length ≤ wrongCodes fail now + 1 := by
    rcases List.suffix_concat_iff.mp h with rfl | ⟨front, rfl, hfront⟩
    · exact Nat.zero_le _
    · have hlength := hburst front hfront hb
      rw [List.length_append, List.length_singleton]
      omega
  refine ⟨?_, ?_, ?_⟩
  · intro event hlast haccepted
    rw [List.getLast?_concat] at hlast
    cases hlast
    cases haccepted
  · intro event hlast _
    rw [List.getLast?_concat] at hlast
    cases hlast
    exact ⟨_, rfl, by omega, hsuffix⟩
  · intro burst hinfix hb
    rcases List.infix_concat_iff.mp hinfix with hend | hbefore
    · have hlength := hsuffix burst hend hb
      omega
    · exact h.short burst hbefore hb

end Counting

section Limit

variable {hotp : Text → Nat → Nat} {s s' : LimitState}

def Limited (s : LimitState) : Prop :=
  ∀ user, Counted (s.oath.filesOf user).fail (eventsOf s user)

theorem eventsOf_concat (s : LimitState) (oath : OathState) (added : List CheckEvent)
    (user : Text) : eventsOf ⟨oath, s.events ++ added⟩ user =
      eventsOf s user ++ added.filter fun event => event.user = user :=
  List.filter_append ..

theorem filter_eventOf_of_ne {attempt : Attempt} (verdict : Except Reason Unit) {user : Text}
    (h : user ≠ attempt.user) :
    (eventOf attempt verdict).filter (fun event => event.user = user) = [] := by
  unfold eventOf
  split <;> simp [Ne.symm h]

theorem Limited.step {run : Run} (h : Limited s) (hs : s.step hotp run = some s') :
    Limited s' := by
  obtain ⟨hevents, hfiles⟩ := limit_step_spec hs
  intro user
  have hconcat : eventsOf s' user = eventsOf s user ++
      (eventOf run.attempt (s.verdict hotp run)).filter fun event => event.user = user := by
    rw [← eventsOf_concat s s'.oath, ← hevents]
  rw [hfiles, hconcat]
  by_cases huser : user = run.attempt.user
  · subst huser
    rw [if_pos rfl]
    have hcounted := h run.attempt.user
    cases hverify : verify hotp run.secrets (s.oath.filesOf run.attempt.user) run.attempt with
    | mk verdict files =>
        have hverdict : s.verdict hotp run = verdict := by
          rw [LimitState.verdict, hverify]
        rw [hverdict]
        rcases verify_fail hverify with ⟨rfl, hfail⟩ | ⟨rfl, hfew, hfail⟩ |
          ⟨reason, rfl, hwrong, rfl, -⟩
        · rw [hfail]
          simpa [eventOf] using hcounted.accept
        · rw [hfail]
          simpa [eventOf] using hcounted.wrong hfew
        · have hnone : eventOf run.attempt (.error reason) = [] := by
            cases reason <;> first | rfl | exact absurd rfl hwrong
          rw [hnone, List.filter_nil, List.append_nil]
          exact hcounted
  · rw [if_neg huser, filter_eventOf_of_ne _ huser, List.append_nil]
    exact h user

theorem Counted.retry {fail : Option (Text × Text)} {events : List CheckEvent}
    (h : Counted fail events) {event : CheckEvent}
    (hlast : (events.filter fun event => !event.accepted).getLast? = some event) {now : Nat}
    (hnow : event.time + 300 ≤ now) : wrongCodes fail now = 0 := by
  have hmem := List.mem_of_getLast? hlast
  cases hend : events.getLast? with
  | none =>
      rw [List.getLast?_eq_none_iff.mp hend] at hmem
      cases hmem
  | some final =>
      cases haccepted : final.accepted with
      | true =>
          rw [h.reset final hend haccepted]
          rfl
      | false =>
          obtain ⟨count, rfl, -, -⟩ := h.last final hend haccepted
          obtain ⟨front, hfront⟩ := List.getLast?_eq_some_iff.mp hend
          have hsame : final = event := by
            rw [hfront, List.filter_append, List.getLast?_append] at hlast
            simpa [haccepted] using hlast
          rw [wrongCodes_decimal, hsame, if_pos hnow]

-- Over any runs: no six failed checks in a row, a refusal for too many of them leaves
-- every file as it is, and 300 seconds after the last failed check there is no refusal.
theorem wrong_codes_limited (hotp : Text → Nat → Nat) {files : Dict Text Files} {s : LimitState}
    (hr : Reaches (LimitState.step hotp) (fun _ _ => True) (.start files) s) :
    (∀ user six, six <:+: eventsOf s user → six.length = 6 → ¬Burst six) ∧
      (∀ run s', s.step hotp run = some s' →
        s.verdict hotp run = .error .tooManyWrongCodes →
        ∀ user, s'.oath.filesOf user = s.oath.filesOf user) ∧
      ∀ run event,
        ((eventsOf s run.attempt.user).filter fun event => !event.accepted).getLast? = some event →
        event.time + 300 ≤ run.attempt.now →
        s.verdict hotp run ≠ .error .tooManyWrongCodes := by
  have hlimited : Limited s := hr.invariant (P := Limited)
    (fun _ _ _ h _ hs => h.step hs) fun _ => counted_nil
  refine ⟨?_, ?_, ?_⟩
  · intro user six hinfix hlength hburst
    have hshort := (hlimited user).short six hinfix hburst
    omega
  · intro run s' hs hverdict user
    rw [(limit_step_spec hs).2]
    cases hverify : verify hotp run.secrets (s.oath.filesOf run.attempt.user) run.attempt with
    | mk verdict files =>
        rw [LimitState.verdict, hverify] at hverdict
        split
        · rename_i huser
          rcases verify_fail hverify with ⟨hok, -⟩ | ⟨hwrong, -⟩ | ⟨reason, -, -, hfiles, -⟩
          · cases hok.symm.trans hverdict
          · cases hwrong.symm.trans hverdict
          · rw [huser]
            exact hfiles
        · rfl
  · intro run event hlast hnow hverdict
    have hnone := (hlimited run.attempt.user).retry hlast hnow
    cases hverify : verify hotp run.secrets (s.oath.filesOf run.attempt.user) run.attempt with
    | mk verdict files =>
        rw [LimitState.verdict, hverify] at hverdict
        rcases verify_fail hverify with ⟨hok, -⟩ | ⟨hwrong, -⟩ | ⟨reason, hreason, -, -, hmany⟩
        · cases hok.symm.trans hverdict
        · cases hwrong.symm.trans hverdict
        · cases hreason.symm.trans hverdict
          have hfive := hmany rfl
          omega

def guessing (now : Nat) : Run := ⟨signingIn "000000" now, sampleSecrets⟩

def sixGuesses : List Run := [60, 61, 62, 63, 64, 200].map guessing

theorem sixth_guess_refused : ∃ s,
    runSteps (LimitState.step sampleHotp) (.start .empty) sixGuesses = some s ∧
      (eventsOf s "alice".toList).length = 5 ∧
      s.verdict sampleHotp (guessing 363) = .error .tooManyWrongCodes ∧
      s.verdict sampleHotp (guessing 364) ≠ .error .tooManyWrongCodes := by
  have hread : ((runSteps (LimitState.step sampleHotp) (.start .empty) sixGuesses).any fun s =>
      decide ((eventsOf s "alice".toList).length = 5) &&
        (decide (s.verdict sampleHotp (guessing 363) = .error .tooManyWrongCodes) &&
        decide (((eventsOf s "alice".toList).filter fun event => !event.accepted).getLast? =
          some ⟨"alice".toList, 64, false⟩))) = true := by
    decide
  obtain ⟨s, hrun, hs⟩ := (Option.any_eq_true _ _).mp hread
  simp only [Bool.and_eq_true, decide_eq_true_eq] at hs
  refine ⟨s, hrun, hs.1, hs.2.1, ?_⟩
  exact (wrong_codes_limited sampleHotp
    (Reaches.of_runSteps hrun (AllowedRun.of_runSteps hrun))).2.2 (guessing 364) _ hs.2.2
    (by decide)

end Limit

end OpenvpnServer.Oath
