import Mathlib.Data.List.Pairwise
import OpenvpnServer.Accounts.ShareLink

namespace OpenvpnServer.Accounts

open OpenvpnServer.Lib

variable {i : Nat} {phase : LinkPhase} {hash : Text} {label : ShareStep} {row : ShareToken}

def LinkPhase.spentHash : LinkPhase → Option Text
  | .spent hash _ _ => some hash
  | .answered (.profile hash _ _) => some hash
  | _ => none

namespace ShareState

variable {s s' : ShareState}

section Steps

structure Spends (s s' : ShareState) (i : Nat) (event : LinkEvent) : Prop where
  unused : ∃ row, s.tokens.get? event.hash = some row ∧ row.usedAt = none ∧
    s'.tokens = s.tokens.set event.hash { row with usedAt := some event.ts }
  events : s'.events = s.events ++ [event]
  recorded : s'.recorded = s.recorded ++ [event]
  request : event.request = i
  requests : ∃ name content, s'.requests = s.requests.set i (.spent event.hash name content)

structure Moves (s s' : ShareState) (i : Nat) : Prop where
  tokens : s'.tokens = s.tokens
  recorded : s'.recorded = s.recorded
  requests : ∃ phase phase', s.requests[i]? = some phase ∧ s'.requests = s.requests.set i phase' ∧
    ∀ hash, phase'.spentHash = some hash → phase.spentHash = some hash

theorem moves_put {phase' : LinkPhase} (hi : s.requests[i]? = some phase)
    (h : ∀ hash, phase'.spentHash = some hash → phase.spentHash = some hash) :
    Moves s (s.put i phase') i := ⟨rfl, rfl, phase, phase', hi, rfl, h⟩

theorem moves_refuse (hi : s.requests[i]? = some phase)
    (error : HttpError) : Moves s (s.refuse i error) i := by
  apply moves_put hi
  intro hash hspent
  cases hspent

theorem spend_cases {ip name content : Text} {now : Nat}
    (hi : s.requests[i]? = some (.built hash ip name content)) :
    Moves s (s.spend i hash ip name content now) i ∨
      ∃ event, Spends s (s.spend i hash ip name content now) i event := by
  unfold spend
  split
  · rename_i row hrow
    split
    · rename_i hunused
      exact .inr ⟨⟨now, name, ip, hash, i⟩, ⟨row, hrow, hunused, rfl⟩, rfl, rfl, rfl,
        name, content, rfl⟩
    · exact .inl (moves_refuse hi _)
  · exact .inl (moves_refuse hi _)

theorem advance_cases {env : StepEnv}
    (hi : s.requests[i]? = some phase) (h : s.advance i env phase = some s') :
    Moves s s' i ∨ ∃ event, Spends s s' i event := by
  have hput (phase' : LinkPhase)
      (hspent : ∀ hash, phase'.spentHash = some hash → phase.spentHash = some hash)
      (heq : some (s.put i phase') = some s') : Moves s s' i ∨ ∃ event, Spends s s' i event := by
    cases heq
    exact .inl (moves_put hi hspent)
  have hrefuse (error : HttpError) (heq : some (s.refuse i error) = some s') :
      Moves s s' i ∨ ∃ event, Spends s s' i event := by
    cases heq
    exact .inl (moves_refuse hi error)
  cases phase with
  | arrived kind hash ip =>
      simp only [advance] at h
      split at h
      · exact hrefuse _ h
      · exact hput _ (fun _ hs => by cases hs) h
  | attempted kind hash ip =>
      simp only [advance] at h
      split at h
      · split at h
        · exact hput _ (fun _ hs => by cases hs) h
        · exact hrefuse _ h
      · exact hrefuse _ h
  | found kind hash ip name =>
      simp only [advance] at h
      split at h
      · cases kind with
        | page => exact hput _ (fun _ hs => by cases hs) h
        | download => exact hput _ (fun _ hs => by cases hs) h
      · exact hrefuse _ h
  | admitted hash ip name =>
      simp only [advance] at h
      split at h
      · exact hput _ (fun _ hs => by cases hs) h
      · exact hrefuse _ h
  | built hash ip name content =>
      cases h
      exact spend_cases hi
  | spent hash name content => exact hput (.answered (.profile hash name content)) (fun _ hs => hs) h
  | answered answer => cases h

theorem step_cases (h : s.step label = some s') :
    (∃ phase : LinkPhase, phase.spentHash = none ∧ s' = s.add phase) ∨
    (∃ i env, label = .next i env ∧ (Moves s s' i ∨ ∃ event, Spends s s' i event)) ∨
    (s'.requests = s.requests ∧ s'.recorded = s.recorded ∧
      ∃ kept : ShareToken → Bool, s'.tokens = s.tokens.filter (fun _ row => kept row) ∧
        ∀ row, kept row = false → label = .dropLinks row.clientName ∨
          ∃ now, label = .rollup now ∧ row.expiresAt < now) := by
  cases label with
  | view hash ip =>
      cases h
      exact .inl ⟨_, rfl, rfl⟩
  | download hash ip =>
      cases h
      exact .inl ⟨_, rfl, rfl⟩
  | next i env =>
      refine .inr (.inl ⟨i, env, rfl, ?_⟩)
      simp only [step] at h
      split at h
      · exact advance_cases ‹_› h
      · cases h
  | issue name =>
      cases h
      refine .inr (.inr ⟨rfl, rfl, fun _ => true, ?_, fun _ hk => by cases hk⟩)
      simp [Dict.filter]
  | unissue name =>
      cases h
      refine .inr (.inr ⟨rfl, rfl, fun _ => true, ?_, fun _ hk => by cases hk⟩)
      simp [Dict.filter]
  | dropLinks name =>
      cases h
      refine .inr (.inr ⟨rfl, rfl, fun row => row.clientName ≠ name, rfl, fun row hk => .inl ?_⟩)
      simp only [ne_eq, decide_not, Bool.not_eq_false', decide_eq_true_eq] at hk
      rw [hk]
  | rollup now =>
      cases h
      refine .inr (.inr ⟨rfl, rfl, fun row => now ≤ row.expiresAt, rfl,
        fun row hk => .inr ⟨now, rfl, ?_⟩⟩)
      simpa using hk

end Steps

section Invariant

structure Accounted (s : ShareState) : Prop where
  used : ∀ event ∈ s.recorded, ∀ row, s.tokens.get? event.hash = some row → row.usedAt ≠ none
  once : s.recorded.Pairwise fun a b => a.hash ≠ b.hash
  owned : ∀ i phase hash, s.requests[i]? = some phase → phase.spentHash = some hash →
    ∃ event ∈ s.recorded, event.hash = hash ∧ event.request = i

theorem accounted_add (h : Accounted s) (hphase : phase.spentHash = none) :
    Accounted (s.add phase) := by
  refine ⟨h.used, h.once, fun i p hash hp hspent => ?_⟩
  by_cases hi : i < s.requests.length
  · rw [add, List.getElem?_append_left hi] at hp
    exact h.owned i p hash hp hspent
  · rw [add, List.getElem?_append_right (Nat.le_of_not_lt hi), List.getElem?_singleton] at hp
    split at hp
    · cases hp
      rw [hphase] at hspent
      cases hspent
    · cases hp

theorem accounted_moves (h : Accounted s) (hm : Moves s s' i) : Accounted s' := by
  obtain ⟨phase, phase', hi, hrequests, hspent⟩ := hm.requests
  refine ⟨?_, ?_, fun j p hash hp hhash => ?_⟩
  · rw [hm.tokens, hm.recorded]
    exact h.used
  · rw [hm.recorded]
    exact h.once
  · rw [hm.recorded]
    rw [hrequests, List.getElem?_set] at hp
    split at hp
    · rename_i hij
      subst hij
      split at hp
      · cases hp
        exact h.owned i phase hash hi (hspent hash hhash)
      · cases hp
    · exact h.owned j p hash hp hhash

theorem accounted_spends (h : Accounted s) {event : LinkEvent}
    (hs : Spends s s' i event) : Accounted s' := by
  obtain ⟨row, hrow, hunused, htokens⟩ := hs.unused
  obtain ⟨name, content, hrequests⟩ := hs.requests
  have hnew (e : LinkEvent) (he : e ∈ s.recorded) : e.hash ≠ event.hash := by
    intro hsame
    exact h.used e he row (hsame ▸ hrow) hunused
  refine ⟨?_, ?_, ?_⟩
  · intro e he r hr
    rw [htokens] at hr
    rcases Dict.get?_set_cases hr with ⟨-, rfl⟩ | ⟨hne, hr⟩
    · exact Option.some_ne_none _
    · rw [hs.recorded, List.mem_append, List.mem_singleton] at he
      rcases he with he | rfl
      · exact h.used e he r hr
      · exact absurd rfl hne
  · rw [hs.recorded, List.pairwise_append]
    refine ⟨h.once, List.pairwise_singleton _ _, fun a ha b hb => ?_⟩
    rw [List.mem_singleton.mp hb]
    exact hnew a ha
  · intro j p hash hp hhash
    rw [hs.recorded]
    rw [hrequests, List.getElem?_set] at hp
    split at hp
    · rename_i hij
      split at hp
      · cases hp
        refine ⟨event, by simp, Option.some.inj hhash, ?_⟩
        rw [hs.request, hij]
      · cases hp
    · obtain ⟨e, he, hown⟩ := h.owned j p hash hp hhash
      exact ⟨e, List.mem_append_left _ he, hown⟩

theorem accounted_step (h : Accounted s) (hstep : s.step label = some s') :
    Accounted s' := by
  rcases step_cases hstep with ⟨phase, hphase, rfl⟩ | ⟨i, env, -, hm | ⟨event, hs⟩⟩ |
    ⟨hrequests, hrecorded, kept, htokens, -⟩
  · exact accounted_add h hphase
  · exact accounted_moves h hm
  · exact accounted_spends h hs
  · refine ⟨?_, by rw [hrecorded]; exact h.once, by rw [hrequests, hrecorded]; exact h.owned⟩
    intro e he row hrow
    rw [hrecorded] at he
    rw [htokens, Dict.get?_filter, Option.filter_eq_some_iff] at hrow
    exact h.used e he row hrow.1

end Invariant

section Usable

def LeavesLink (row : ShareToken) (_ : ShareState) : ShareStep → Prop
  | .dropLinks name => name ≠ row.clientName
  | .rollup now => now ≤ row.expiresAt
  | _ => True

theorem link_kept
    (h : s.tokens.get? hash = some row ∨ ∃ event ∈ s.recorded, event.hash = hash)
    (hallowed : LeavesLink row s label) (hstep : s.step label = some s') :
    s'.tokens.get? hash = some row ∨ ∃ event ∈ s'.recorded, event.hash = hash := by
  rcases step_cases hstep with ⟨phase, -, rfl⟩ | ⟨i, env, -, hm | ⟨event, hs⟩⟩ |
    ⟨-, hrecorded, kept, htokens, hkept⟩
  · exact h
  · rw [hm.tokens, hm.recorded]
    exact h
  · obtain ⟨old, -, -, htokens⟩ := hs.unused
    rw [hs.recorded, htokens]
    by_cases hhash : hash = event.hash
    · exact .inr ⟨event, by simp, hhash.symm⟩
    · rw [Dict.get?_set_ne _ _ hhash]
      refine h.imp_right ?_
      rintro ⟨e, he, hown⟩
      exact ⟨e, List.mem_append_left _ he, hown⟩
  · rw [hrecorded, htokens]
    refine h.imp_left fun hrow => ?_
    rw [Dict.get?_filter, Option.filter_eq_some_iff]
    refine ⟨hrow, ?_⟩
    by_contra hdropped
    rcases hkept row (Bool.eq_false_iff.mpr hdropped) with rfl | ⟨now, rfl, hexpired⟩
    · exact hallowed rfl
    · exact absurd hallowed (Nat.not_le.mpr hexpired)

theorem getElem?_add (s : ShareState) (phase : LinkPhase) :
    (s.add phase).requests[s.requests.length]? = some phase := by
  rw [add, List.getElem?_append_right (Nat.le_refl _), Nat.sub_self, List.getElem?_cons_zero]

theorem put_add (s : ShareState) (phase phase' : LinkPhase) :
    (s.add phase).put s.requests.length phase' = s.add phase' := by
  simp [add, put]

theorem step_next_add {env : StepEnv}
    (h : (s.add phase).advance s.requests.length env phase = some s') :
    (s.add phase).step (.next s.requests.length env) = some s' := by
  simp only [step, getElem?_add]
  exact h

theorem spend_add (ip name content : Text) (now : Nat)
    (hrow : s.tokens.get? hash = some row) (hunused : row.usedAt = none) (phase : LinkPhase) :
    ∃ t : ShareState, t.requests = s.requests ∧
      (s.add phase).spend s.requests.length hash ip name content now =
        t.add (.spent hash name content) := by
  refine ⟨{ s with
    tokens := s.tokens.set hash { row with usedAt := some now }
    events := s.events ++ [⟨now, name, ip, hash, s.requests.length⟩]
    recorded := s.recorded ++ [⟨now, name, ip, hash, s.requests.length⟩] }, rfl, ?_⟩
  simp [spend, add, put, hrow, hunused]

def downloadAlone (i : Nat) (hash ip content : Text) (now : Nat) : List ShareStep :=
  .download hash ip :: List.replicate 6 (.next i ⟨0, now, .ok content⟩)

theorem download_alone (hrow : s.tokens.get? hash = some row)
    (hunused : row.usedAt = none) (hissued : row.clientName ∈ s.issued) {now : Nat}
    (hnow : now < row.expiresAt) (ip content : Text) :
    ∃ s', runSteps step s (downloadAlone s.requests.length hash ip content now) = some s' ∧
      s'.requests[s.requests.length]? =
        some (.answered (.profile hash row.clientName content)) := by
  let n := s.requests.length
  let env : StepEnv := ⟨0, now, .ok content⟩
  have harrived : (s.add (.arrived .download hash ip)).step (.next n env) =
      some (s.add (.attempted .download hash ip)) := by
    apply step_next_add
    simp [advance, env, put_add]
  have hattempted : (s.add (.attempted .download hash ip)).step (.next n env) =
      some (s.add (.found .download hash ip row.clientName)) := by
    apply step_next_add
    have hget : (s.add (.attempted .download hash ip)).tokens.get? hash = some row := hrow
    simp [advance, env, put_add, hget, hunused, hnow]
  have hfound : (s.add (.found .download hash ip row.clientName)).step (.next n env) =
      some (s.add (.admitted hash ip row.clientName)) := by
    apply step_next_add
    have hmem : row.clientName ∈ (s.add (.found .download hash ip row.clientName)).issued := hissued
    simp [advance, put_add, hmem]
  have hadmitted : (s.add (.admitted hash ip row.clientName)).step (.next n env) =
      some (s.add (.built hash ip row.clientName content)) := by
    apply step_next_add
    simp [advance, env, put_add]
  obtain ⟨t, hlength, hspend⟩ := spend_add ip row.clientName content now hrow hunused
    (.built hash ip row.clientName content)
  have hbuilt : (s.add (.built hash ip row.clientName content)).step (.next n env) =
      some (t.add (.spent hash row.clientName content)) := by
    apply step_next_add
    rw [← hspend]
    rfl
  have hspent : (t.add (.spent hash row.clientName content)).step (.next n env) =
      some (t.add (.answered (.profile hash row.clientName content))) := by
    have hn : n = t.requests.length := by rw [hlength]
    rw [hn]
    apply step_next_add
    simp [advance, put_add]
  refine ⟨t.add (.answered (.profile hash row.clientName content)), ?_, ?_⟩
  · simp only [downloadAlone, List.replicate, runSteps]
    have hdownload : s.step (.download hash ip) = some (s.add (.arrived .download hash ip)) := rfl
    rw [hdownload]
    simp only [n, env] at harrived hattempted hfound hadmitted hbuilt hspent
    simp only [harrived, hattempted, hfound, hadmitted, hbuilt, hspent]
  · rw [← hlength]
    exact getElem?_add _ _

end Usable

section SingleUse

variable {start : ShareState} {hash : Text}

theorem Accounted.eq_of_hash (h : Accounted s) {a b : LinkEvent} (ha : a ∈ s.recorded)
    (hb : b ∈ s.recorded) (hsame : a.hash = b.hash) : a = b := by
  have hsymm : Std.Symm fun a b : LinkEvent => a.hash ≠ b.hash := ⟨fun _ _ hab => Ne.symm hab⟩
  by_contra hne
  exact h.once.forall ha hb hne hsame

theorem Accounted.length_filter_le (h : Accounted s) (hash : Text) :
    (s.recorded.filter fun event => event.hash = hash).length ≤ 1 := by
  have hpairwise := h.once.sublist
    (List.filter_sublist (p := fun event : LinkEvent => decide (event.hash = hash)))
  have hall (event : LinkEvent)
      (he : event ∈ s.recorded.filter fun event => event.hash = hash) : event.hash = hash := by
    simpa using (List.mem_filter.mp he).2
  match hlist : s.recorded.filter fun event => event.hash = hash with
  | [] =>
      rw [hlist]
      exact Nat.zero_le 1
  | [_] =>
      rw [hlist]
      exact Nat.le_refl 1
  | a :: b :: rest =>
      rw [hlist] at hpairwise hall
      have hne := (List.pairwise_cons.mp hpairwise).1 b (by simp)
      rw [hall a (by simp), hall b (by simp)] at hne
      exact absurd rfl hne

theorem link_of_reaches (hrow : start.tokens.get? hash = some row)
    (hr : Reaches step (LeavesLink row) start s)
    (hunspent : ∀ event ∈ s.recorded, event.hash ≠ hash) : s.tokens.get? hash = some row := by
  have hkept : s.tokens.get? hash = some row ∨ ∃ event ∈ s.recorded, event.hash = hash :=
    hr.invariant (fun _ _ _ hbefore hallowed hstep => link_kept hbefore hallowed hstep)
      (.inl hrow)
  refine hkept.resolve_right ?_
  rintro ⟨event, he, hown⟩
  exact hunspent event he hown

theorem share_link_single_use (hrequests : start.requests = []) (hrecorded : start.recorded = [])
    (hr : Reaches step (fun _ _ => True) start s) (hash : Text) :
    (∀ (i j : Nat) (a b x y : Text), s.requests[i]? = some (.answered (.profile hash a x)) →
      s.requests[j]? = some (.answered (.profile hash b y)) → i = j) ∧
    (∀ (i : Nat) (a x : Text), s.requests[i]? = some (.answered (.profile hash a x)) →
      ∃ event ∈ s.recorded, event.hash = hash ∧ event.request = i) ∧
    (s.recorded.filter fun event => event.hash = hash).length ≤ 1 ∧
    (∀ label s', s.step label = some s' → s'.recorded = s.recorded ∨
      ∃ i env event, label = .next i env ∧ Spends s s' i event) ∧
    ∀ row, start.tokens.get? hash = some row → row.usedAt = none →
      Reaches step (LeavesLink row) start s → (∀ event ∈ s.recorded, event.hash ≠ hash) →
      s.tokens.get? hash = some row ∧
        ∀ now ip content, now < row.expiresAt → row.clientName ∈ s.issued →
          ∃ s', runSteps step s (downloadAlone s.requests.length hash ip content now) = some s' ∧
            s'.requests[s.requests.length]? =
              some (.answered (.profile hash row.clientName content)) := by
  have hstart : Accounted start := by
    refine ⟨?_, ?_, ?_⟩
    · intro event he
      rw [hrecorded] at he
      cases he
    · rw [hrecorded]
      exact .nil
    · intro i phase hash hphase
      rw [hrequests] at hphase
      cases hphase
  have h : Accounted s :=
    hr.invariant (fun _ _ _ hbefore _ hstep => accounted_step hbefore hstep) hstart
  refine ⟨?_, ?_, h.length_filter_le hash, ?_, ?_⟩
  · intro i j a b x y hi hj
    obtain ⟨e, he, hhash, hei⟩ := h.owned i _ hash hi rfl
    obtain ⟨e', he', hhash', hej⟩ := h.owned j _ hash hj rfl
    rw [← hei, ← hej, h.eq_of_hash he he' (hhash.trans hhash'.symm)]
  · intro i a x hi
    exact h.owned i _ hash hi rfl
  · intro label s' hstep
    rcases step_cases hstep with ⟨phase, -, rfl⟩ | ⟨i, env, hlabel, hm | ⟨event, hs⟩⟩ |
      ⟨-, hsame, -⟩
    · exact .inl rfl
    · exact .inl hm.recorded
    · exact .inr ⟨i, env, event, hlabel, hs⟩
    · exact .inl hsame
  · intro row hrow hunused hr' hunspent
    have hkept := link_of_reaches hrow hr' hunspent
    exact ⟨hkept, fun now ip content hnow hissued =>
      download_alone hkept hunused hissued hnow ip content⟩

theorem two_downloads_single_use :
    let start : ShareState := ⟨Dict.empty.set ['h'] ⟨['a'], 0, 7200, none, []⟩, [], [['a']], [], []⟩
    ∃ s, Reaches step (fun _ _ => True) start s ∧
      s.requests[3]? = some (.answered (.profile ['h'] ['a'] "profile".toList)) ∧
      s.requests[2]? = some (.answered (.refused linkInvalid)) ∧
      (s.recorded.filter fun event => event.hash = ['h']).length ≤ 1 := by
  intro start
  let env : StepEnv := ⟨0, 100, .ok "profile".toList⟩
  have hread : (runSteps step start
      [.view ['h'] [], .next 0 env, .next 0 env, .next 0 env, .download ['h'] [], .next 1 env,
        .next 1 env, .next 1 env, .next 1 ⟨0, 100, .error ⟨400, []⟩⟩, .download ['h'] [],
        .download ['h'] [], .next 2 env, .next 3 env, .next 2 env, .next 3 env, .next 2 env,
        .next 3 env, .next 2 env, .next 3 env, .next 3 env, .next 2 env, .rollup 200,
        .next 3 env]).map (fun s => (s.requests[3]?, s.requests[2]?)) =
      some (some (.answered (.profile ['h'] ['a'] "profile".toList)),
        some (.answered (.refused linkInvalid))) := by decide
  obtain ⟨s, hrun, hfacts⟩ := Option.map_eq_some_iff.mp hread
  obtain ⟨hprofile, hrefused⟩ := Prod.mk.inj hfacts
  have hr : Reaches step (fun _ _ => True) start s :=
    Reaches.of_runSteps hrun (AllowedRun.of_runSteps hrun)
  exact ⟨s, hr, hprofile, hrefused, (share_link_single_use rfl rfl hr ['h']).2.2.1⟩

end SingleUse

end ShareState

end OpenvpnServer.Accounts
