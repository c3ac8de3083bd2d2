import OpenvpnServer.Relay.Authorize.Lemmas

namespace OpenvpnServer.Relay

open OpenvpnServer.Lib

section Invariants

variable {κ : Type} [DecidableEq κ] {sha256 : Token → κ} {policyTTL : Nat}
  {unicodeLower : Char → Char} {s s' : AuthState κ}

structure ClockInv (s : AuthState κ) : Prop where
  check_past : ∀ (id : Nat) (check : Check) (f : Stamp), s.checks[id]? = some check →
    check.finished = some f → f.time ≤ s.now ∧ f.turn < s.turns
  caller_past : ∀ (c : Nat) (caller : Caller), s.callers[c]? = some caller →
    caller.entered.time ≤ s.now ∧ caller.entered.turn < s.turns
  ordered : ∀ (id : Nat) (check : Check) (f : Stamp) (c : Nat) (caller : Caller),
    s.checks[id]? = some check → check.finished = some f → s.callers[c]? = some caller →
    f.turn ≠ caller.entered.turn ∧
      (f.turn < caller.entered.turn → f.time ≤ caller.entered.time)

theorem Progress.token_eq {caller caller' : Caller} (h : Progress sha256 s caller caller') :
    caller'.token = caller.token ∧ caller'.entered = caller.entered := by
  cases h <;> exact ⟨rfl, rfl⟩

def FinishedAt (checks : List Check) (f : Stamp) : Prop :=
  ∃ (id : Nat) (check : Check), checks[id]? = some check ∧ check.finished = some f

def EnteredAt (callers : List Caller) (e : Stamp) : Prop :=
  ∃ (c : Nat) (caller : Caller), callers[c]? = some caller ∧ caller.entered = e

theorem FinishedAt.of_concat {checks : List Check} {token : Token} {shared : Bool}
    {starter startedAt : Nat} {f : Stamp}
    (h : FinishedAt (checks ++ [Check.new token shared starter startedAt]) f) :
    FinishedAt checks f := by
  obtain ⟨id, check, hc, hf⟩ := h
  rcases getElem?_concat_cases hc with hold | ⟨_, rfl⟩
  · exact ⟨id, check, hold, hf⟩
  · cases hf

theorem FinishedAt.of_set {checks : List Check} {i : Nat} {new : Check} {f : Stamp}
    (h : FinishedAt (checks.set i new) f) : FinishedAt checks f ∨ new.finished = some f := by
  obtain ⟨id, check, hc, hf⟩ := h
  rcases getElem?_set_cases hc with ⟨_, rfl⟩ | ⟨_, hold⟩
  · exact .inr hf
  · exact .inl ⟨id, check, hold, hf⟩

theorem EnteredAt.of_concat {callers : List Caller} {new : Caller} {e : Stamp}
    (h : EnteredAt (callers ++ [new]) e) : EnteredAt callers e ∨ e = new.entered := by
  obtain ⟨c, caller, hc, he⟩ := h
  rcases getElem?_concat_cases hc with hold | ⟨_, rfl⟩
  · exact .inl ⟨c, caller, hold, he⟩
  · exact .inr he.symm

theorem EnteredAt.of_set {callers : List Caller} {c : Nat} {caller new : Caller} {e : Stamp}
    (h : EnteredAt (callers.set c new) e) (hc : callers[c]? = some caller)
    (hnew : new.entered = caller.entered) : EnteredAt callers e := by
  obtain ⟨d, other, hd, he⟩ := h
  rcases getElem?_set_cases hd with ⟨_, rfl⟩ | ⟨_, hold⟩
  · exact ⟨c, caller, hc, hnew.symm.trans he⟩
  · exact ⟨d, other, hold, he⟩

omit [DecidableEq κ] in
theorem ClockInv.of_stamps (h : ClockInv s) (hnow : s.now ≤ s'.now) (hturns : s'.turns = s.turns + 1)
    (hstamps :
      ((∀ f, FinishedAt s'.checks f → FinishedAt s.checks f ∨ f = ⟨s.now, s.turns⟩) ∧
        ∀ e, EnteredAt s'.callers e → EnteredAt s.callers e) ∨
      ((∀ f, FinishedAt s'.checks f → FinishedAt s.checks f) ∧
        ∀ e, EnteredAt s'.callers e → EnteredAt s.callers e ∨ e = ⟨s.now, s.turns⟩)) :
    ClockInv s' := by
  have hfinished : ∀ f, FinishedAt s.checks f → f.time ≤ s.now ∧ f.turn < s.turns := by
    rintro f ⟨id, check, hc, hf⟩
    exact h.check_past id check f hc hf
  have hentered : ∀ e, EnteredAt s.callers e → e.time ≤ s.now ∧ e.turn < s.turns := by
    rintro _ ⟨c, caller, hc, rfl⟩
    exact h.caller_past c caller hc
  have hordered : ∀ f e, FinishedAt s.checks f → EnteredAt s.callers e →
      f.turn ≠ e.turn ∧ (f.turn < e.turn → f.time ≤ e.time) := by
    rintro f _ ⟨id, check, hc, hf⟩ ⟨c, caller, hcaller, rfl⟩
    exact h.ordered id check f c caller hc hf hcaller
  -- the same three facts after the step
  have hfinished' : ∀ f, FinishedAt s'.checks f → f.time ≤ s'.now ∧ f.turn < s'.turns := by
    intro f hf
    have hcases : FinishedAt s.checks f ∨ f = ⟨s.now, s.turns⟩ := by
      rcases hstamps with ⟨hchecks, _⟩ | ⟨hchecks, _⟩
      · exact hchecks f hf
      · exact .inl (hchecks f hf)
    rcases hcases with hold | rfl
    · have := hfinished f hold
      omega
    · dsimp only
      omega
  have hentered' : ∀ e, EnteredAt s'.callers e → e.time ≤ s'.now ∧ e.turn < s'.turns := by
    intro e he
    have hcases : EnteredAt s.callers e ∨ e = ⟨s.now, s.turns⟩ := by
      rcases hstamps with ⟨_, hcallers⟩ | ⟨_, hcallers⟩
      · exact .inl (hcallers e he)
      · exact hcallers e he
    rcases hcases with hold | rfl
    · have := hentered e hold
      omega
    · dsimp only
      omega
  have hordered' : ∀ f e, FinishedAt s'.checks f → EnteredAt s'.callers e →
      f.turn ≠ e.turn ∧ (f.turn < e.turn → f.time ≤ e.time) := by
    intro f e hf he
    rcases hstamps with ⟨hchecks, hcallers⟩ | ⟨hchecks, hcallers⟩
    · have hpast := hentered e (hcallers e he)
      rcases hchecks f hf with hold | rfl
      · exact hordered f e hold (hcallers e he)
      · dsimp only
        omega
    · have hpast := hfinished f (hchecks f hf)
      rcases hcallers e he with hold | rfl
      · exact hordered f e (hchecks f hf) hold
      · dsimp only
        omega
  refine ⟨?_, ?_, ?_⟩
  · intro id check f hc hf
    exact hfinished' f ⟨id, check, hc, hf⟩
  · intro c caller hc
    exact hentered' _ ⟨c, caller, hc, rfl⟩
  · intro id check f c caller hc hf hcaller
    exact hordered' f _ ⟨id, check, hc, hf⟩ ⟨c, caller, hcaller, rfl⟩

theorem clockInv_move (h : ClockInv s) (hm : Move sha256 policyTTL unicodeLower s s') :
    ClockInv s' := by
  cases hm with
  | enter token =>
      exact h.of_stamps (Nat.le_refl _) rfl (.inr ⟨fun _ hf => hf, fun _ he => he.of_concat⟩)
  | progress c caller caller' hc hp =>
      exact h.of_stamps (Nat.le_refl _) rfl
        (.inl ⟨fun _ hf => .inl hf, fun _ he => he.of_set hc hp.token_eq.2⟩)
  | direct c caller room hc hp hroom =>
      exact h.of_stamps (Nat.le_refl _) rfl
        (.inl ⟨fun _ hf => .inl hf.of_concat, fun _ he => he.of_set hc rfl⟩)
  | shared c caller room hc hp hroom hsize hl =>
      exact h.of_stamps (Nat.le_refl _) rfl
        (.inl ⟨fun _ hf => .inl hf.of_concat, fun _ he => he.of_set hc rfl⟩)
  | backend id check run hc hr =>
      refine h.of_stamps (Nat.le_refl _) rfl (.inl ⟨?_, fun _ he => he⟩)
      intro f hf
      refine hf.of_set.imp_right fun hnew => ?_
      dsimp only at hnew
      split at hnew
      · cases hnew
      · exact (Option.some.inj hnew).symm
  | publish id check result hc hs hr hf =>
      refine h.of_stamps (Nat.le_refl _) rfl (.inl ⟨?_, fun _ he => he⟩)
      intro f hf
      exact hf.of_set.imp_right fun hnew => (Option.some.inj hnew).symm
  | tick duration =>
      exact h.of_stamps (Nat.le_add_right _ _) rfl
        (.inl ⟨fun _ hf => .inl hf, fun _ he => he⟩)

-- What holds of every check by itself: its result is the backend's answer for
-- its own token, and only a published check has an expiry.
structure CheckInv (policyTTL : Nat) (unicodeLower : Char → Char) (check : Check) : Prop where
  produced : ∀ result, check.result = some result →
    ∃ run, authorizeBackend unicodeLower check.token run = result
  finished : check.finished.isSome → check.result.isSome
  expires : ∀ t, check.expires = some t → ∃ f, check.finished = some f ∧ t = f.time + policyTTL
  published : check.shared = true → check.finished.isSome → check.expires.isSome

theorem checkInv_new (token : Token) (shared : Bool) (starter startedAt : Nat) :
    CheckInv policyTTL unicodeLower (Check.new token shared starter startedAt) := by
  constructor <;> simp [Check.new]

theorem checkInv_move
    (h : ∀ (id : Nat) (check : Check), s.checks[id]? = some check →
      CheckInv policyTTL unicodeLower check)
    (hm : Move sha256 policyTTL unicodeLower s s') (id : Nat) (check : Check)
    (hc : s'.checks[id]? = some check) : CheckInv policyTTL unicodeLower check := by
  cases hm with
  | enter token => exact h id check hc
  | progress c caller caller' _ hp => exact h id check hc
  | direct c caller room _ hp hroom =>
      rcases getElem?_concat_cases hc with hold | ⟨_, rfl⟩
      · exact h id check hold
      · exact checkInv_new ..
  | shared c caller room _ hp hroom hsize hl =>
      rcases getElem?_concat_cases hc with hold | ⟨_, rfl⟩
      · exact h id check hold
      · exact checkInv_new ..
  | backend i old run hold hr =>
      rcases getElem?_set_cases hc with ⟨rfl, rfl⟩ | ⟨_, hc⟩
      · obtain ⟨_, hfinished, hexpires, _⟩ := h i old hold
        refine ⟨?_, fun _ => rfl, ?_, ?_⟩
        · rintro _ ⟨⟩
          exact ⟨run, rfl⟩
        · intro t ht
          obtain ⟨f, hf, _⟩ := hexpires t ht
          simp [hf, hr] at hfinished
        · intro (hshared : old.shared = true)
          simp [hshared]
      · exact h id check hc
  | publish i old result hold hs hr hf =>
      rcases getElem?_set_cases hc with ⟨rfl, rfl⟩ | ⟨_, hc⟩
      · refine ⟨(h i old hold).produced, fun _ => by simp [hr], ?_, fun _ _ => rfl⟩
        rintro _ ⟨⟩
        exact ⟨_, rfl, rfl⟩
      · exact h id check hc
  | tick duration => exact h id check hc

-- The map points from a token's key to the one shared check for that token that
-- is in flight or succeeded, and never loses one in flight.
structure CacheInv (sha256 : Token → κ) (s : AuthState κ) : Prop where
  entry : ∀ key id, s.policies.lookup key = some id →
    ∃ check, s.checks[id]? = some check ∧ check.shared = true ∧ sha256 check.token = key ∧
      (check.finished.isSome → ∃ p, check.result = some (.ok p))
  kept : ∀ id check, s.checks[id]? = some check → check.shared = true → check.finished = none →
    s.policies.lookup (sha256 check.token) = some id
  bounded : s.policies.keys.length ≤ maxEntries

theorem lookup_purge (key : κ) (id : Nat) :
    s.purge.lookup key = some id ↔ s.policies.lookup key = some id ∧ s.usable id = true := by
  have h (m : AList fun _ : κ => Nat) : m.lookup key = some id ↔ Sigma.mk key id ∈ m.entries :=
    AList.mem_lookup_iff
  rw [h, h]
  simp [AuthState.purge, List.mem_filter]

omit [DecidableEq κ] in
theorem keys_purge_length : s.purge.keys.length ≤ s.policies.keys.length := by
  simp only [AList.keys, List.keys, List.length_map, AuthState.purge]
  exact List.length_filter_le _ _

theorem keys_insert_length (m : AList fun _ : κ => Nat) (key : κ) (id : Nat) :
    (m.insert key id).keys.length ≤ m.keys.length + 1 := by
  rw [AList.keys_insert, List.length_cons]
  exact Nat.succ_le_succ (List.length_erase_le ..)

theorem lookup_of_keep {m : AList fun _ : κ => Nat} {key other : κ} {id : Nat} {keep : Bool}
    (h : (if keep then m else m.erase other).lookup key = some id) :
    m.lookup key = some id ∧ (key = other → keep = true) := by
  cases keep with
  | true => exact ⟨h, fun _ => rfl⟩
  | false =>
      simp only [Bool.false_eq_true, if_false] at h
      by_cases hk : key = other
      · subst hk
        simp at h
      · rw [AList.lookup_erase_ne hk] at h
        exact ⟨h, fun he => absurd he hk⟩

theorem lookup_keep {m : AList fun _ : κ => Nat} {key other : κ} (hk : key ≠ other) (keep : Bool) :
    (if keep then m else m.erase other).lookup key = m.lookup key := by
  cases keep with
  | true => rfl
  | false => exact AList.lookup_erase_ne hk

theorem keys_keep_length (m : AList fun _ : κ => Nat) (key : κ) (keep : Bool) :
    (if keep then m else m.erase key).keys.length ≤ m.keys.length := by
  cases keep with
  | true => exact Nat.le_refl _
  | false =>
      simp only [Bool.false_eq_true, if_false, AList.keys_erase]
      exact List.length_erase_le ..

theorem lookup_room {room : AList fun _ : κ => Nat} {key : κ} {id : Nat} {check : Check}
    (hroom : room = s.policies ∨ room = s.purge) (hc : s.checks[id]? = some check)
    (he : check.expires = none) (hl : s.policies.lookup key = some id) :
    room.lookup key = some id := by
  rcases hroom with rfl | rfl
  · exact hl
  · rw [lookup_purge]
    refine ⟨hl, ?_⟩
    simp [AuthState.usable, AuthState.expiry, hc, he]

theorem lookup_of_room {room : AList fun _ : κ => Nat} {key : κ} {id : Nat}
    (hroom : room = s.policies ∨ room = s.purge) (hl : room.lookup key = some id) :
    s.policies.lookup key = some id := by
  rcases hroom with rfl | rfl
  · exact hl
  · exact ((lookup_purge key id).mp hl).1

theorem CacheInv.entry_concat (h : CacheInv sha256 s) (new : Check) {key : κ} {id : Nat}
    (hl : s.policies.lookup key = some id) :
    ∃ check, (s.checks ++ [new])[id]? = some check ∧ check.shared = true ∧
      sha256 check.token = key ∧ (check.finished.isSome → ∃ p, check.result = some (.ok p)) := by
  obtain ⟨check, hc, hrest⟩ := h.entry key id hl
  exact ⟨check, getElem?_concat_of_some hc, hrest⟩

theorem CacheInv.entry_set (h : CacheInv sha256 s) {i id : Nat} {old new : Check} {key : κ}
    (hold : s.checks[i]? = some old) (htoken : new.token = old.token)
    (hshared : new.shared = old.shared) (hl : s.policies.lookup key = some id)
    (hok : old.shared = true → sha256 old.token = key → new.finished.isSome →
      ∃ p, new.result = some (.ok p)) :
    ∃ check, (s.checks.set i new)[id]? = some check ∧ check.shared = true ∧
      sha256 check.token = key ∧ (check.finished.isSome → ∃ p, check.result = some (.ok p)) := by
  obtain ⟨check, hc, hsh, hk, hfin⟩ := h.entry key id hl
  by_cases hi : i = id
  · subst hi
    obtain rfl : old = check := Option.some.inj (hold.symm.trans hc)
    refine ⟨new, List.getElem?_set_self (List.getElem?_eq_some_iff.mp hold).1, ?_, ?_, hok hsh hk⟩
    · rw [hshared, hsh]
    · rw [htoken, hk]
  · refine ⟨check, ?_, hsh, hk, hfin⟩
    rw [List.getElem?_set_ne hi]
    exact hc

theorem CheckInv.finished_none {check : Check} (h : CheckInv policyTTL unicodeLower check)
    (hr : check.result = none) : check.finished = none := by
  cases hfin : check.finished with
  | none => rfl
  | some f => simpa [hfin, hr] using h.finished

theorem CheckInv.expires_none {check : Check} (h : CheckInv policyTTL unicodeLower check)
    (hf : check.finished = none) : check.expires = none := by
  cases he : check.expires with
  | none => rfl
  | some t =>
      obtain ⟨f, hf', _⟩ := h.expires t he
      rw [hf] at hf'
      cases hf'

theorem cacheInv_move
    (hchecks : ∀ (id : Nat) (check : Check), s.checks[id]? = some check →
      CheckInv policyTTL unicodeLower check)
    (h : CacheInv sha256 s) (hm : Move sha256 policyTTL unicodeLower s s') :
    CacheInv sha256 s' := by
  cases hm with
  | enter token => exact ⟨h.entry, h.kept, h.bounded⟩
  | progress c caller caller' _ hp => exact ⟨h.entry, h.kept, h.bounded⟩
  | tick duration => exact ⟨h.entry, h.kept, h.bounded⟩
  | direct c caller room _ hp hroom =>
      refine ⟨?_, ?_, ?_⟩
      · intro key id hl
        exact h.entry_concat _ (lookup_of_room hroom hl)
      · intro id check hc hshared hf
        rcases getElem?_concat_cases hc with hold | ⟨_, rfl⟩
        · exact lookup_room hroom hold ((hchecks id check hold).expires_none hf)
            (h.kept id check hold hshared hf)
        · cases hshared
      · rcases hroom with rfl | rfl
        · exact h.bounded
        · exact keys_purge_length.trans h.bounded
  | shared c caller room _ hp hroom hsize hl =>
      refine ⟨?_, ?_, (keys_insert_length ..).trans hsize⟩
      · intro key id hlook
        by_cases hk : key = sha256 caller.token
        · subst hk
          simp only [AList.lookup_insert, Option.some.injEq] at hlook
          subst hlook
          refine ⟨Check.new caller.token true c s.now, by simp, rfl, rfl, ?_⟩
          simp [Check.new]
        · simp only [AList.lookup_insert_ne hk] at hlook
          exact h.entry_concat _ (lookup_of_room hroom hlook)
      · intro id check hc hshared hf
        rcases getElem?_concat_cases hc with hold | ⟨rfl, rfl⟩
        · -- an unpublished check's entry is usable, so its token is another one
          have hkept := h.kept id check hold hshared hf
          have he := (hchecks id check hold).expires_none hf
          have hk : sha256 check.token ≠ sha256 caller.token := by
            intro hk
            rw [hk] at hkept
            have := hl id hkept
            simp [AuthState.usable, AuthState.expiry, hold, he] at this
          simp only [AList.lookup_insert_ne hk]
          exact lookup_room hroom hold he hkept
        · simp [Check.new]
  | backend i old run hold hr =>
      refine ⟨?_, ?_, h.bounded⟩
      · intro key id hl
        refine h.entry_set hold rfl rfl hl ?_
        intro hshared _
        simp [hshared]
      · intro id check hc hshared hf
        rcases getElem?_set_cases hc with ⟨rfl, rfl⟩ | ⟨_, hc⟩
        · exact h.kept i old hold hshared ((hchecks i old hold).finished_none hr)
        · exact h.kept id check hc hshared hf
  | publish i old result hold hs hr hf =>
      -- the check published is the one its key points to, so a failed check
      -- takes out its own entry and no other
      have hown := h.kept i old hold hs hf
      refine ⟨?_, ?_, (keys_keep_length ..).trans h.bounded⟩
      · intro key id hl
        obtain ⟨hl, hkept⟩ := lookup_of_keep hl
        refine h.entry_set hold rfl rfl hl ?_
        intro _ hk _
        cases result with
        | ok p => exact ⟨p, hr⟩
        | error e => exact absurd (hkept hk.symm) (by simp [Except.isOk, Except.toBool])
      · intro id check hc hshared hfin
        rcases getElem?_set_cases hc with ⟨rfl, rfl⟩ | ⟨hi, hc⟩
        · cases hfin
        · have hl := h.kept id check hc hshared hfin
          have hk : sha256 check.token ≠ sha256 old.token := by
            intro hk
            rw [hk, hown, Option.some.injEq] at hl
            exact hi hl
          rw [lookup_keep hk]
          exact hl

-- A check a caller may be given: for its own token, and if it is finished, then
-- since the caller entered, or successfully and less than `policyTTL` before.
def Fresh (policyTTL : Nat) (caller : Caller) (check : Check) : Prop :=
  check.token = caller.token ∧ ∀ f, check.finished = some f →
    caller.entered.turn < f.turn ∨
      ((∃ p, check.result = some (.ok p)) ∧ caller.entered.time < f.time + policyTTL)

structure CallerInv (policyTTL : Nat) (checks : List Check) (caller : Caller) : Prop where
  fresh : ∀ id, caller.phase.check? = some id →
    ∃ check, checks[id]? = some check ∧ Fresh policyTTL caller check
  returned : ∀ id result, caller.phase = .returned id result →
    ∃ check, checks[id]? = some check ∧ check.result = some result ∧ check.finished.isSome

theorem Fresh.evolves {caller : Caller} {check check' : Check} {turn : Nat}
    (h : Fresh policyTTL caller check) (hturn : caller.entered.turn < turn)
    (ht : check'.token = check.token)
    (he : check' = check ∨
      (check.finished = none ∧ ∀ f, check'.finished = some f → f.turn = turn)) :
    Fresh policyTTL caller check' := by
  rcases he with rfl | ⟨_, hnew⟩
  · exact h
  · refine ⟨ht.trans h.1, ?_⟩
    intro f hf
    rw [hnew f hf]
    exact .inl hturn

section Checked

variable (hchecks : ∀ (id : Nat) (check : Check), s.checks[id]? = some check →
  CheckInv policyTTL unicodeLower check)

include hchecks

theorem check_evolves (hm : Move sha256 policyTTL unicodeLower s s') {id : Nat} {check : Check}
    (hc : s.checks[id]? = some check) :
    ∃ check', s'.checks[id]? = some check' ∧ check'.token = check.token ∧
      (check' = check ∨
        (check.finished = none ∧ ∀ f, check'.finished = some f → f.turn = s.turns)) := by
  have hset (i : Nat) (new : Check) (hi : i = id → new.token = check.token ∧
      check.finished = none ∧ ∀ f, new.finished = some f → f.turn = s.turns) :
      ∃ check', (s.checks.set i new)[id]? = some check' ∧ check'.token = check.token ∧
      (check' = check ∨
        (check.finished = none ∧ ∀ f, check'.finished = some f → f.turn = s.turns)) := by
    by_cases h : i = id
    · subst h
      exact ⟨new, List.getElem?_set_self (List.getElem?_eq_some_iff.mp hc).1, (hi rfl).1,
        .inr (hi rfl).2⟩
    · exact ⟨check, by rw [List.getElem?_set_ne h]; exact hc, rfl, .inl rfl⟩
  cases hm with
  | enter token => exact ⟨check, hc, rfl, .inl rfl⟩
  | progress c caller caller' _ hp => exact ⟨check, hc, rfl, .inl rfl⟩
  | tick duration => exact ⟨check, hc, rfl, .inl rfl⟩
  | direct c caller room _ hp hroom => exact ⟨check, getElem?_concat_of_some hc, rfl, .inl rfl⟩
  | shared c caller room _ hp hroom hsize hl =>
      exact ⟨check, getElem?_concat_of_some hc, rfl, .inl rfl⟩
  | backend i old run hold hr =>
      refine hset i _ ?_
      rintro rfl
      obtain rfl : old = check := Option.some.inj (hold.symm.trans hc)
      refine ⟨rfl, (hchecks i old hold).finished_none hr, ?_⟩
      intro f hf
      dsimp only at hf
      split at hf
      · cases hf
      · cases hf
        rfl
  | publish i old result hold hs hr hf =>
      refine hset i _ ?_
      rintro rfl
      obtain rfl : old = check := Option.some.inj (hold.symm.trans hc)
      refine ⟨rfl, hf, ?_⟩
      rintro _ ⟨⟩
      rfl

theorem CallerInv.evolves {caller : Caller}
    (hm : Move sha256 policyTTL unicodeLower s s')
    (hturn : caller.entered.turn < s.turns) (h : CallerInv policyTTL s.checks caller) :
    CallerInv policyTTL s'.checks caller := by
  refine ⟨?_, ?_⟩
  · intro id hp
    obtain ⟨check, hc, hfresh⟩ := h.fresh id hp
    obtain ⟨check', hc', ht, he⟩ := check_evolves hchecks hm hc
    exact ⟨check', hc', hfresh.evolves hturn ht he⟩
  · intro id result hp
    obtain ⟨check, hc, hr, hf⟩ := h.returned id result hp
    obtain ⟨check', hc', ht, he⟩ := check_evolves hchecks hm hc
    rcases he with rfl | ⟨hnone, _⟩
    · exact ⟨check', hc', hr, hf⟩
    · rw [hnone] at hf
      cases hf

theorem fresh_of_usable (hsha : Function.Injective sha256)
    (hcache : CacheInv sha256 s) {caller : Caller} {id : Nat}
    (hpast : caller.entered.time ≤ s.now)
    (hl : s.policies.lookup (sha256 caller.token) = some id) (hu : s.usable id = true) :
    ∃ check, s.checks[id]? = some check ∧ Fresh policyTTL caller check := by
  obtain ⟨check, hc, hshared, hk, hok⟩ := hcache.entry _ id hl
  refine ⟨check, hc, hsha hk, ?_⟩
  intro f hf
  have hfin : check.finished.isSome = true := by rw [hf]; rfl
  obtain ⟨t, ht⟩ := Option.isSome_iff_exists.mp ((hchecks id check hc).published hshared hfin)
  obtain ⟨f', hf', rfl⟩ := (hchecks id check hc).expires t ht
  obtain rfl : f = f' := Option.some.inj (hf.symm.trans hf')
  have hnow : s.now < f.time + policyTTL := by
    simpa [AuthState.usable, AuthState.expiry, hc, ht] using hu
  exact .inr ⟨hok hfin, by omega⟩

theorem callerInv_move (hsha : Function.Injective sha256) (hclock : ClockInv s)
    (hcache : CacheInv sha256 s)
    (h : ∀ (c : Nat) (caller : Caller), s.callers[c]? = some caller →
      CallerInv policyTTL s.checks caller)
    (hm : Move sha256 policyTTL unicodeLower s s') (c : Nat) (caller : Caller)
    (hc : s'.callers[c]? = some caller) : CallerInv policyTTL s'.checks caller := by
  have hkeep (hold : s.callers[c]? = some caller) : CallerInv policyTTL s'.checks caller :=
    (h c caller hold).evolves hchecks hm (hclock.caller_past c caller hold).2
  have hstarted (shared : Bool) (starter : Nat) (old : Caller) (phase : Phase)
      (hp : phase = .waiting s.checks.length ∨ phase = .running s.checks.length) :
      CallerInv policyTTL (s.checks ++ [Check.new old.token shared starter s.now])
        { old with phase } := by
    refine ⟨?_, ?_⟩
    · intro id hid
      obtain rfl : s.checks.length = id := by rcases hp with rfl | rfl <;> exact Option.some.inj hid
      refine ⟨Check.new old.token shared starter s.now, by simp, rfl, ?_⟩
      simp [Check.new]
    · intro id result hid
      rcases hp with rfl | rfl <;> cases hid
  cases hm with
  | enter token =>
      rcases getElem?_concat_cases hc with hold | ⟨_, rfl⟩
      · exact hkeep hold
      · exact ⟨by simp [Phase.check?], by simp⟩
  | tick duration => exact hkeep hc
  | backend i old run hold hr => exact hkeep hc
  | publish i old result hold hs hr hf => exact hkeep hc
  | direct i old room hold hp hroom =>
      rcases getElem?_set_cases hc with ⟨_, rfl⟩ | ⟨_, hc⟩
      · exact hstarted false i old _ (.inr rfl)
      · exact hkeep hc
  | shared i old room hold hp hroom hsize hl =>
      rcases getElem?_set_cases hc with ⟨_, rfl⟩ | ⟨_, hc⟩
      · exact hstarted true i old _ (.inl rfl)
      · exact hkeep hc
  | progress i old new hold hp =>
      rcases getElem?_set_cases hc with ⟨_, rfl⟩ | ⟨_, hc⟩
      · have hinv := h i old hold
        cases hp with
        | stops phase hp => rcases hp with rfl | rfl <;> exact ⟨by simp [Phase.check?], by simp⟩
        | joins id hl hu =>
            refine ⟨?_, by simp⟩
            rintro _ ⟨⟩
            exact fresh_of_usable hchecks hsha hcache (hclock.caller_past i old hold).1 hl hu
        | returns id check result hid hcheck hr hf =>
            refine ⟨?_, ?_⟩
            · rintro _ ⟨⟩
              exact hinv.fresh id hid
            · rintro _ _ ⟨⟩
              exact ⟨check, hcheck, hr, hf⟩
        | cancels => exact ⟨hinv.fresh, hinv.returned⟩
      · exact hkeep hc

end Checked

structure StarterInv (s : AuthState κ) : Prop where
  started : ∀ (id : Nat) (check : Check), s.checks[id]? = some check →
    ∃ caller, s.callers[check.starter]? = some caller ∧ caller.phase ≠ .entered
  unique : ∀ (id id' : Nat) (check check' : Check), s.checks[id]? = some check →
    s.checks[id']? = some check' → check.starter = check'.starter → id = id'

theorem Progress.not_entered {caller caller' : Caller} (h : Progress sha256 s caller caller')
    (hp : caller.phase ≠ .entered) : caller'.phase ≠ .entered := by
  cases h with
  | stops phase h => rcases h with rfl | rfl <;> simp
  | joins id hl hu => simp
  | returns id check result hid hc hr hf => simp
  | cancels => exact hp

omit [DecidableEq κ] in
theorem caller_leaves {i : Nat} {new : Caller}
    (hnew : new.phase ≠ .entered ∨ ∀ caller, s.callers[i]? = some caller → caller.phase = .entered)
    {c : Nat} (h : ∃ caller, s.callers[c]? = some caller ∧ caller.phase ≠ .entered) :
    ∃ caller, (s.callers.set i new)[c]? = some caller ∧ caller.phase ≠ .entered := by
  obtain ⟨caller, hc, hp⟩ := h
  by_cases hi : i = c
  · subst hi
    refine ⟨new, List.getElem?_set_self (List.getElem?_eq_some_iff.mp hc).1, ?_⟩
    rcases hnew with hnew | hold
    · exact hnew
    · exact absurd (hold caller hc) hp
  · exact ⟨caller, by rw [List.getElem?_set_ne hi]; exact hc, hp⟩

omit [DecidableEq κ] in
theorem StarterInv.concat (h : StarterInv s) {c : Nat} {caller : Caller} {phase : Phase}
    (hc : s.callers[c]? = some caller) (hp : caller.phase = .entered) (hphase : phase ≠ .entered)
    (shared : Bool) (policies : AList fun _ : κ => Nat) :
    StarterInv { s with
      turns := s.turns + 1
      policies := policies
      checks := s.checks ++ [Check.new caller.token shared c s.now]
      callers := s.callers.set c { caller with phase } } := by
  have hnotmine (id : Nat) (check : Check) (hcheck : s.checks[id]? = some check) :
      check.starter ≠ c := by
    rintro rfl
    obtain ⟨old, hold, hne⟩ := h.started id check hcheck
    rw [hc, Option.some.injEq] at hold
    exact hne (hold ▸ hp)
  refine ⟨?_, ?_⟩
  · intro id check hcheck
    rcases getElem?_concat_cases hcheck with hcheck | ⟨_, rfl⟩
    · exact caller_leaves (.inl hphase) (h.started id check hcheck)
    · exact ⟨_, List.getElem?_set_self (List.getElem?_eq_some_iff.mp hc).1, hphase⟩
  · intro id id' check check' h1 h2 heq
    rcases getElem?_concat_cases h1 with h1 | ⟨rfl, rfl⟩ <;>
      rcases getElem?_concat_cases h2 with h2 | ⟨rfl, rfl⟩
    · exact h.unique id id' check check' h1 h2 heq
    · exact absurd heq (hnotmine id check h1)
    · exact absurd heq.symm (hnotmine id' check' h2)
    · rfl

omit [DecidableEq κ] in
theorem StarterInv.set (h : StarterInv s) {i : Nat} {old new : Check}
    (hold : s.checks[i]? = some old) (hs : new.starter = old.starter)
    (policies : AList fun _ : κ => Nat) :
    StarterInv { s with
      turns := s.turns + 1, policies := policies, checks := s.checks.set i new } := by
  have hview (id : Nat) (check : Check) (hc : (s.checks.set i new)[id]? = some check) :
      ∃ before, s.checks[id]? = some before ∧ check.starter = before.starter := by
    rcases getElem?_set_cases hc with ⟨rfl, rfl⟩ | ⟨_, hc⟩
    · exact ⟨old, hold, hs⟩
    · exact ⟨check, hc, rfl⟩
  refine ⟨?_, ?_⟩
  · intro id check hc
    obtain ⟨before, hb, heq⟩ := hview id check hc
    rw [heq]
    exact h.started id before hb
  · intro id id' check check' h1 h2 heq
    obtain ⟨b1, hb1, e1⟩ := hview id check h1
    obtain ⟨b2, hb2, e2⟩ := hview id' check' h2
    exact h.unique id id' b1 b2 hb1 hb2 (e1.symm.trans (heq.trans e2))

theorem starterInv_move (h : StarterInv s) (hm : Move sha256 policyTTL unicodeLower s s') :
    StarterInv s' := by
  cases hm with
  | enter token =>
      refine ⟨?_, h.unique⟩
      intro id check hc
      obtain ⟨caller, hcaller, hp⟩ := h.started id check hc
      exact ⟨caller, getElem?_concat_of_some hcaller, hp⟩
  | tick duration => exact ⟨h.started, h.unique⟩
  | progress c caller caller' hc hp =>
      refine ⟨?_, h.unique⟩
      intro id check hcheck
      refine caller_leaves ?_ (h.started id check hcheck)
      by_cases he : caller.phase = .entered
      · right
        intro old hold
        rw [hc, Option.some.injEq] at hold
        exact hold ▸ he
      · exact .inl (hp.not_entered he)
  | direct c caller room hc hp hroom => exact h.concat hc hp (by simp) false room
  | shared c caller room hc hp hroom hsize hl => exact h.concat hc hp (by simp) true _
  | backend i old run hold hr =>
      refine h.set hold ?_ _
      rfl
  | publish i old result hold hs hr hf =>
      refine h.set hold ?_ _
      rfl

structure AuthInv (sha256 : Token → κ) (policyTTL : Nat) (unicodeLower : Char → Char)
    (s : AuthState κ) : Prop where
  clock : ClockInv s
  checks : ∀ (id : Nat) (check : Check), s.checks[id]? = some check →
    CheckInv policyTTL unicodeLower check
  cache : CacheInv sha256 s
  callers : ∀ (c : Nat) (caller : Caller), s.callers[c]? = some caller →
    CallerInv policyTTL s.checks caller
  starters : StarterInv s

theorem authInv_init : AuthInv sha256 policyTTL unicodeLower (AuthState.init κ) := by
  refine ⟨⟨?_, ?_, ?_⟩, ?_, ⟨?_, ?_, ?_⟩, ?_, ⟨?_, ?_⟩⟩ <;> simp [AuthState.init, maxEntries]

theorem authInv_reaches (hsha : Function.Injective sha256)
    (hr : Reaches (AuthState.step sha256 policyTTL unicodeLower) (fun _ _ => True)
      (AuthState.init κ) s) : AuthInv sha256 policyTTL unicodeLower s := by
  refine hr.invariant ?_ authInv_init
  intro before label after h _ hstep
  have hm := step_move hstep
  exact ⟨clockInv_move h.clock hm, checkInv_move h.checks hm, cacheInv_move h.checks h.cache hm,
    callerInv_move h.checks hsha h.clock h.cache h.callers hm, starterInv_move h.starters hm⟩

end Invariants

end OpenvpnServer.Relay
