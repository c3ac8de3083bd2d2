import OpenvpnServer.Relay.Authorize.Invariants

namespace OpenvpnServer.Relay

open OpenvpnServer.Lib

variable {c d : Nat}

section Cancellation

variable {κ : Type} [DecidableEq κ] {sha256 : Token → κ} {policyTTL : Nat}
  {unicodeLower : Char → Char}

def AuthLabel.ownedBy (c : Nat) : AuthLabel → Bool
  | .lookup d | .deliver d | .cancel d | .giveUp d => d = c
  | _ => false

-- The same schedule in which `c` does nothing: each of its turns is an idle one.
def AuthLabel.without (c : Nat) (label : AuthLabel) : AuthLabel :=
  if label.ownedBy c then .tick 0 else label

def AuthState.withCaller (s : AuthState κ) (c : Nat) (caller : Caller) : AuthState κ :=
  { s with callers := s.callers.set c caller }

-- `c` has passed its locked section and runs no check of its own.
def Detached (s : AuthState κ) (c : Nat) : Prop :=
  (∃ caller, s.callers[c]? = some caller ∧ caller.phase ≠ .entered) ∧
    ∀ (id : Nat) (check : Check), s.checks[id]? = some check → check.starter = c →
      check.shared = true

omit [DecidableEq κ] in
theorem setPhase_withCaller (s : AuthState κ) (hd : d ≠ c) (mine caller : Caller)
    (phase : Phase) : (s.withCaller c mine).setPhase d caller phase =
      (s.setPhase d caller phase).withCaller c mine := by
  simp only [AuthState.setPhase, AuthState.withCaller]
  rw [List.set_comm _ _ hd.symm]

omit [DecidableEq κ] in
theorem startDirect_withCaller (s : AuthState κ) (hd : d ≠ c)
    (mine caller : Caller) :
    (s.withCaller c mine).startDirect d caller = (s.startDirect d caller).withCaller c mine := by
  simp only [AuthState.startDirect, AuthState.setPhase, AuthState.withCaller]
  rw [List.set_comm _ _ hd.symm]

theorem startShared_withCaller (s : AuthState κ) (hd : d ≠ c)
    (mine caller : Caller) : (s.withCaller c mine).startShared sha256 d caller =
      (s.startShared sha256 d caller).withCaller c mine := by
  simp only [AuthState.startShared, AuthState.setPhase, AuthState.withCaller]
  rw [List.set_comm _ _ hd.symm]

theorem start_withCaller (s : AuthState κ) (hd : d ≠ c) (mine caller : Caller) :
    (s.withCaller c mine).start sha256 d caller =
      (s.start sha256 d caller).withCaller c mine := by
  have hpolicies : (s.withCaller c mine).policies = s.policies := rfl
  have hpurge : (s.withCaller c mine).purge = s.purge := rfl
  have hroom : { s.withCaller c mine with policies := s.purge } =
      AuthState.withCaller { s with policies := s.purge } c mine := rfl
  simp only [AuthState.start, hpolicies, hpurge, hroom, startDirect_withCaller _ hd,
    startShared_withCaller _ hd]
  split
  · split <;> rfl
  · rfl

theorem authorize_withCaller (s : AuthState κ) (hd : d ≠ c) (mine caller : Caller) :
    (s.withCaller c mine).authorize sha256 policyTTL d caller =
      (s.authorize sha256 policyTTL d caller).withCaller c mine := by
  have hpolicies : (s.withCaller c mine).policies = s.policies := rfl
  have husable (id : Nat) : (s.withCaller c mine).usable id = s.usable id := rfl
  simp only [AuthState.authorize, setPhase_withCaller s hd, hpolicies, husable,
    startDirect_withCaller _ hd, start_withCaller _ hd]
  split
  · rfl
  · split
    · rfl
    · split
      · split <;> rfl
      · rfl

omit [DecidableEq κ] in
theorem getElem?_withCaller (s : AuthState κ) (hd : d ≠ c) (mine : Caller) :
    (s.withCaller c mine).callers[d]? = s.callers[d]? := List.getElem?_set_ne hd.symm

omit [DecidableEq κ] in
theorem contextDone_withCaller (s : AuthState κ) (mine : Caller) {check : Check}
    (h : check.starter = c → check.shared = true) :
    (s.withCaller c mine).contextDone check = s.contextDone check := by
  have hnow : (s.withCaller c mine).now = s.now := rfl
  by_cases hs : check.starter = c
  · simp [AuthState.contextDone, hnow, h hs]
  · simp only [AuthState.contextDone, hnow, getElem?_withCaller s hs]

theorem act_withCaller {s : AuthState κ} (hs : Detached s c) (mine : Caller)
    {label : AuthLabel} (hl : label.ownedBy c = false) :
    (s.withCaller c mine).act sha256 policyTTL unicodeLower label =
      (s.act sha256 policyTTL unicodeLower label).map fun next => next.withCaller c mine := by
  have hchecks : (s.withCaller c mine).checks = s.checks := rfl
  cases label with
  | enter token =>
      obtain ⟨⟨caller, hc, _⟩, _⟩ := hs
      simp only [AuthState.act, AuthState.withCaller, Option.map_some]
      rw [List.set_append_left _ _ (List.getElem?_eq_some_iff.mp hc).1]
  | lookup d =>
      have hd : d ≠ c := by simpa [AuthLabel.ownedBy] using hl
      simp only [AuthState.act, getElem?_withCaller s hd, authorize_withCaller s hd]
      split
      · split <;> rfl
      · rfl
  | backend id run =>
      simp only [AuthState.act, hchecks]
      cases hc : s.checks[id]? with
      | none => rfl
      | some check =>
          simp only [contextDone_withCaller s mine (hs.2 id check hc)]
          split
          · rfl
          · split <;> rfl
  | publish id =>
      simp only [AuthState.act, hchecks]
      split
      · split <;> rfl
      · rfl
  | deliver d =>
      have hd : d ≠ c := by simpa [AuthLabel.ownedBy] using hl
      simp only [AuthState.act, getElem?_withCaller s hd, hchecks, setPhase_withCaller s hd]
      split
      · split
        · split <;> rfl
        · split <;> rfl
        · rfl
      · rfl
  | cancel d =>
      have hd : d ≠ c := by simpa [AuthLabel.ownedBy] using hl
      simp only [AuthState.act, getElem?_withCaller s hd]
      split
      · simp only [AuthState.withCaller, Option.map_some]
        rw [List.set_comm _ _ hd.symm]
      · rfl
  | giveUp d =>
      have hd : d ≠ c := by simpa [AuthLabel.ownedBy] using hl
      simp only [AuthState.act, getElem?_withCaller s hd, setPhase_withCaller s hd]
      split
      · split <;> rfl
      · rfl
  | tick duration => rfl

theorem act_owned {s s' : AuthState κ} (hs : Detached s c) {label : AuthLabel}
    (hl : label.ownedBy c = true) (h : s.act sha256 policyTTL unicodeLower label = some s') :
    ∃ mine, s' = s.withCaller c mine := by
  obtain ⟨⟨caller, hc, hp⟩, _⟩ := hs
  cases label with
  | enter token => cases hl
  | backend id run => cases hl
  | publish id => cases hl
  | tick duration => cases hl
  | lookup d =>
      obtain rfl : d = c := by simpa [AuthLabel.ownedBy] using hl
      simp only [AuthState.act, hc] at h
      cases h
  | deliver d =>
      obtain rfl : d = c := by simpa [AuthLabel.ownedBy] using hl
      simp only [AuthState.act, hc] at h
      split at h
      case h_3 => cases h
      all_goals
        split at h
        case h_2 => cases h
        case h_1 =>
            cases h
            exact ⟨_, rfl⟩
  | cancel d =>
      obtain rfl : d = c := by simpa [AuthLabel.ownedBy] using hl
      simp only [AuthState.act, hc, Option.some.injEq] at h
      exact ⟨_, h.symm⟩
  | giveUp d =>
      obtain rfl : d = c := by simpa [AuthLabel.ownedBy] using hl
      simp only [AuthState.act, hc] at h
      split at h
      case h_2 => cases h
      case h_1 =>
          cases h
          exact ⟨_, rfl⟩

theorem detached_move {s s' : AuthState κ} (hs : Detached s c)
    (hm : Move sha256 policyTTL unicodeLower s s') : Detached s' c := by
  obtain ⟨hcaller, hown⟩ := hs
  have hother (d : Nat) (caller : Caller) (hc : s.callers[d]? = some caller)
      (hp : caller.phase = .entered) : d ≠ c := by
    rintro rfl
    obtain ⟨mine, hmine, hne⟩ := hcaller
    rw [hc, Option.some.injEq] at hmine
    exact hne (hmine ▸ hp)
  have hset (i : Nat) (old new : Check) (hold : s.checks[i]? = some old)
      (hnew : new.starter = old.starter ∧ new.shared = old.shared) (id : Nat) (check : Check)
      (hc : (s.checks.set i new)[id]? = some check) (hstarter : check.starter = c) :
      check.shared = true := by
    rcases getElem?_set_cases hc with ⟨rfl, rfl⟩ | ⟨_, hc⟩
    · rw [hnew.2]
      exact hown i old hold (hnew.1.symm.trans hstarter)
    · exact hown id check hc hstarter
  have hconcat (d : Nat) (hd : d ≠ c) (token : Token) (shared : Bool) (id : Nat) (check : Check)
      (hc : (s.checks ++ [Check.new token shared d s.now])[id]? = some check)
      (hstarter : check.starter = c) : check.shared = true := by
    rcases getElem?_concat_cases hc with hc | ⟨_, rfl⟩
    · exact hown id check hc hstarter
    · exact absurd hstarter hd
  cases hm with
  | enter token =>
      obtain ⟨caller, hc, hp⟩ := hcaller
      exact ⟨⟨caller, getElem?_concat_of_some hc, hp⟩, hown⟩
  | tick duration => exact ⟨hcaller, hown⟩
  | progress d caller caller' hc hp =>
      refine ⟨caller_leaves ?_ hcaller, hown⟩
      by_cases he : caller.phase = .entered
      · right
        intro old hold
        rw [hc, Option.some.injEq] at hold
        exact hold ▸ he
      · exact .inl (hp.not_entered he)
  | direct d caller room hc hp hroom =>
      exact ⟨caller_leaves (.inl (by simp)) hcaller, hconcat d (hother d caller hc hp) _ _⟩
  | shared d caller room hc hp hroom hsize hl =>
      exact ⟨caller_leaves (.inl (by simp)) hcaller, hconcat d (hother d caller hc hp) _ _⟩
  | backend i old run hold hr => exact ⟨hcaller, hset i old _ hold ⟨rfl, rfl⟩⟩
  | publish i old result hold hs hr hf => exact ⟨hcaller, hset i old _ hold ⟨rfl, rfl⟩⟩

-- Whatever `c` does in a run, the same run in which it only idles is enabled
-- and ends in the same state but for the record of `c`.
theorem run_without {s : AuthState κ} (hs : Detached s c) (mine : Caller)
    {labels : List AuthLabel} {s' : AuthState κ}
    (h : runSteps (AuthState.step sha256 policyTTL unicodeLower) s labels = some s') :
    ∃ mine', runSteps (AuthState.step sha256 policyTTL unicodeLower) (s.withCaller c mine)
      (labels.map (AuthLabel.without c)) = some (s'.withCaller c mine') := by
  induction labels generalizing s mine with
  | nil =>
      cases h
      exact ⟨mine, rfl⟩
  | cons label rest ih =>
      cases hstep : s.step sha256 policyTTL unicodeLower label with
      | none => simp [runSteps, hstep] at h
      | some next =>
          simp only [runSteps, hstep] at h
          obtain ⟨last, hlast⟩ := ih (detached_move hs (step_move hstep)) mine h
          have hwithout : (s.withCaller c mine).step sha256 policyTTL unicodeLower
              (label.without c) = some (next.withCaller c mine) := by
            simp only [AuthState.step, Option.map_eq_some_iff] at hstep ⊢
            obtain ⟨acted, hact, rfl⟩ := hstep
            cases hl : label.ownedBy c with
            | true =>
                obtain ⟨mine', rfl⟩ := act_owned hs hl hact
                refine ⟨s.withCaller c mine, by simp [AuthLabel.without, hl, AuthState.act], ?_⟩
                simp [AuthState.withCaller]
            | false =>
                refine ⟨acted.withCaller c mine, ?_, rfl⟩
                simp [AuthLabel.without, hl, act_withCaller hs mine hl, hact]
          refine ⟨last, ?_⟩
          simp only [List.map_cons, runSteps, hwithout]
          exact hlast

end Cancellation

section Guarantees

variable {κ : Type} [DecidableEq κ] {sha256 : Token → κ} {policyTTL : Nat}
  {unicodeLower : Char → Char} {s : AuthState κ}

theorem detached_of_shared (h : AuthInv sha256 policyTTL unicodeLower s) {id : Nat} {check : Check}
    (hc : s.checks[id]? = some check) (hs : check.shared = true) : Detached s check.starter := by
  refine ⟨h.starters.started id check hc, ?_⟩
  intro id' check' hc' heq
  obtain rfl := h.starters.unique id' id check' check hc' hc heq
  rw [hc, Option.some.injEq] at hc'
  exact hc' ▸ hs

omit [DecidableEq κ] in
theorem withCaller_self {caller : Caller} (hc : s.callers[c]? = some caller) :
    s.withCaller c caller = s := by
  obtain ⟨hlt, rfl⟩ := List.getElem?_eq_some_iff.mp hc
  simp [AuthState.withCaller]

end Guarantees

def sampleToken : Token := bearer ++ [120]

def sampleFullPolicy : Policy := ⟨[], [], [], [], [], false, none⟩

def sampleBackendRun : BackendRun :=
  ⟨true, fun _ => .status 200 (some sampleFullPolicy), fun _ => false⟩

-- Two callers share a check; the first one is cancelled and leaves before the
-- backend answers, the second one gets the policy.
def sampleLabels : List AuthLabel :=
  [.enter sampleToken, .lookup 0, .enter sampleToken, .lookup 1, .cancel 0, .giveUp 0, .tick 7,
    .backend 0 sampleBackendRun, .publish 0, .deliver 1]

def sampleAuthState : AuthState Token :=
  (runSteps (AuthState.step id 1000 Char.toLower) (AuthState.init Token) sampleLabels).getD
    (AuthState.init Token)

theorem sampleAuthState_run :
    runSteps (AuthState.step id 1000 Char.toLower) (AuthState.init Token) sampleLabels =
      some sampleAuthState := rfl

theorem sampleAuthState_reached :
    Reaches (AuthState.step id 1000 Char.toLower) (fun _ _ => True) (AuthState.init Token)
      sampleAuthState :=
  Reaches.of_runSteps sampleAuthState_run (AllowedRun.of_runSteps sampleAuthState_run)

section Revocation

variable {κ : Type} [DecidableEq κ] {sha256 : Token → κ} {policyTTL : Nat}
  {unicodeLower : Char → Char} {s s' revoked : AuthState κ} {token : Token} {label : AuthLabel}

-- The policy service no longer admits the token.
def Refused (unicodeLower : Char → Char) (token : Token) (s : AuthState κ) : AuthLabel → Prop
  | .backend id run => ∀ check ∈ s.checks[id]?, check.token = token →
      (authorizeBackend unicodeLower token run).isOk = false
  | _ => True

-- The checks that admit the token are those of the time it was revoked, all published.
def Ended (token : Token) (revoked s : AuthState κ) : Prop :=
  ∀ (id : Nat) (check : Check) (p : CompiledPolicy), s.checks[id]? = some check →
    check.token = token → check.result = some (.ok p) →
    revoked.checks[id]? = some check ∧ check.finished.isSome = true

theorem checks_authorize (s : AuthState κ) (c : Nat) (caller : Caller) :
    (s.authorize sha256 policyTTL c caller).checks = s.checks ∨
      ∃ shared, (s.authorize sha256 policyTTL c caller).checks =
        s.checks ++ [Check.new caller.token shared c s.now] := by
  have hstart : ∃ shared, (s.start sha256 c caller).checks =
      s.checks ++ [Check.new caller.token shared c s.now] := by
    unfold AuthState.start
    split
    · dsimp only
      split
      · exact ⟨false, rfl⟩
      · exact ⟨true, rfl⟩
    · exact ⟨true, rfl⟩
  unfold AuthState.authorize
  split
  · exact .inl rfl
  · split
    · exact .inr ⟨false, rfl⟩
    · split
      · split
        · exact .inl rfl
        · exact .inr hstart
      · exact .inr hstart

theorem Ended.step (h : Ended token revoked s) (hrefused : Refused unicodeLower token s label)
    (hstep : s.step sha256 policyTTL unicodeLower label = some s') : Ended token revoked s' := by
  rw [AuthState.step, Option.map_eq_some_iff] at hstep
  obtain ⟨next, hact, rfl⟩ := hstep
  intro id check p hcheck htoken hok
  -- only the backend gives a check its result
  refine h id check p ?_ htoken hok
  cases label with
  | enter token =>
      cases hact
      exact hcheck
  | tick duration =>
      cases hact
      exact hcheck
  | lookup c =>
      simp only [AuthState.act] at hact
      split at hact
      · rename_i caller hc
        split at hact
        · cases hact
          rcases @checks_authorize _ _ sha256 policyTTL s c caller with hsame | ⟨shared, hnew⟩
          · exact hsame ▸ hcheck
          · rcases getElem?_concat_cases (hnew ▸ hcheck) with hold | ⟨-, rfl⟩
            · exact hold
            · cases hok
        · cases hact
      · cases hact
  | backend i run =>
      simp only [AuthState.act] at hact
      split at hact
      · rename_i old hold
        split at hact
        · cases hact
        · split at hact
          · cases hact
          · cases hact
            rcases getElem?_set_cases hcheck with ⟨rfl, rfl⟩ | ⟨-, hold⟩
            · have hfailed := hrefused old hold htoken
              rw [← htoken, Option.some.inj hok] at hfailed
              cases hfailed
            · exact hold
      · cases hact
  | publish i =>
      simp only [AuthState.act] at hact
      split at hact
      · rename_i old hold
        split at hact
        · rename_i q hs hr hf
          cases hact
          rcases getElem?_set_cases hcheck with ⟨rfl, rfl⟩ | ⟨-, hold⟩
          · have hfinished := (h _ old q hold htoken hr).2
            rw [hf] at hfinished
            cases hfinished
          · exact hold
        · rename_i e hs hr hf
          cases hact
          rcases getElem?_set_cases hcheck with ⟨rfl, rfl⟩ | ⟨-, hold⟩
          · cases hr.symm.trans hok
          · exact hold
        · cases hact
      · cases hact
  | deliver c =>
      simp only [AuthState.act] at hact
      repeat' split at hact
      all_goals cases hact
      all_goals exact hcheck
  | cancel c =>
      simp only [AuthState.act] at hact
      split at hact <;> cases hact
      exact hcheck
  | giveUp c =>
      simp only [AuthState.act] at hact
      repeat' split at hact
      all_goals cases hact
      exact hcheck

-- Once the policy service refuses a token and its earlier answers are published, no call that
-- enters later is admitted for longer than `policyTTL`, however the steps interleave.
theorem revoked_token_refused (hsha : Function.Injective sha256)
    (hrevoked : Reaches (AuthState.step sha256 policyTTL unicodeLower) (fun _ _ => True)
      (AuthState.init κ) revoked)
    (hpublished : ∀ (id : Nat) (check : Check), revoked.checks[id]? = some check →
      check.token = token → check.result.isSome = true → check.finished.isSome = true)
    (hr : Reaches (AuthState.step sha256 policyTTL unicodeLower) (Refused unicodeLower token)
      revoked s) {c : Nat} {caller : Caller} (hc : s.callers[c]? = some caller)
    (htoken : caller.token = token) (hlater : revoked.turns ≤ caller.entered.turn)
    (htime : revoked.now + policyTTL ≤ caller.entered.time) (id : Nat) (p : CompiledPolicy) :
    caller.phase ≠ .returned id (.ok p) := by
  intro hphase
  obtain ⟨hall, hended⟩ := hr.invariant (P := fun s => Reaches (AuthState.step sha256 policyTTL
      unicodeLower) (fun _ _ => True) (AuthState.init κ) s ∧ Ended token revoked s)
    (fun _ label _ h ha hstep => ⟨h.1.tail label trivial hstep, h.2.step ha hstep⟩)
    ⟨hrevoked, fun id check p hcheck htoken hok =>
      ⟨hcheck, hpublished id check hcheck htoken (by rw [hok]; rfl)⟩⟩
  have hcaller := (authInv_reaches hsha hall).callers c caller hc
  obtain ⟨check, hcheck, hsame, hfresh⟩ := hcaller.fresh id (by rw [hphase]; rfl)
  obtain ⟨check', hcheck', hok, hfin⟩ := hcaller.returned id _ hphase
  obtain rfl : check = check' := Option.some.inj (hcheck.symm.trans hcheck')
  obtain ⟨f, hf⟩ := Option.isSome_iff_exists.mp hfin
  have hthen := (hended id check p hcheck (hsame.trans htoken) hok).1
  have hpast := (authInv_reaches hsha hrevoked).clock.check_past id check f hthen hf
  rcases hfresh f hf with hturn | ⟨-, hfreshly⟩
  · omega
  · omega

def refusedRun : BackendRun := ⟨true, fun _ => .status 403 none, fun _ => false⟩

-- The token is revoked; a call that enters after the policy has expired.
def revokedLabels : List AuthLabel :=
  [.tick 1000, .enter sampleToken, .lookup 2, .backend 1 refusedRun, .publish 1, .deliver 2]

theorem revoked_caller_refused : ∃ s caller, runSteps (AuthState.step id 1000 Char.toLower)
    sampleAuthState revokedLabels = some s ∧ s.callers[2]? = some caller ∧
      ∀ id p, caller.phase ≠ .returned id (.ok p) := by
  obtain ⟨s, hrun, hc⟩ : ∃ s, runSteps (AuthState.step id 1000 Char.toLower) sampleAuthState
      revokedLabels = some s ∧ s.callers[2]? =
        some ⟨sampleToken, ⟨1007, 11⟩, false, .returned 1 (.error .accessDenied)⟩ := ⟨_, rfl, rfl⟩
  refine ⟨s, _, hrun, hc, revoked_token_refused Function.injective_id sampleAuthState_reached ?_
    (Reaches.of_runSteps hrun ?_) hc rfl (by decide) (by decide)⟩
  · rintro (_ | id) check hcheck - -
    · cases hcheck
      rfl
    · cases hcheck
  · exact ⟨trivial, trivial, trivial, fun _ _ _ => rfl, trivial, trivial, trivial⟩

end Revocation

end OpenvpnServer.Relay
