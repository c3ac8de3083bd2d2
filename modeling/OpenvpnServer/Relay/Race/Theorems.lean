import OpenvpnServer.Relay.Race.Lemmas

namespace OpenvpnServer.Relay.Race

open OpenvpnServer.Lib OpenvpnServer.Lib.Netip

section Measure

def Phase.weight : Phase → Nat
  | .waiting => 4
  | .dialing => 3
  | .offering _ => 2
  | .closing => 1
  | .ended => 0

-- The caller's steps, and those of the goroutines it has not started yet.
def Main.weight (addresses : List AddrPort) : Main → Nat
  | .receiving .first turns _ => 5 * addresses.length + 7 + turns
  | .leaving .first _ => 5 * addresses.length + 6
  | .checking _ => 5 * addresses.length + 5
  | .pausing => 5 * addresses.length + 4
  | .receiving .second turns _ => turns + 2
  | .leaving .second _ => 1
  | .returned _ => 0

def dialersWeight (dialers : List Dialer) : Nat :=
  (dialers.map fun dialer => dialer.phase.weight).sum

def flagWeight (flag : Bool) : Nat := if flag then 0 else 1

def State.weight (addresses : List AddrPort) (s : State) : Nat :=
  dialersWeight (s.dialers .first) + dialersWeight (s.dialers .second) +
    (flagWeight (s.done .first) + flagWeight (s.done .second) + flagWeight s.expired) +
    s.main.weight addresses

variable {addresses : List AddrPort} {s next : State}

theorem dialersWeight_set {dialers : List Dialer} {index : Nat} {old : Dialer} (new : Dialer)
    (h : dialers[index]? = some old) :
    dialersWeight (dialers.set index new) + old.phase.weight =
      dialersWeight dialers + new.phase.weight := by
  induction dialers generalizing index with
  | nil => cases h
  | cons dialer rest ih =>
      cases index with
      | zero =>
          cases h
          simp only [dialersWeight, List.set_cons_zero, List.map_cons, List.sum_cons]
          omega
      | succ index =>
          have hrest := ih h
          simp only [dialersWeight, List.set_cons_succ, List.map_cons, List.sum_cons] at hrest ⊢
          omega

theorem dialersWeight_started (addresses : List AddrPort) :
    dialersWeight (started addresses) = 4 * addresses.length := by
  induction addresses with
  | nil => rfl
  | cons addr rest ih =>
      simp only [dialersWeight, started, List.map_cons, List.sum_cons, List.length_cons] at ih ⊢
      rw [ih]
      simp only [Phase.weight]
      omega

theorem weight_setDialer {id : ConnId} {old : Dialer} (new : Dialer)
    (h : s.dialer? id = some old) :
    (s.setDialer id new).weight addresses + old.phase.weight =
      s.weight addresses + new.phase.weight := by
  have hset := dialersWeight_set new h
  cases hattempt : id.attempt with
  | first =>
      rw [hattempt] at hset
      simp only [State.weight, State.setDialer, hattempt, Function.update_self, ne_eq,
        reduceCtorEq, not_false_eq_true, Function.update_of_ne]
      omega
  | second =>
      rw [hattempt] at hset
      simp only [State.weight, State.setDialer, hattempt, Function.update_self, ne_eq,
        reduceCtorEq, not_false_eq_true, Function.update_of_ne]
      omega

theorem weight_dialerStep {done : Bool} {old new : Dialer} {action : Action}
    (hstep : dialerStep done old action = some new) : new.phase.weight < old.phase.weight := by
  unfold dialerStep at hstep
  repeat' split at hstep
  all_goals cases hstep
  all_goals simp_all [Phase.weight]

theorem flagWeight_true : flagWeight true = 0 := rfl

theorem flagWeight_le (flag : Bool) : flagWeight flag ≤ 1 := by
  cases flag <;> decide

theorem weight_cancel (attempt : Attempt) (s : State) :
    (s.cancel attempt).weight addresses + flagWeight (s.done attempt) = s.weight addresses := by
  cases attempt with
  | first =>
      simp only [State.weight, State.cancel, Function.update_self, ne_eq, reduceCtorEq,
        not_false_eq_true, Function.update_of_ne, flagWeight_true]
      omega
  | second =>
      simp only [State.weight, State.cancel, Function.update_self, ne_eq, reduceCtorEq,
        not_false_eq_true, Function.update_of_ne, flagWeight_true]
      omega

theorem weight_expire (s : State) :
    ({ s with expired := true } : State).weight addresses + flagWeight s.expired =
      s.weight addresses := by
  simp only [State.weight, flagWeight_true]
  omega

theorem weight_withMain (s : State) (main : Main) :
    ({ s with main := main } : State).weight addresses + s.main.weight addresses =
      s.weight addresses + main.weight addresses := by
  simp only [State.weight]
  omega

theorem weight_handOver {id : ConnId} (hstep : step addresses s (.handOver id) = some next) :
    next.weight addresses < s.weight addresses := by
  obtain ⟨turns, last, err, conn, hmain, hold, rfl⟩ := handOver_spec hstep
  have hset := @weight_setDialer addresses s id _ ⟨.ended, conn⟩ hold
  have hnext := @weight_withMain addresses (s.setDialer id ⟨.ended, conn⟩)
    (receive addresses id turns err)
  have hsame : (s.setDialer id ⟨.ended, conn⟩).main = .receiving id.attempt (turns + 1) last :=
    hmain
  rw [hsame] at hnext
  have hless : (receive addresses id turns err).weight addresses <
      (Main.receiving id.attempt (turns + 1) last).weight addresses := by
    cases err <;> cases hattempt : id.attempt <;> simp only [receive, hattempt, Main.weight] <;> omega
  simp only [Phase.weight] at hset
  dsimp only
  omega

theorem weight_call {call : Call} (hstep : step addresses s (.call call) = some next) :
    next.weight addresses < s.weight addresses := by
  rcases callStep_spec hstep with ⟨attempt, turns, last, err, hmain, -, rfl⟩ |
    ⟨result, hmain, rfl⟩ | ⟨result, hmain, rfl⟩ | ⟨result, hmain, -, rfl⟩ |
    ⟨result, hmain, -, -, rfl⟩ | ⟨result, hmain, -, rfl⟩ | ⟨hmain, rfl⟩ | ⟨hmain, -, rfl⟩
  · have hnext := @weight_withMain addresses s (.leaving attempt (.failed err))
    rw [hmain] at hnext
    cases attempt <;> simp only [Main.weight] at hnext <;> omega
  · have hnext := @weight_withMain addresses (s.cancel .first) (.checking result)
    have hcancel := @weight_cancel addresses .first s
    rw [show (s.cancel .first).main = _ from hmain] at hnext
    simp only [Main.weight] at hnext
    dsimp only
    omega
  · have hnext := @weight_withMain addresses (s.cancel .second) (.returned result)
    have hcancel := @weight_cancel addresses .second s
    have hexpire := @weight_expire addresses { s.cancel .second with main := .returned result }
    rw [show (s.cancel .second).main = _ from hmain] at hnext
    simp only [Main.weight] at hnext
    simp only at hexpire
    dsimp only
    omega
  · have hnext := @weight_withMain addresses s (.returned result)
    have hexpire := @weight_expire addresses { s with main := .returned result }
    rw [hmain] at hnext
    simp only [Main.weight] at hnext
    simp only at hexpire
    omega
  · have hnext := @weight_withMain addresses s (.returned ⟨none, result.addr, result.err⟩)
    have hexpire := @weight_expire addresses
      { s with main := .returned ⟨none, result.addr, result.err⟩ }
    rw [hmain] at hnext
    simp only [Main.weight] at hnext
    simp only at hexpire
    omega
  · have hnext := @weight_withMain addresses s .pausing
    rw [hmain] at hnext
    simp only [Main.weight] at hnext
    omega
  · have hstarted := dialersWeight_started addresses
    have hflag := flagWeight_le s.expired
    simp only [State.weight, hmain, Main.weight, Function.update_self, ne_eq, reduceCtorEq,
      not_false_eq_true, Function.update_of_ne, hstarted]
    omega
  · have hnext := @weight_withMain addresses s (.returned (.failed .contextEnded))
    rw [hmain] at hnext
    simp only [Main.weight] at hnext
    omega

theorem weight_step {label : Step} (hstep : step addresses s label = some next) :
    next.weight addresses < s.weight addresses := by
  cases label with
  | dialer id action =>
      obtain ⟨old, new, hold, hnew, rfl⟩ := dialer_step_spec hstep
      have hset := @weight_setDialer addresses s id old new hold
      have hless := weight_dialerStep hnew
      omega
  | handOver id => exact weight_handOver hstep
  | call call => exact weight_call hstep
  | expire =>
      obtain ⟨hflag, rfl⟩ := expire_spec hstep
      have hexpire := @weight_expire addresses s
      have hone : flagWeight s.expired = 1 := by
        rw [hflag]
        rfl
      omega
  | expireAttempt attempt =>
      obtain ⟨hflag, rfl⟩ := expireAttempt_spec hstep
      have hcancel := @weight_cancel addresses attempt s
      have hone : flagWeight (s.done attempt) = 1 := by
        rw [hflag]
        rfl
      omega

theorem weight_init (addresses : List AddrPort) :
    (init addresses).weight addresses = 10 * addresses.length + 9 := by
  have hstarted := dialersWeight_started addresses
  have hnone : dialersWeight [] = 0 := rfl
  simp only [State.weight, init, hstarted, hnone, Main.weight, flagWeight]
  simp only [Bool.false_eq_true, if_false, if_true]
  omega

end Measure

section Progress

variable {addresses : List AddrPort} {s : State}

-- In a state without steps every context has ended, so nobody waits for another.
theorem done_of_stuck (h : ∀ label, step addresses s label = none) :
    s.expired = true ∧ ∀ attempt, s.done attempt = true := by
  constructor
  · have hexpire := h .expire
    simp only [step] at hexpire
    split at hexpire
    · assumption
    · cases hexpire
  · intro attempt
    have hexpire := h (.expireAttempt attempt)
    simp only [step] at hexpire
    split at hexpire
    · assumption
    · cases hexpire

theorem ended_of_stuck (h : ∀ label, step addresses s label = none) {id : ConnId}
    {dialer : Dialer} (hid : s.dialer? id = some dialer) : dialer.phase = .ended := by
  have hdone := (done_of_stuck h).2 id.attempt
  have hstep (action : Action) : dialerStep true dialer action = none := by
    have haction := h (.dialer id action)
    rw [step, hid, hdone, Option.map_eq_none_iff, Option.bind_some] at haction
    exact haction
  cases hphase : dialer.phase with
  | waiting =>
      have htimer := hstep .timer
      simp [dialerStep, hphase] at htimer
  | dialing =>
      have hdialed := hstep (.dialed none)
      simp [dialerStep, hphase] at hdialed
  | offering err =>
      have hdrop := hstep .drop
      cases err <;> simp [dialerStep, hphase] at hdrop
  | closing =>
      have hclose := hstep .close
      simp [dialerStep, hphase] at hclose
  | ended => rfl

theorem returned_of_stuck (h : ∀ label, step addresses s label = none) :
    ∃ result, s.main = .returned result := by
  obtain ⟨hexpired, hdone⟩ := done_of_stuck h
  have hcall (call : Call) : callStep addresses s call = none := h (.call call)
  cases hmain : s.main with
  | receiving attempt turns last =>
      cases turns with
      | zero =>
          have hexhausted := hcall .exhausted
          simp [callStep, hmain] at hexhausted
      | succ turns =>
          have hcancelled := hcall .cancelled
          simp [callStep, hmain, hdone attempt] at hcancelled
  | leaving attempt result =>
      have hleave := hcall .leave
      cases attempt <;> simp [callStep, hmain] at hleave
  | checking result =>
      have hcheck := hcall .check
      simp [callStep, hmain, hexpired] at hcheck
  | pausing =>
      have hretry := hcall .retry
      simp [callStep, hmain] at hretry
  | returned result => exact ⟨result, rfl⟩

end Progress

section Refinement

-- The outcome of a result in the receiver's own model.
def Result.Means (result : Result) : Dialed → Prop
  | .connected addr => result.addr = some addr ∧ result.err = none
  | .failed err => result.err = some err

-- What the receiver has got so far explains where it is.
def Explained (addresses : List AddrPort) : Main → Prop
  | .receiving attempt turns last =>
      (attempt = .second → ∃ first, dialTCP addresses first = some (.failed .refused)) ∧
      ∃ got, ∀ more, dialTCP addresses (got ++ more) = dialLoop addresses turns last more
  | .leaving attempt result =>
      (attempt = .second → ∃ first, dialTCP addresses first = some (.failed .refused)) ∧
      ∃ got outcome, result.Means outcome ∧ dialTCP addresses got = some outcome
  | .checking result => ∃ got outcome, result.Means outcome ∧ dialTCP addresses got = some outcome
  | .pausing => ∃ first, dialTCP addresses first = some (.failed .refused)
  | .returned result => ∃ first endedAfterFirst endedInPause second outcome,
      result.Means outcome ∧
        connectTCP addresses first endedAfterFirst endedInPause second = some outcome

variable {addresses : List AddrPort} {s next : State}

theorem explained_handOver (h : Explained addresses s.main) (hsound : Sound addresses s)
    {id : ConnId} (hstep : step addresses s (.handOver id) = some next) :
    Explained addresses next.main := by
  obtain ⟨turns, last, err, conn, hmain, hold, rfl⟩ := handOver_spec hstep
  rw [hmain] at h
  obtain ⟨hfirst, got, hgot⟩ := h
  have hlt : id.index < addresses.length :=
    Nat.lt_of_lt_of_le (List.getElem?_eq_some_iff.mp hold).1 (hsound.sized id.attempt)
  cases err with
  | none =>
      refine ⟨hfirst, got ++ [.result ⟨id.index, hlt⟩ none], .connected addresses[id.index], ?_, ?_⟩
      · exact ⟨List.getElem?_eq_getElem hlt, rfl⟩
      · rw [hgot]
        rfl
  | some err =>
      refine ⟨hfirst, got ++ [.result ⟨id.index, hlt⟩ (some err)], fun more => ?_⟩
      rw [List.append_assoc, hgot]
      rfl

theorem explained_checked {result : Result} (hbad : result.err ≠ none) {got : List (Received addresses)}
    {outcome : Dialed} (hmeans : result.Means outcome)
    (hgot : dialTCP addresses got = some outcome) (ended : Bool)
    (hended : ended = true ∨ result.err ≠ some .refused) :
    connectTCP addresses got ended false [] = some outcome := by
  cases outcome with
  | connected addr => exact absurd hmeans.2 hbad
  | failed err =>
      rw [connectTCP, hgot]
      dsimp only
      rcases hended with rfl | hrefused
      · rfl
      · have hne : err ≠ .refused := by
          rintro rfl
          exact hrefused hmeans
        rw [if_pos hne]
        split <;> rfl

theorem explained_call (h : Explained addresses s.main) {call : Call}
    (hstep : step addresses s (.call call) = some next) : Explained addresses next.main := by
  rcases callStep_spec hstep with ⟨attempt, turns, last, err, hmain, herr, rfl⟩ |
    ⟨result, hmain, rfl⟩ | ⟨result, hmain, rfl⟩ | ⟨result, hmain, hover, rfl⟩ |
    ⟨result, hmain, hbad, hrefused, rfl⟩ | ⟨result, hmain, hrefused, rfl⟩ | ⟨hmain, rfl⟩ |
    ⟨hmain, -, rfl⟩
  all_goals rw [hmain] at h
  · obtain ⟨hfirst, got, hgot⟩ := h
    rcases herr with ⟨hturns, rfl⟩ | ⟨rfl, rfl⟩
    · obtain ⟨turns, rfl⟩ := Nat.exists_eq_succ_of_ne_zero hturns
      refine ⟨hfirst, got ++ [.done], .failed .contextEnded, rfl, ?_⟩
      rw [hgot]
      rfl
    · refine ⟨hfirst, got ++ [], .failed err, rfl, ?_⟩
      rw [hgot]
      rfl
  · exact h.2
  · obtain ⟨hfirst, got, outcome, hmeans, hgot⟩ := h
    obtain ⟨first, hfirst⟩ := hfirst rfl
    refine ⟨first, false, false, got, outcome, hmeans, ?_⟩
    rw [connectTCP, hfirst]
    exact hgot
  · obtain ⟨got, outcome, hmeans, hgot⟩ := h
    by_cases hbad : result.err = none
    · refine ⟨got, false, false, [], outcome, hmeans, ?_⟩
      rw [connectTCP, hgot]
      cases outcome with
      | connected addr => rfl
      | failed err =>
          cases hbad.symm.trans hmeans
    · exact ⟨got, true, false, [], outcome, hmeans,
        explained_checked hbad hmeans hgot true (.inl rfl)⟩
  · obtain ⟨got, outcome, hmeans, hgot⟩ := h
    refine ⟨got, false, false, [], outcome, ?_,
      explained_checked hbad hmeans hgot false (.inr hrefused)⟩
    cases outcome with
    | connected addr => exact hmeans
    | failed err => exact hmeans
  · obtain ⟨got, outcome, hmeans, hgot⟩ := h
    refine ⟨got, ?_⟩
    cases outcome with
    | connected addr =>
        rw [hmeans.2] at hrefused
        cases hrefused
    | failed err =>
        cases hmeans.symm.trans hrefused
        exact hgot
  · exact ⟨fun _ => h, [], fun more => rfl⟩
  · obtain ⟨first, hfirst⟩ := h
    refine ⟨first, false, true, [], .failed .contextEnded, rfl, ?_⟩
    rw [connectTCP, hfirst]
    rfl

theorem explained_step (h : Explained addresses s.main) (hsound : Sound addresses s) {label : Step}
    (hstep : step addresses s label = some next) : Explained addresses next.main := by
  cases label with
  | dialer id action =>
      obtain ⟨old, new, hold, hnew, rfl⟩ := dialer_step_spec hstep
      exact h
  | handOver id => exact explained_handOver h hsound hstep
  | call call => exact explained_call h hstep
  | expire =>
      obtain ⟨-, rfl⟩ := expire_spec hstep
      exact h
  | expireAttempt attempt =>
      obtain ⟨-, rfl⟩ := expireAttempt_spec hstep
      exact h

end Refinement

section Leaks

-- What comes back: an error alone, or an open connection and the address it was made to.
structure Returned (addresses : List AddrPort) (s : State) (result : Result) : Prop where
  failed : result.err ≠ none → result.conn = none
  connected : ∀ id, result.conn = some id →
    (∃ dialer, s.dialer? id = some dialer ∧ dialer.conn = .open) ∧
      ∃ addr ∈ addresses, addresses[id.index]? = some addr ∧ result.addr = some addr

-- No goroutine is left, and of the connections that were opened only the returned one is.
structure Settled (labels : List Step) (s : State) : Prop where
  goroutines : ∀ id dialer, s.dialer? id = some dialer → dialer.phase = .ended
  connections : ∃ result, s.main = .returned result ∧
    ∀ id, .dialer id (.dialed none) ∈ labels → result.conn ≠ some id →
      ∃ dialer, s.dialer? id = some dialer ∧ dialer.conn = .closed

variable {addresses : List AddrPort} {s : State}

theorem Sound.returned (h : Sound addresses s) {result : Result}
    (hmain : s.main = .returned result) : Returned addresses s result := by
  have hresult := h.result result (by rw [hmain]; rfl)
  refine ⟨hresult.conn_of_err, fun id hid => ?_⟩
  obtain ⟨addr, haddr, hsame⟩ := hresult.addr id hid
  have hheld := h.held id (by rw [hmain]; exact hid)
  exact ⟨⟨_, hheld, rfl⟩, addr, List.mem_of_getElem? haddr, haddr, hsame⟩

theorem settled_of_stuck {labels : List Step}
    (hrun : runSteps (step addresses) (init addresses) labels = some s)
    (hstuck : ∀ label, step addresses s label = none) : Settled labels s := by
  obtain ⟨result, hmain⟩ := returned_of_stuck hstuck
  refine ⟨fun id dialer hid => ended_of_stuck hstuck hid, result, hmain, ?_⟩
  intro id hmem hother
  obtain ⟨dialer, hid, hopened⟩ := opened_of_mem hrun hmem
  have hsound := (Sound.of_run hrun).dialers id dialer hid
  have hended := ended_of_stuck hstuck hid
  refine ⟨dialer, hid, ?_⟩
  cases hconn : dialer.conn with
  | unopened => exact absurd hconn hopened
  | «open» =>
      rw [Dialer.Sound, hended] at hsound
      have hheld := hsound hconn
      rw [hmain] at hheld
      exact absurd hheld hother
  | closed => rfl

-- Every run is bounded, it can always be brought to an end, and where it has ended nothing
-- has leaked.
theorem connectTCP_leaks_nothing (addresses : List AddrPort) {labels : List Step} {s : State}
    (hrun : runSteps (step addresses) (init addresses) labels = some s) :
    labels.length ≤ 10 * addresses.length + 9 ∧
      (∀ result, s.main = .returned result → Returned addresses s result) ∧
      ((∀ label, step addresses s label = none) → Settled labels s) ∧
      ∃ more s', runSteps (step addresses) s more = some s' ∧ Settled (labels ++ more) s' := by
  have hlength := length_le_of_runSteps (fun _ _ _ hstep => weight_step hstep) hrun
  rw [weight_init] at hlength
  refine ⟨by omega, fun result hmain => (Sound.of_run hrun).returned hmain,
    settled_of_stuck hrun, ?_⟩
  obtain ⟨more, s', hmore, hstuck⟩ :=
    exists_runSteps_stuck (fun _ _ _ hstep => @weight_step addresses _ _ _ hstep) s
  have hwhole : runSteps (step addresses) (init addresses) (labels ++ more) = some s' := by
    rw [runSteps_append, hrun]
    exact hmore
  exact ⟨more, s', hmore, settled_of_stuck hwhole hstuck⟩

def twoAddresses : List AddrPort :=
  [⟨.v4 (BitVec.ofNat 32 0xC0000201), 443⟩, ⟨.v4 (BitVec.ofNat 32 0xC0000202), 443⟩]

def bothConnect : List Step :=
  [.dialer ⟨.first, 0⟩ .timer, .dialer ⟨.first, 0⟩ (.dialed none), .dialer ⟨.first, 1⟩ .timer,
    .dialer ⟨.first, 1⟩ (.dialed none), .handOver ⟨.first, 0⟩, .call .leave,
    .dialer ⟨.first, 1⟩ .drop, .call .check, .dialer ⟨.first, 1⟩ .close]

theorem both_connect_leaks_nothing :
    ∃ s, runSteps (step twoAddresses) (init twoAddresses) bothConnect = some s ∧
      s.main = .returned ⟨some ⟨.first, 0⟩, twoAddresses[0]?, none⟩ ∧
      Returned twoAddresses s ⟨some ⟨.first, 0⟩, twoAddresses[0]?, none⟩ := by
  have hread : ((runSteps (step twoAddresses) (init twoAddresses) bothConnect).any fun s =>
      decide (s.main = .returned ⟨some ⟨.first, 0⟩, twoAddresses[0]?, none⟩)) = true := by
    decide
  obtain ⟨s, hrun, hmain⟩ := (Option.any_eq_true _ _).mp hread
  rw [decide_eq_true_eq] at hmain
  exact ⟨s, hrun, hmain, (connectTCP_leaks_nothing twoAddresses hrun).2.1 _ hmain⟩

end Leaks

end OpenvpnServer.Relay.Race
