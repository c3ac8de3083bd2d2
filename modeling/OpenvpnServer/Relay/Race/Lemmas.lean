import OpenvpnServer.Relay.Race

namespace OpenvpnServer.Relay.Race

open OpenvpnServer.Lib OpenvpnServer.Lib.Netip

section Table

variable {s : State} {id other : ConnId} {dialer old : Dialer}

theorem dialer?_setDialer_self (h : s.dialer? id = some old) :
    (s.setDialer id dialer).dialer? id = some dialer := by
  have hlt : id.index < (s.dialers id.attempt).length := (List.getElem?_eq_some_iff.mp h).1
  simp only [State.dialer?, State.setDialer, Function.update_self]
  exact List.getElem?_set_self hlt

theorem dialer?_setDialer_ne (h : other ≠ id) :
    (s.setDialer id dialer).dialer? other = s.dialer? other := by
  simp only [State.dialer?, State.setDialer]
  by_cases hattempt : other.attempt = id.attempt
  · have hindex : id.index ≠ other.index := by
      intro heq
      apply h
      cases other
      cases id
      simp_all
    rw [hattempt, Function.update_self, List.getElem?_set_ne hindex]
  · rw [Function.update_of_ne hattempt]

theorem dialers_setDialer_of_ne {attempt : Attempt} (h : attempt ≠ id.attempt) :
    (s.setDialer id dialer).dialers attempt = s.dialers attempt :=
  Function.update_of_ne h _ _

theorem length_setDialer (attempt : Attempt) :
    ((s.setDialer id dialer).dialers attempt).length = (s.dialers attempt).length := by
  by_cases hattempt : attempt = id.attempt
  · subst hattempt
    simp only [State.setDialer, Function.update_self, List.length_set]
  · rw [dialers_setDialer_of_ne hattempt]

end Table

section Inversion

variable {addresses : List AddrPort} {s next : State}

theorem handOver_spec {id : ConnId} (h : handOver addresses s id = some next) :
    ∃ turns last err conn, s.main = .receiving id.attempt (turns + 1) last ∧
      s.dialer? id = some ⟨.offering err, conn⟩ ∧
      next = { s.setDialer id ⟨.ended, conn⟩ with main := receive addresses id turns err } := by
  unfold handOver at h
  split at h
  · rename_i attempt turns last err conn hmain hdialer
    split at h
    · rename_i hattempt
      subst hattempt
      cases h
      exact ⟨turns, last, err, conn, hmain, hdialer, rfl⟩
    · cases h
  · cases h

theorem callStep_spec {call : Call} (h : callStep addresses s call = some next) :
    (∃ attempt turns last err, s.main = .receiving attempt turns last ∧
      (turns ≠ 0 ∧ err = .contextEnded ∨ turns = 0 ∧ err = last) ∧
      next = { s with main := .leaving attempt (.failed err) }) ∨
    (∃ result, s.main = .leaving .first result ∧
      next = { s.cancel .first with main := .checking result }) ∨
    (∃ result, s.main = .leaving .second result ∧
      next = { s.cancel .second with main := .returned result, expired := true }) ∨
    (∃ result, s.main = .checking result ∧ (result.err = none ∨ s.expired = true) ∧
      next = { s with main := .returned result, expired := true }) ∨
    (∃ result, s.main = .checking result ∧ result.err ≠ none ∧ result.err ≠ some .refused ∧
      next = { s with main := .returned ⟨none, result.addr, result.err⟩, expired := true }) ∨
    (∃ result, s.main = .checking result ∧ result.err = some .refused ∧
      next = { s with main := .pausing }) ∨
    (s.main = .pausing ∧ next = { s with
      dialers := Function.update s.dialers .second (started addresses)
      done := Function.update s.done .second s.expired
      main := .receiving .second addresses.length .noDestination }) ∨
    (s.main = .pausing ∧ s.expired = true ∧
      next = { s with main := .returned (.failed .contextEnded) }) := by
  cases call with
  | cancelled =>
      simp only [callStep] at h
      split at h
      · rename_i attempt turns last hmain
        split at h
        · cases h
          exact .inl ⟨attempt, turns + 1, last, _, hmain, .inl ⟨by simp, rfl⟩, rfl⟩
        · cases h
      · cases h
  | exhausted =>
      simp only [callStep] at h
      split at h
      · rename_i attempt last hmain
        cases h
        exact .inl ⟨attempt, 0, last, _, hmain, .inr ⟨rfl, rfl⟩, rfl⟩
      · cases h
  | leave =>
      simp only [callStep] at h
      split at h
      · rename_i result hmain
        cases h
        exact .inr (.inl ⟨result, hmain, rfl⟩)
      · rename_i result hmain
        cases h
        exact .inr (.inr (.inl ⟨result, hmain, rfl⟩))
      · cases h
  | check =>
      simp only [callStep] at h
      split at h
      · rename_i result hmain
        split at h
        · rename_i hover
          cases h
          exact .inr (.inr (.inr (.inl ⟨result, hmain, hover, rfl⟩)))
        · rename_i hgood
          rw [not_or] at hgood
          split at h
          · rename_i hrefused
            cases h
            exact .inr (.inr (.inr (.inr (.inl ⟨result, hmain, hgood.1, hrefused, rfl⟩))))
          · rename_i hrefused
            cases h
            exact .inr (.inr (.inr (.inr (.inr (.inl ⟨result, hmain, not_not.mp hrefused, rfl⟩)))))
      · cases h
  | retry =>
      simp only [callStep] at h
      split at h
      · rename_i hmain
        cases h
        exact .inr (.inr (.inr (.inr (.inr (.inr (.inl ⟨hmain, rfl⟩))))))
      · cases h
  | giveUp =>
      simp only [callStep] at h
      split at h
      · rename_i hmain
        split at h
        · rename_i hexpired
          cases h
          exact .inr (.inr (.inr (.inr (.inr (.inr (.inr ⟨hmain, hexpired, rfl⟩))))))
        · cases h
      · cases h

theorem dialer_step_spec {id : ConnId} {action : Action}
    (h : step addresses s (.dialer id action) = some next) :
    ∃ old new, s.dialer? id = some old ∧ dialerStep (s.done id.attempt) old action = some new ∧
      next = s.setDialer id new := by
  obtain ⟨new, hnew, rfl⟩ := Option.map_eq_some_iff.mp h
  obtain ⟨old, hold, hstep⟩ := Option.bind_eq_some_iff.mp hnew
  exact ⟨old, new, hold, hstep, rfl⟩

theorem expire_spec (h : step addresses s .expire = some next) :
    s.expired = false ∧ next = { s with expired := true } := by
  simp only [step] at h
  split at h
  · cases h
  · rename_i hexpired
    cases h
    exact ⟨by simpa using hexpired, rfl⟩

theorem expireAttempt_spec {attempt : Attempt}
    (h : step addresses s (.expireAttempt attempt) = some next) :
    s.done attempt = false ∧ next = s.cancel attempt := by
  simp only [step] at h
  split at h
  · cases h
  · rename_i hdone
    cases h
    exact ⟨by simpa using hdone, rfl⟩

end Inversion

section Invariant

-- A goroutine's connection is open from the dial on until it is closed or handed over.
def Dialer.Sound (held : Prop) (dialer : Dialer) : Prop :=
  match dialer.phase with
  | .waiting | .dialing | .offering (some _) => dialer.conn = .unopened
  | .offering none | .closing => dialer.conn = .open
  | .ended => dialer.conn = .open → held

theorem Dialer.Sound.mono {held held' : Prop} {dialer : Dialer} (h : dialer.Sound held)
    (himp : held → held') : dialer.Sound held' := by
  unfold Dialer.Sound at h ⊢
  split at h
  all_goals simp_all

theorem Dialer.Sound.step {held : Prop} {done : Bool} {old new : Dialer} {action : Action}
    (h : old.Sound held) (hstep : dialerStep done old action = some new) : new.Sound held := by
  unfold Dialer.Sound at h
  unfold dialerStep at hstep
  split at hstep
  · split at hstep
    · rename_i hphase
      rw [hphase] at h
      cases hstep
      exact h
    · cases hstep
  · split at hstep
    · rename_i hphase
      rw [hphase.1] at h
      cases hstep
      intro hopen
      rw [h] at hopen
      cases hopen
    · cases hstep
  · split at hstep
    · cases hstep
      rfl
    · cases hstep
  · split at hstep
    · rename_i hphase
      rw [hphase] at h
      cases hstep
      exact h
    · cases hstep
  · split at hstep
    · rename_i hphase
      rw [hphase] at h
      split at hstep
      · cases hstep
        exact h
      · cases hstep
    · rename_i hphase
      rw [hphase] at h
      split at hstep
      · cases hstep
        intro hopen
        rw [h] at hopen
        cases hopen
      · cases hstep
    · cases hstep
  · split at hstep
    · cases hstep
      intro hopen
      cases hopen
    · cases hstep

theorem dialerStep_ended {done : Bool} {dialer : Dialer} (h : dialer.phase = .ended)
    (action : Action) : dialerStep done dialer action = none := by
  unfold dialerStep
  split <;> simp [h]

def Main.result : Main → Option Result
  | .receiving _ _ _ | .pausing => none
  | .leaving _ result | .checking result | .returned result => some result

def Main.conn (main : Main) : Option ConnId := main.result.bind Result.conn

def Main.beforeRetry : Main → Prop
  | .receiving attempt _ _ | .leaving attempt _ => attempt = .first
  | .checking _ | .pausing => True
  | .returned _ => False

-- A connection comes with the address it was made to, an error without a connection.
structure Result.Sound (addresses : List AddrPort) (result : Result) : Prop where
  conn_of_err : result.err ≠ none → result.conn = none
  err_of_conn : result.err = none → result.conn ≠ none
  addr : ∀ id, result.conn = some id →
    ∃ addr, addresses[id.index]? = some addr ∧ result.addr = some addr

structure Sound (addresses : List AddrPort) (s : State) : Prop where
  dialers : ∀ id dialer, s.dialer? id = some dialer → dialer.Sound (s.main.conn = some id)
  held : ∀ id, s.main.conn = some id → s.dialer? id = some ⟨.ended, .open⟩
  result : ∀ result, s.main.result = some result → result.Sound addresses
  unstarted : s.main.beforeRetry → s.dialers .second = []
  sized : ∀ attempt, (s.dialers attempt).length ≤ addresses.length

variable {addresses : List AddrPort} {s next : State}

theorem Result.sound_failed (err : DialError) : (Result.failed err).Sound addresses where
  conn_of_err := fun _ => rfl
  err_of_conn := fun h => by cases h
  addr := fun id h => by cases h

theorem sound_init (addresses : List AddrPort) : Sound addresses (init addresses) where
  dialers := by
    intro id dialer h
    have hdialer : dialer = ⟨.waiting, .unopened⟩ := by
      have hmem := List.mem_of_getElem? h
      cases hattempt : id.attempt with
      | first =>
          rw [hattempt] at hmem
          obtain ⟨_, _, rfl⟩ := List.mem_map.mp hmem
          rfl
      | second =>
          rw [hattempt] at hmem
          cases hmem
    rw [hdialer]
    rfl
  held := fun id h => by cases h
  result := fun result h => by cases h
  unstarted := fun _ => rfl
  sized := by
    intro attempt
    cases attempt with
    | first => exact Nat.le_of_eq (List.length_map _)
    | second => exact Nat.zero_le _

theorem Sound.withMain (h : Sound addresses s) (hdialers : next.dialers = s.dialers)
    (hconn : next.main.conn = s.main.conn)
    (hresult : ∀ result, next.main.result = some result → result.Sound addresses)
    (hbefore : next.main.beforeRetry → s.main.beforeRetry) : Sound addresses next := by
  have hdialer (id : ConnId) : next.dialer? id = s.dialer? id := by
    rw [State.dialer?, hdialers]
    rfl
  constructor
  · intro id dialer hid
    rw [hconn]
    exact h.dialers id dialer ((hdialer id).symm.trans hid)
  · intro id hid
    rw [hdialer]
    exact h.held id (hconn.symm.trans hid)
  · exact hresult
  · intro hnext
    rw [hdialers]
    exact h.unstarted (hbefore hnext)
  · intro attempt
    rw [hdialers]
    exact h.sized attempt

theorem second_ne_of_unstarted (h : Sound addresses s) (hbefore : s.main.beforeRetry)
    {id : ConnId} {dialer : Dialer} (hid : s.dialer? id = some dialer) :
    Attempt.second ≠ id.attempt := by
  intro hattempt
  rw [State.dialer?, ← hattempt, h.unstarted hbefore] at hid
  cases hid

theorem Sound.dialer (h : Sound addresses s) {id : ConnId} {action : Action}
    (hstep : step addresses s (.dialer id action) = some next) : Sound addresses next := by
  obtain ⟨old, new, hold, hnew, rfl⟩ := dialer_step_spec hstep
  constructor
  · intro other dialer hother
    by_cases heq : other = id
    · subst heq
      rw [dialer?_setDialer_self hold] at hother
      cases hother
      exact (h.dialers other old hold).step hnew
    · rw [dialer?_setDialer_ne heq] at hother
      exact h.dialers other dialer hother
  · intro other hother
    have hended := h.held other hother
    have hne : other ≠ id := by
      rintro rfl
      cases hold.symm.trans hended
      rw [dialerStep_ended rfl] at hnew
      cases hnew
    rw [dialer?_setDialer_ne hne]
    exact hended
  · exact h.result
  · intro hbefore
    rw [dialers_setDialer_of_ne (second_ne_of_unstarted h hbefore hold)]
    exact h.unstarted hbefore
  · intro attempt
    rw [length_setDialer]
    exact h.sized attempt

theorem Sound.handOver (h : Sound addresses s) {id : ConnId}
    (hstep : step addresses s (.handOver id) = some next) : Sound addresses next := by
  obtain ⟨turns, last, err, conn, hmain, hold, rfl⟩ := handOver_spec hstep
  have hconn : s.main.conn = none := by
    rw [hmain]
    rfl
  have hopen := h.dialers id _ hold
  have hdialer (other : ConnId) (hne : other ≠ id) :
      (s.setDialer id ⟨.ended, conn⟩).dialer? other = s.dialer? other :=
    dialer?_setDialer_ne hne
  have hself : (s.setDialer id ⟨.ended, conn⟩).dialer? id = some ⟨.ended, conn⟩ :=
    dialer?_setDialer_self hold
  have hbefore (hbefore : (receive addresses id turns err).beforeRetry) : s.main.beforeRetry := by
    rw [hmain]
    cases err with
    | none => exact hbefore
    | some err => exact hbefore
  refine ⟨?_, ?_, ?_, ?_, ?_⟩
  · intro other dialer hother
    by_cases heq : other = id
    · subst heq
      cases hself.symm.trans hother
      cases err with
      | none => exact fun _ => rfl
      | some err =>
          intro hclosed
          rw [show conn = .unopened from hopen] at hclosed
          cases hclosed
    · have hsound := h.dialers other dialer ((hdialer other heq).symm.trans hother)
      exact hsound.mono fun hheld => by
        rw [hconn] at hheld
        cases hheld
  · intro other hother
    cases err with
    | none =>
        cases hother
        refine hself.trans ?_
        rw [show conn = .open from hopen]
    | some err => cases hother
  · intro result hresult
    cases err with
    | none =>
        cases hresult
        have hlt : id.index < addresses.length :=
          Nat.lt_of_lt_of_le (List.getElem?_eq_some_iff.mp hold).1 (h.sized id.attempt)
        refine ⟨fun herr => absurd rfl herr, fun _ => by simp, ?_⟩
        intro other hother
        cases hother
        exact ⟨_, List.getElem?_eq_getElem hlt, List.getElem?_eq_getElem hlt⟩
    | some err => cases hresult
  · intro hnext
    refine (dialers_setDialer_of_ne
      (second_ne_of_unstarted h (hbefore hnext) hold)).trans (h.unstarted (hbefore hnext))
  · intro attempt
    exact (Nat.le_of_eq (length_setDialer attempt)).trans (h.sized attempt)

theorem Sound.retry (h : Sound addresses s) (hmain : s.main = .pausing) :
    Sound addresses { s with
      dialers := Function.update s.dialers .second (started addresses)
      done := Function.update s.done .second s.expired
      main := .receiving .second addresses.length .noDestination } := by
  have hconn : s.main.conn = none := by
    rw [hmain]
    rfl
  refine ⟨?_, fun id hid => (by cases hid), fun result hresult => (by cases hresult),
    fun hbefore => (by cases hbefore), ?_⟩
  · intro id dialer hid
    cases hattempt : id.attempt with
    | first =>
        rw [State.dialer?, hattempt] at hid
        have hold : s.dialer? id = some dialer := by
          rw [State.dialer?, hattempt]
          exact hid
        exact (h.dialers id dialer hold).mono fun hheld => by
          rw [hconn] at hheld
          cases hheld
    | second =>
        rw [State.dialer?, hattempt] at hid
        obtain ⟨_, _, rfl⟩ := List.mem_map.mp (List.mem_of_getElem? hid)
        rfl
  · intro attempt
    cases attempt with
    | first => exact h.sized .first
    | second => exact Nat.le_of_eq (List.length_map _)

theorem Sound.call (h : Sound addresses s) {call : Call}
    (hstep : step addresses s (.call call) = some next) : Sound addresses next := by
  have hresult (result : Result) (hmain : s.main.result = some result) := h.result result hmain
  rcases callStep_spec hstep with ⟨attempt, turns, last, err, hmain, -, rfl⟩ |
    ⟨result, hmain, rfl⟩ | ⟨result, hmain, rfl⟩ | ⟨result, hmain, -, rfl⟩ |
    ⟨result, hmain, herr, -, rfl⟩ | ⟨result, hmain, hrefused, rfl⟩ | ⟨hmain, rfl⟩ |
    ⟨hmain, -, rfl⟩
  · refine h.withMain rfl (by rw [hmain]; rfl) ?_ (by rw [hmain]; exact id)
    intro result hresult
    cases hresult
    exact Result.sound_failed err
  · refine h.withMain rfl (by rw [hmain]; rfl) ?_ (by rw [hmain]; exact fun _ => rfl)
    intro other hother
    cases hother
    exact hresult result (by rw [hmain]; rfl)
  · refine h.withMain rfl (by rw [hmain]; rfl) ?_ False.elim
    intro other hother
    cases hother
    exact hresult result (by rw [hmain]; rfl)
  · refine h.withMain rfl (by rw [hmain]; rfl) ?_ False.elim
    intro other hother
    cases hother
    exact hresult result (by rw [hmain]; rfl)
  · have hsound := hresult result (by rw [hmain]; rfl)
    refine h.withMain rfl ?_ ?_ False.elim
    · rw [hmain]
      exact (hsound.conn_of_err herr).symm
    · intro other hother
      cases hother
      exact ⟨fun _ => rfl, fun hnone => absurd hnone herr, fun id hid => by cases hid⟩
  · have hsound := hresult result (by rw [hmain]; rfl)
    refine h.withMain rfl ?_ (fun other hother => by cases hother) (by rw [hmain]; exact id)
    rw [hmain]
    exact (hsound.conn_of_err (by simp [hrefused])).symm
  · exact h.retry hmain
  · refine h.withMain rfl (by rw [hmain]; rfl) ?_ False.elim
    intro other hother
    cases hother
    exact Result.sound_failed _

theorem Sound.step (h : Sound addresses s) {label : Step}
    (hstep : step addresses s label = some next) : Sound addresses next := by
  cases label with
  | dialer id action => exact h.dialer hstep
  | handOver id => exact h.handOver hstep
  | call call => exact h.call hstep
  | expire =>
      obtain ⟨-, rfl⟩ := expire_spec hstep
      exact h.withMain rfl rfl h.result id
  | expireAttempt attempt =>
      obtain ⟨-, rfl⟩ := expireAttempt_spec hstep
      exact h.withMain rfl rfl h.result id

theorem Sound.of_run {labels : List Step}
    (hrun : runSteps (Race.step addresses) (init addresses) labels = some s) :
    Sound addresses s :=
  (Reaches.of_runSteps hrun (AllowedRun.of_runSteps hrun)).invariant
    (fun _ _ _ h _ hstep => h.step hstep) (sound_init addresses)

end Invariant

section Opened

variable {addresses : List AddrPort} {s next : State}

def Opened (id : ConnId) (s : State) : Prop :=
  ∃ dialer, s.dialer? id = some dialer ∧ dialer.conn ≠ .unopened

theorem conn_dialerStep {done : Bool} {old new : Dialer} {action : Action}
    (hstep : dialerStep done old action = some new) (hold : old.conn ≠ .unopened) :
    new.conn ≠ .unopened := by
  unfold dialerStep at hstep
  repeat' split at hstep
  all_goals first
    | cases hstep
      exact hold
    | cases hstep
      simp
    | cases hstep

theorem Opened.step {id : ConnId} (h : Opened id s) (hsound : Sound addresses s) {label : Step}
    (hstep : step addresses s label = some next) : Opened id next := by
  obtain ⟨dialer, hid, hconn⟩ := h
  cases label with
  | dialer other action =>
      obtain ⟨old, new, hold, hnew, rfl⟩ := dialer_step_spec hstep
      by_cases heq : id = other
      · subst heq
        cases hid.symm.trans hold
        exact ⟨new, dialer?_setDialer_self hold, conn_dialerStep hnew hconn⟩
      · exact ⟨dialer, (dialer?_setDialer_ne heq).trans hid, hconn⟩
  | handOver other =>
      obtain ⟨turns, last, err, conn, hmain, hold, rfl⟩ := handOver_spec hstep
      by_cases heq : id = other
      · subst heq
        cases hid.symm.trans hold
        exact ⟨⟨.ended, conn⟩, dialer?_setDialer_self hold, hconn⟩
      · exact ⟨dialer, (dialer?_setDialer_ne heq).trans hid, hconn⟩
  | call call =>
      rcases callStep_spec hstep with ⟨_, _, _, _, _, _, rfl⟩ | ⟨_, _, rfl⟩ | ⟨_, _, rfl⟩ |
        ⟨_, _, _, rfl⟩ | ⟨_, _, _, _, rfl⟩ | ⟨_, _, _, rfl⟩ | ⟨hmain, rfl⟩ | ⟨_, _, rfl⟩
      case inr.inr.inr.inr.inr.inr.inl =>
        -- the second attempt has no goroutines before it is started
        have hbefore : s.main.beforeRetry := by
          rw [hmain]
          trivial
        have hne := second_ne_of_unstarted hsound hbefore hid
        refine ⟨dialer, ?_, hconn⟩
        rw [State.dialer?] at hid ⊢
        dsimp only
        rw [Function.update_of_ne hne.symm]
        exact hid
      all_goals exact ⟨dialer, hid, hconn⟩
  | expire =>
      obtain ⟨-, rfl⟩ := expire_spec hstep
      exact ⟨dialer, hid, hconn⟩
  | expireAttempt attempt =>
      obtain ⟨-, rfl⟩ := expireAttempt_spec hstep
      exact ⟨dialer, hid, hconn⟩

theorem opened_of_dialed {id : ConnId}
    (hstep : step addresses s (.dialer id (.dialed none)) = some next) : Opened id next := by
  obtain ⟨old, new, hold, hnew, rfl⟩ := dialer_step_spec hstep
  refine ⟨new, dialer?_setDialer_self hold, ?_⟩
  simp only [dialerStep] at hnew
  split at hnew
  · cases hnew
    simp
  · cases hnew

theorem opened_of_mem {labels : List Step} {id : ConnId}
    (hrun : runSteps (step addresses) (init addresses) labels = some s)
    (hmem : .dialer id (.dialed none) ∈ labels) : Opened id s := by
  obtain ⟨before, after, rfl⟩ := List.append_of_mem hmem
  rw [runSteps_append] at hrun
  obtain ⟨middle, hbefore, hrun⟩ := Option.bind_eq_some_iff.mp hrun
  rw [runSteps] at hrun
  cases hdial : step addresses middle (.dialer id (.dialed none)) with
  | none =>
      rw [hdial] at hrun
      cases hrun
  | some dialed =>
      rw [hdial] at hrun
      have hsound := (Sound.of_run hbefore).step hdial
      have hreaches := Reaches.of_runSteps hrun (AllowedRun.of_runSteps hrun)
      exact (hreaches.invariant (P := fun s => Sound addresses s ∧ Opened id s)
        (fun _ _ _ h _ hstep => ⟨h.1.step hstep, h.2.step h.1 hstep⟩)
        ⟨hsound, opened_of_dialed hdial⟩).2

end Opened

end OpenvpnServer.Relay.Race
