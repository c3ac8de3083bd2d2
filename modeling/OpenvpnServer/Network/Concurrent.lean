import OpenvpnServer.Lib.Serial
import OpenvpnServer.Network.AddressPlan.Theorems

-- The requests of several users at once. What runs under `pki.lock` is one step:
-- all of a request, except that `save_settings` validates before it takes the
-- lock.
namespace OpenvpnServer.Network

open OpenvpnServer.Lib OpenvpnServer.Lib.Ipaddress OpenvpnServer.Lib.Netip

inductive Request where
  | setStaticIp (name : Text) (ip : Option Text)
  | setGuest (name : Text) (guest : Bool)
  | createClient (body : NewClient)
  | saveSettings (body : NetworkSettings)

-- The certificates behind `create_client`: what they answer to it and how it
-- changes them.
structure Pki (π : Type) where
  answer : π → NewClient → PkiAnswer
  after : π → NewClient → AddressState → π

structure Shared (π : Type) where
  files : AddressState
  certs : π
  deriving DecidableEq

inductive Phase where
  | waiting
  | validated (data : NetworkSettings)
  | done (refused : Bool)
  deriving DecidableEq

def Phase.outcome : Phase → Option Bool
  | .done refused => some refused
  | _ => none

structure Interleaved (π : Type) (n : Nat) where
  shared : Shared π
  phase : Fin n → Phase

section Machine

variable {π : Type} (host : Host) (pki : Pki π)

def Request.operation (certs : π) : Request → Operation
  | .setStaticIp name ip => .setStaticIp name ip
  | .setGuest name guest => .setGuest name guest
  | .createClient body => .createClient body (pki.answer certs body)
  | .saveSettings body => .saveSettings body

def Request.certsAfter (s : Shared π) : Request → π
  | .createClient body => pki.after s.certs body s.files
  | _ => s.certs

def Request.exec (request : Request) (s : Shared π) : Shared π × Bool :=
  match (request.operation pki s.certs).run host s.files with
  | .ok files => (⟨files, request.certsAfter pki s⟩, false)
  | .error _ => (⟨s.files, request.certsAfter pki s⟩, true)

variable {n : Nat} (requests : Fin n → Request)

def Interleaved.start (init : Shared π) : Interleaved π n := ⟨init, fun _ => .waiting⟩

def Interleaved.finish (s : Interleaved π n) (i : Fin n) (result : Shared π × Bool) :
    Interleaved π n :=
  ⟨result.1, Function.update s.phase i (.done result.2)⟩

def requestStep (s : Interleaved π n) (i : Fin n) : Option (Interleaved π n) :=
  match s.phase i with
  | .done _ => none
  | .validated data =>
      match writeSettings data s.shared.files with
      | .ok files => some (s.finish i ({ s.shared with files := files }, false))
      | .error _ => some (s.finish i (s.shared, true))
  | .waiting =>
      match requests i with
      | .saveSettings body =>
          match validateSettings host body s.shared.files with
          | .ok data => some { s with phase := Function.update s.phase i (.validated data) }
          | .error _ => some (s.finish i (s.shared, true))
      | request => some (s.finish i (request.exec host pki s.shared))

-- A save writes only where its settings would still be accepted, that is, where
-- the static addresses at that moment fit them.
def staysValid (s : Interleaved π n) (i : Fin n) : Prop :=
  match s.phase i, requests i with
  | .validated _, .saveSettings body => (validateSettings host body s.shared.files).isOk = true
  | _, _ => True

-- The condition of a save that `address_plan_stays_consistent` has.
def keepsPlan (s : Interleaved π n) (i : Fin n) : Prop :=
  match s.phase i, requests i with
  | .validated _, .saveSettings body => unbrokenProxies body ∧ optionsAgree s.shared.files.serverConf
  | _, _ => True

instance (s : Interleaved π n) (i : Fin n) : Decidable (staysValid host requests s i) := by
  unfold staysValid
  split <;> infer_instance

instance (s : Interleaved π n) (i : Fin n) : Decidable (keepsPlan requests s i) := by
  unfold keepsPlan
  split <;> infer_instance

end Machine

section Validation

theorem validate_of_ok {python : Python} {staticIps : List Text} {body data : NetworkSettings}
    (h : validate python staticIps body = .ok data) : validate python [] body = .ok data := by
  unfold validate at h ⊢
  obtain ⟨addressed, haddressed, h⟩ := exists_of_bind h
  have hempty : validateAddressing [] body = .ok addressed := by
    unfold validateAddressing at haddressed ⊢
    split at haddressed
    · obtain ⟨⟨⟩, -, haddressed⟩ := exists_of_bind haddressed
      exact haddressed
    · cases haddressed
  rw [hempty]
  exact h

theorem validateSettings_unique {host : Host} {body : NetworkSettings} {s t : AddressState}
    {data other : NetworkSettings} (h : validateSettings host body s = .ok data)
    (hother : validateSettings host body t = .ok other) : data = other := by
  have hempty : ∀ {u : AddressState} {result : NetworkSettings},
      validateSettings host body u = .ok result → validate host.python [] body = .ok result := by
    intro u result hu
    unfold validateSettings at hu
    split at hu
    · cases hu
    · rename_i hvalidate
      cases hu
      exact validate_of_ok hvalidate
  have hsame := hempty h
  rw [hempty hother] at hsame
  cases hsame
  rfl

end Validation

section Serializable

variable {π : Type} {host : Host} {pki : Pki π} {n : Nat} {requests : Fin n → Request}
  {s next : Interleaved π n} {i : Fin n}

theorem exec_saveSettings (body : NetworkSettings) (shared : Shared π) :
    (Request.saveSettings body).exec host pki shared =
      match saveSettings host body shared.files with
      | .ok files => ({ shared with files := files }, false)
      | .error _ => (shared, true) := by
  unfold Request.exec Request.operation Request.certsAfter Operation.run
  rfl

def WaitsForLock (host : Host) (requests : Fin n → Request) (s : Interleaved π n) : Prop :=
  ∀ i data, s.phase i = .validated data →
    ∃ body files, requests i = .saveSettings body ∧ validateSettings host body files = .ok data

theorem requestStep_spec (hwaits : WaitsForLock host requests s)
    (hvalid : staysValid host requests s i)
    (hstep : requestStep host pki requests s i = some next) :
    (∃ body data, requests i = .saveSettings body ∧
      validateSettings host body s.shared.files = .ok data ∧ s.phase i = .waiting ∧
      next = { s with phase := Function.update s.phase i (.validated data) }) ∨
    ((s.phase i).outcome = none ∧ next = s.finish i ((requests i).exec host pki s.shared) ∧
      ∀ body, requests i = .saveSettings body → s.phase i = .waiting →
        ((requests i).exec host pki s.shared).2 = true) := by
  unfold requestStep at hstep
  cases hphase : s.phase i with
  | done refused =>
      rw [hphase] at hstep
      cases hstep
  | validated data =>
      right
      obtain ⟨body, files, hrequest, haccepted⟩ := hwaits i data hphase
      unfold staysValid at hvalid
      rw [hphase, hrequest] at hvalid
      dsimp only at hvalid
      cases hnow : validateSettings host body s.shared.files with
      | error refusal =>
          rw [hnow] at hvalid
          cases hvalid
      | ok other =>
          -- what was validated before the lock is what would be now
          have hsame : other = data := validateSettings_unique hnow haccepted
          subst hsame
          have hsave : saveSettings host body s.shared.files = writeSettings other s.shared.files := by
            unfold saveSettings
            rw [hnow]
            rfl
          refine ⟨rfl, ?_, fun _ _ hwaiting => by cases hwaiting⟩
          rw [hphase] at hstep
          dsimp only at hstep
          rw [hrequest, exec_saveSettings, hsave]
          cases hwrite : writeSettings other s.shared.files with
          | error refusal =>
              rw [hwrite] at hstep
              cases hstep
              rfl
          | ok written =>
              rw [hwrite] at hstep
              cases hstep
              rfl
  | waiting =>
      rw [hphase] at hstep
      dsimp only at hstep
      cases hrequest : requests i with
      | saveSettings body =>
          rw [hrequest] at hstep
          dsimp only at hstep
          cases hnow : validateSettings host body s.shared.files with
          | ok data =>
              rw [hnow] at hstep
              cases hstep
              exact .inl ⟨body, data, rfl, hnow, rfl, rfl⟩
          | error refusal =>
              right
              have hsave : saveSettings host body s.shared.files = .error refusal := by
                unfold saveSettings
                rw [hnow]
                rfl
              rw [hnow] at hstep
              cases hstep
              rw [exec_saveSettings, hsave]
              exact ⟨rfl, rfl, fun _ _ _ => rfl⟩
      | setStaticIp name ip =>
          rw [hrequest] at hstep
          cases hstep
          exact .inr ⟨rfl, rfl, fun _ hsave => by cases hsave⟩
      | setGuest name guest =>
          rw [hrequest] at hstep
          cases hstep
          exact .inr ⟨rfl, rfl, fun _ hsave => by cases hsave⟩
      | createClient body =>
          rw [hrequest] at hstep
          cases hstep
          exact .inr ⟨rfl, rfl, fun _ hsave => by cases hsave⟩

theorem WaitsForLock.step (hwaits : WaitsForLock host requests s)
    (hvalid : staysValid host requests s i)
    (hstep : requestStep host pki requests s i = some next) : WaitsForLock host requests next := by
  intro j data hj
  rcases requestStep_spec hwaits hvalid hstep with
    ⟨body, accepted, hrequest, haccepted, -, rfl⟩ | ⟨-, rfl, -⟩
  · dsimp only at hj
    by_cases hij : j = i
    · subst hij
      rw [Function.update_self, Phase.validated.injEq] at hj
      subst hj
      exact ⟨body, s.shared.files, hrequest, haccepted⟩
    · rw [Function.update_of_ne hij] at hj
      exact hwaits j data hj
  · dsimp only [Interleaved.finish] at hj
    by_cases hij : j = i
    · subst hij
      rw [Function.update_self] at hj
      cases hj
    · rw [Function.update_of_ne hij] at hj
      exact hwaits j data hj

theorem outcome_update (phase : Fin n → Phase) (i : Fin n) (p : Phase) :
    (fun j => (Function.update phase i p j).outcome) =
      Function.update (fun j => (phase j).outcome) i p.outcome := by
  funext j
  by_cases hij : j = i
  · subst hij
    simp
  · rw [Function.update_of_ne hij, Function.update_of_ne hij]

def Serialized (host : Host) (pki : Pki π) (requests : Fin n → Request) (init : Shared π)
    (s : Interleaved π n) : Prop :=
  WaitsForLock host requests s ∧ Committed (fun j => (requests j).exec host pki) init s.shared
    fun j => (s.phase j).outcome

theorem Serialized.step {init : Shared π} (h : Serialized host pki requests init s)
    (hvalid : staysValid host requests s i)
    (hstep : requestStep host pki requests s i = some next) :
    Serialized host pki requests init next := by
  obtain ⟨hwaits, hcommitted⟩ := h
  refine ⟨hwaits.step hvalid hstep, ?_⟩
  rcases requestStep_spec hwaits hvalid hstep with
    ⟨body, data, -, -, hphase, rfl⟩ | ⟨houtcome, rfl, -⟩
  · have hsame : Function.update (fun j => (s.phase j).outcome) i none =
        fun j => (s.phase j).outcome := by
      rw [Function.update_eq_self_iff, hphase]
      rfl
    rw [outcome_update]
    change Committed _ init s.shared (Function.update (fun j => (s.phase j).outcome) i none)
    rw [hsame]
    exact hcommitted
  · unfold Interleaved.finish
    rw [outcome_update]
    exact hcommitted.commit houtcome

theorem waitsForLock_start (init : Shared π) :
    WaitsForLock host requests (Interleaved.start init) := by
  intro i data hphase
  cases hphase

theorem serialized_start (init : Shared π) :
    Serialized host pki requests init (Interleaved.start init) :=
  ⟨waitsForLock_start init, Committed.start init⟩

theorem exec_consistent {request : Request} {shared : Shared π}
    (h : Consistent host shared.files)
    (hallowed : (request.exec host pki shared).2 = false →
      planAllowed shared.files (request.operation pki shared.certs)) :
    Consistent host (request.exec host pki shared).1.files := by
  unfold Request.exec at hallowed ⊢
  cases hrun : (request.operation pki shared.certs).run host shared.files with
  | error refusal => exact h
  | ok files =>
      rw [hrun] at hallowed
      exact run_consistent host h (hallowed rfl) hrun

theorem requestStep_consistent (hwaits : WaitsForLock host requests s)
    (h : Consistent host s.shared.files) (hvalid : staysValid host requests s i)
    (hkeeps : keepsPlan requests s i) (hstep : requestStep host pki requests s i = some next) :
    Consistent host next.shared.files := by
  rcases requestStep_spec hwaits hvalid hstep with
    ⟨body, data, -, -, -, rfl⟩ | ⟨houtcome, rfl, hrefused⟩
  · exact h
  · refine exec_consistent h fun haccepted => ?_
    cases hrequest : requests i with
    | setStaticIp name ip => trivial
    | setGuest name guest => trivial
    | createClient body => trivial
    | saveSettings body =>
        unfold keepsPlan at hkeeps
        cases hphase : s.phase i with
        | done refused =>
            rw [hphase] at houtcome
            cases houtcome
        | waiting =>
            rw [hrefused body hrequest hphase] at haccepted
            cases haccepted
        | validated data =>
            rw [hphase, hrequest] at hkeeps
            exact hkeeps

end Serializable

section Runs

-- With every save written only where it is still valid, all requests together do
-- what they do in some order; and the plan holds all along.
theorem interleaved_requests_serializable {π : Type} (host : Host) (pki : Pki π) {n : Nat}
    (requests : Fin n → Request) (init : Shared π) :
    (∀ s, Reaches (requestStep host pki requests) (staysValid host requests)
        (Interleaved.start init) s → (∀ i, (s.phase i).outcome ≠ none) →
      ∃ order : List (Fin n), order.Perm (List.finRange n) ∧
        (serial (fun i => (requests i).exec host pki) order init).1 = s.shared ∧
        ∀ i, i ∈ (serial (fun i => (requests i).exec host pki) order init).2 ↔
          (s.phase i).outcome = some true) ∧
    (Consistent host init.files → ∀ s, Reaches (requestStep host pki requests)
        (fun s i => staysValid host requests s i ∧ keepsPlan requests s i)
        (Interleaved.start init) s → Consistent host s.shared.files) := by
  constructor
  · intro s hr hall
    have hserialized := hr.invariant (P := Serialized host pki requests init)
      (fun before i after h hvalid hstep => h.step hvalid hstep) (serialized_start init)
    exact hserialized.2.serializable hall
  · intro hinit s hr
    have hplan := hr.invariant
      (P := fun s => WaitsForLock host requests s ∧ Consistent host s.shared.files)
      (fun before i after h hallowed hstep => ⟨h.1.step hallowed.1 hstep,
        requestStep_consistent h.1 h.2 hallowed.1 hallowed.2 hstep⟩)
      ⟨waitsForLock_start init, hinit⟩
    exact hplan.2

def freePki : Pki Unit := ⟨fun _ _ => ⟨none, none⟩, fun _ _ _ => ()⟩

def largerPool : NetworkSettings := { office [loopback] with poolLast := "10.8.0.120".toList }

def saveAndAssign (ip : Text) : Fin 2 → Request
  | 0 => .saveSettings largerPool
  | 1 => .setStaticIp "carol".toList (some ip)

def outsidePool : Text := "10.8.0.125".toList

def enteringPool : Text := "10.8.0.110".toList

theorem address_outside_new_pool_serializable :
    ∃ s, runSteps (requestStep plainHost freePki (saveAndAssign outsidePool))
        (Interleaved.start ⟨officeState, ()⟩) [0, 1, 0] = some s ∧
      Consistent plainHost s.shared.files ∧
      ∃ order : List (Fin 2), order.Perm (List.finRange 2) ∧
        (serial (fun i => (saveAndAssign outsidePool i).exec plainHost freePki) order
          ⟨officeState, ()⟩).1 = s.shared := by
  have hallowed : AllowedRun (requestStep plainHost freePki (saveAndAssign outsidePool))
      (fun s i => staysValid plainHost (saveAndAssign outsidePool) s i ∧
        keepsPlan (saveAndAssign outsidePool) s i)
      (Interleaved.start ⟨officeState, ()⟩) [0, 1, 0] := by
    decide +kernel
  have hvalid : AllowedRun (requestStep plainHost freePki (saveAndAssign outsidePool))
      (staysValid plainHost (saveAndAssign outsidePool))
      (Interleaved.start ⟨officeState, ()⟩) [0, 1, 0] := by
    decide +kernel
  have hread : (runSteps (requestStep plainHost freePki (saveAndAssign outsidePool))
      (Interleaved.start ⟨officeState, ()⟩) [0, 1, 0]).map (fun s => (s.phase 0, s.phase 1)) =
        some (.done false, .done false) := by
    decide +kernel
  obtain ⟨s, hrun, hs⟩ := Option.map_eq_some_iff.mp hread
  rw [Prod.mk.injEq] at hs
  have hdone : ∀ i, (s.phase i).outcome ≠ none := by
    intro i
    match i with
    | 0 => simp [hs.1, Phase.outcome]
    | 1 => simp [hs.2, Phase.outcome]
  have hmain := interleaved_requests_serializable plainHost freePki (saveAndAssign outsidePool)
    ⟨officeState, ()⟩
  obtain ⟨order, hperm, hstate, -⟩ := hmain.1 s (Reaches.of_runSteps hrun hvalid) hdone
  exact ⟨s, hrun, hmain.2 officeState_consistent s (Reaches.of_runSteps hrun hallowed), order, hperm,
    hstate⟩

theorem orders_of_two {order : List (Fin 2)} (h : order.Perm (List.finRange 2)) :
    order ∈ [[0, 1], [1, 0]] := by
  have hnodup : order.Nodup := h.nodup_iff.mpr (List.nodup_finRange 2)
  have hlength : order.length = 2 := h.length_eq
  have htwo : ∀ a b : Fin 2, [a, b].Nodup → [a, b] ∈ [[0, 1], [1, 0]] := by decide
  match order, hlength with
  | [a, b], _ => exact htwo a b hnodup

theorem address_assigned_into_new_pool :
    ∃ s, runSteps (requestStep plainHost freePki (saveAndAssign enteringPool))
        (Interleaved.start ⟨officeState, ()⟩) [0, 1, 0] = some s ∧
      s.phase 0 = .done false ∧ s.phase 1 = .done false ∧
      vpnSubnet plainHost.wide s.shared.files.serverConf =
        some ⟨officeNet, 0x0a080002, 0x0a080078⟩ ∧
      staticIps s.shared.files.staticclients = [("carol".toList, enteringPool)] ∧
      parseIPv4 enteringPool = some 0x0a08006e#32 ∧
      ¬∃ order : List (Fin 2), order.Perm (List.finRange 2) ∧
        (serial (fun i => (saveAndAssign enteringPool i).exec plainHost freePki) order
          ⟨officeState, ()⟩).1 = s.shared ∧
        ∀ i, i ∈ (serial (fun i => (saveAndAssign enteringPool i).exec plainHost freePki) order
          ⟨officeState, ()⟩).2 ↔ (s.phase i).outcome = some true := by
  have hread : (runSteps (requestStep plainHost freePki (saveAndAssign enteringPool))
      (Interleaved.start ⟨officeState, ()⟩) [0, 1, 0]).map (fun s => ((s.phase 0, s.phase 1),
        vpnSubnet plainHost.wide s.shared.files.serverConf,
        staticIps s.shared.files.staticclients)) =
      some ((Phase.done false, Phase.done false), some ⟨officeNet, 0x0a080002, 0x0a080078⟩,
        [("carol".toList, enteringPool)]) := by
    decide +kernel
  have hrefused : ∀ order ∈ [[0, 1], [1, 0]],
      (serial (fun i => (saveAndAssign enteringPool i).exec plainHost freePki) order
        ⟨officeState, ()⟩).2 ≠ [] := by
    decide +kernel
  obtain ⟨s, hrun, hs⟩ := Option.map_eq_some_iff.mp hread
  rw [Prod.mk.injEq, Prod.mk.injEq, Prod.mk.injEq] at hs
  obtain ⟨⟨hfirst, hsecond⟩, hsubnet, hstatics⟩ := hs
  refine ⟨s, hrun, hfirst, hsecond, hsubnet, hstatics, by decide +kernel, ?_⟩
  rintro ⟨order, hperm, -, hsame⟩
  have horder : order ∈ [[0, 1], [1, 0]] := orders_of_two hperm
  obtain ⟨i, hi⟩ := List.exists_mem_of_ne_nil _ (hrefused order horder)
  have hdone := (hsame i).mp hi
  match i with
  | 0 => simp [hfirst, Phase.outcome] at hdone
  | 1 => simp [hsecond, Phase.outcome] at hdone

end Runs

end OpenvpnServer.Network
