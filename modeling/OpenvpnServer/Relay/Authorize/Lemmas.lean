import OpenvpnServer.Lib.Table
import OpenvpnServer.Relay.Authorize

namespace OpenvpnServer.Relay

open OpenvpnServer.Lib

def Phase.check? : Phase → Option Nat
  | .waiting id | .running id | .returned id _ => some id
  | _ => none

section Moves

variable {κ : Type} [DecidableEq κ] {sha256 : Token → κ} {policyTTL : Nat}
  {unicodeLower : Char → Char} {s s' : AuthState κ}

inductive Progress (sha256 : Token → κ) (s : AuthState κ) (caller : Caller) : Caller → Prop
  | stops (phase : Phase) (hp : phase = .refused ∨ phase = .gaveUp) :
      Progress sha256 s caller { caller with phase }
  | joins (id : Nat) (hl : s.policies.lookup (sha256 caller.token) = some id)
      (hu : s.usable id = true) : Progress sha256 s caller { caller with phase := .waiting id }
  | returns (id : Nat) (check : Check) (result : Except AuthError CompiledPolicy)
      (hp : caller.phase.check? = some id) (hc : s.checks[id]? = some check)
      (hr : check.result = some result) (hf : check.finished.isSome) :
      Progress sha256 s caller { caller with phase := .returned id result }
  | cancels : Progress sha256 s caller { caller with cancelled := true }

-- Everything a step can do to the state, in terms of the four tables. `room` is
-- the map as a starting check finds it, purged if it was full.
inductive Move (sha256 : Token → κ) (policyTTL : Nat) (unicodeLower : Char → Char)
    (s : AuthState κ) : AuthState κ → Prop
  | enter (token : Token) : Move sha256 policyTTL unicodeLower s
      { s with
        turns := s.turns + 1
        callers := s.callers ++ [⟨token, ⟨s.now, s.turns⟩, false, .entered⟩] }
  | progress (c : Nat) (caller caller' : Caller) (hc : s.callers[c]? = some caller)
      (hp : Progress sha256 s caller caller') : Move sha256 policyTTL unicodeLower s
      { s with turns := s.turns + 1, callers := s.callers.set c caller' }
  | direct (c : Nat) (caller : Caller) (room : AList fun _ : κ => Nat)
      (hc : s.callers[c]? = some caller) (hp : caller.phase = .entered)
      (hroom : room = s.policies ∨ room = s.purge) : Move sha256 policyTTL unicodeLower s
      { s with
        turns := s.turns + 1
        policies := room
        checks := s.checks ++ [Check.new caller.token false c s.now]
        callers := s.callers.set c { caller with phase := .running s.checks.length } }
  | shared (c : Nat) (caller : Caller) (room : AList fun _ : κ => Nat)
      (hc : s.callers[c]? = some caller) (hp : caller.phase = .entered)
      (hroom : room = s.policies ∨ room = s.purge) (hsize : room.keys.length < maxEntries)
      (hl : ∀ id, s.policies.lookup (sha256 caller.token) = some id → s.usable id = false) :
      Move sha256 policyTTL unicodeLower s
      { s with
        turns := s.turns + 1
        policies := room.insert (sha256 caller.token) s.checks.length
        checks := s.checks ++ [Check.new caller.token true c s.now]
        callers := s.callers.set c { caller with phase := .waiting s.checks.length } }
  | backend (id : Nat) (check : Check) (run : BackendRun) (hc : s.checks[id]? = some check)
      (hr : check.result = none) : Move sha256 policyTTL unicodeLower s
      { s with
        turns := s.turns + 1
        checks := s.checks.set id { check with
          result := some (authorizeBackend unicodeLower check.token run)
          finished := if check.shared then none else some ⟨s.now, s.turns⟩ } }
  | publish (id : Nat) (check : Check) (result : Except AuthError CompiledPolicy)
      (hc : s.checks[id]? = some check) (hs : check.shared = true)
      (hr : check.result = some result) (hf : check.finished = none) : Move sha256 policyTTL unicodeLower s
      { s with
        turns := s.turns + 1
        policies := if result.isOk then s.policies else s.policies.erase (sha256 check.token)
        checks := s.checks.set id { check with
          finished := some ⟨s.now, s.turns⟩
          expires := some (s.now + policyTTL) } }
  | tick (duration : Nat) : Move sha256 policyTTL unicodeLower s
      { s with turns := s.turns + 1, now := s.now + duration }

theorem start_move {c : Nat} {caller : Caller} (hc : s.callers[c]? = some caller)
    (hp : caller.phase = .entered)
    (hl : ∀ id, s.policies.lookup (sha256 caller.token) = some id → s.usable id = false) :
    Move sha256 policyTTL unicodeLower s
      { s.start sha256 c caller with turns := s.turns + 1 } := by
  unfold AuthState.start
  split
  case isFalse hsize =>
      exact .shared c caller s.policies hc hp (.inl rfl) (Nat.lt_of_not_le hsize) hl
  case isTrue =>
      dsimp only
      split
      case isTrue => exact .direct c caller s.purge hc hp (.inr rfl)
      case isFalse hsize =>
          exact .shared c caller s.purge hc hp (.inr rfl) (Nat.lt_of_not_le hsize) hl

theorem authorize_move {c : Nat} {caller : Caller} (hc : s.callers[c]? = some caller)
    (hp : caller.phase = .entered) :
    Move sha256 policyTTL unicodeLower s
      { s.authorize sha256 policyTTL c caller with turns := s.turns + 1 } := by
  unfold AuthState.authorize
  split
  case isTrue => exact .progress c caller _ hc (.stops .refused (.inl rfl))
  case isFalse =>
      split
      case isTrue => exact .direct c caller s.policies hc hp (.inl rfl)
      case isFalse =>
          cases hl : s.policies.lookup (sha256 caller.token) with
          | none =>
              refine start_move hc hp ?_
              rw [hl]
              intro id h
              cases h
          | some id =>
              by_cases hu : s.usable id = true
              · simp only [hu, if_true]
                exact .progress c caller _ hc (.joins id hl hu)
              · simp only [hu]
                refine start_move hc hp ?_
                rw [hl]
                intro id' h
                cases h
                exact Bool.not_eq_true _ ▸ hu

theorem step_move {label : AuthLabel}
    (h : s.step sha256 policyTTL unicodeLower label = some s') :
    Move sha256 policyTTL unicodeLower s s' := by
  unfold AuthState.step at h
  rw [Option.map_eq_some_iff] at h
  obtain ⟨next, hact, rfl⟩ := h
  unfold AuthState.act at hact
  cases label with
  | enter token =>
      cases hact
      exact .enter token
  | lookup c =>
      dsimp only at hact
      split at hact
      case h_2 => cases hact
      case h_1 caller hc =>
          split at hact
          case h_2 => cases hact
          case h_1 hp =>
              cases hact
              exact authorize_move hc hp
  | backend id run =>
      dsimp only at hact
      split at hact
      case h_2 => cases hact
      case h_1 check hc =>
          split at hact
          case isTrue => cases hact
          case isFalse hr =>
              split at hact
              case isTrue => cases hact
              case isFalse =>
                  cases hact
                  exact .backend id check run hc (by simpa using hr)
  | publish id =>
      dsimp only at hact
      split at hact
      case h_2 => cases hact
      case h_1 check hc =>
          split at hact
          case h_3 => cases hact
          case h_1 p hs hr hf =>
              cases hact
              exact .publish id check (.ok p) hc hs hr hf
          case h_2 e hs hr hf =>
              cases hact
              exact .publish id check (.error e) hc hs hr hf
  | deliver c =>
      dsimp only at hact
      split at hact
      case h_2 => cases hact
      case h_1 caller hc =>
          split at hact
          case h_3 => cases hact
          all_goals
            rename_i id hp
            split at hact
            case h_2 => cases hact
            case h_1 result stamp _ hcheck =>
                cases hact
                exact .progress c caller _ hc
                  (.returns id _ result (by rw [hp]; rfl) hcheck rfl rfl)
  | cancel c =>
      dsimp only at hact
      split at hact
      case h_2 => cases hact
      case h_1 caller hc =>
          cases hact
          exact .progress c caller _ hc .cancels
  | giveUp c =>
      dsimp only at hact
      split at hact
      case h_2 => cases hact
      case h_1 caller hc =>
          split at hact
          case h_2 => cases hact
          case h_1 =>
              cases hact
              exact .progress c caller _ hc (.stops .gaveUp (.inr rfl))
  | tick duration =>
      cases hact
      exact .tick duration

end Moves

end OpenvpnServer.Relay
