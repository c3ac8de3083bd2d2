import Mathlib.Data.Rat.Floor
import Mathlib.Tactic.Linarith
import OpenvpnServer.Lib.Recency
import OpenvpnServer.Lib.Run

-- The back-off of the login form.
namespace OpenvpnServer.Accounts

open OpenvpnServer.Lib

structure LoginLimiter where
  threshold : Int
  maxDelay : Int
  maxKeys : Nat
  forget : Int

-- The failures of each key and until when it is blocked, oldest attempt first.
abbrev Failures (κ : Type) := Dict κ (Nat × ℚ)

variable {κ : Type} [DecidableEq κ]

namespace LoginLimiter

variable (limiter : LoginLimiter)

def delay (limit : Int) (failures : Nat) : Int :=
  if limit ≤ failures then min limiter.maxDelay (2 ^ (failures - limit + 1).toNat) else 0

def charge (now : ℚ) (old : Option (Nat × ℚ)) (limit : Int) : Nat × ℚ :=
  let old := old.getD (0, 0)
  let failures := (if limiter.forget < now - old.2 then 0 else old.1) + 1
  (failures, now + limiter.delay limit failures)

def waits (limits : Dict κ Int) (now : ℚ) (state : Failures κ) : List ℚ :=
  limits.keys.map fun k => ((state.get? k).getD (0, 0)).2 - now

def charged (limits : Dict κ Int) (now : ℚ) (state : Failures κ) : Failures κ :=
  Dict.touchAll (limiter.charge now) limits.entries state

-- The seconds to wait, none of them when the attempt may go ahead. Without a key there
-- is nothing to take the maximum of.
def attempt (limits : Dict κ Int) (now : ℚ) (state : Failures κ) : Option Nat × Failures κ :=
  match (waits limits now state).max? with
  | none => (none, state)
  | some wait =>
      if 0 < wait then (some (⌊wait⌋.toNat + 1), state)
      else (some 0, (limiter.charged limits now state).trim limiter.maxKeys)

def attemptKey (k : κ) (now : ℚ) (state : Failures κ) : Option Nat × Failures κ :=
  limiter.attempt (Dict.empty.set k limiter.threshold) now state

def success (k : κ) (state : Failures κ) : Failures κ := state.erase k

end LoginLimiter

section Machine

-- `passed` counts the attempts with a key that were let through since it was last absent
-- or forgotten, and `since` has the keys of the last one of them and of all that were let
-- through later.
structure Throttle (κ : Type) where
  table : Failures κ
  clock : Option ℚ
  passed : κ → Nat
  since : κ → Finset κ

def Throttle.init : Throttle κ := ⟨.empty, none, fun _ => 0, fun _ => ∅⟩

inductive LoginStep (κ : Type) where
  | attempt (limits : Dict κ Int) (now : ℚ)
  | success (key : κ)

variable (limiter : LoginLimiter)

namespace Throttle

def letThrough (s : Throttle κ) (limits : Dict κ Int) (now : ℚ) : Prop :=
  (limiter.attempt limits now s.table).1 = some 0

instance (s : Throttle κ) (limits : Dict κ Int) (now : ℚ) :
    Decidable (s.letThrough limiter limits now) :=
  inferInstanceAs (Decidable ((limiter.attempt limits now s.table).1 = some 0))

def startsAnew (s : Throttle κ) (now : ℚ) (k : κ) : Bool :=
  (s.table.get? k).all fun entry => limiter.forget < now - entry.2

def step (s : Throttle κ) : LoginStep κ → Option (Throttle κ)
  | .attempt limits now =>
      some (if s.letThrough limiter limits now then
        { table := (limiter.attempt limits now s.table).2
          clock := some now
          passed := fun k =>
            if k ∈ limits.keys then (if s.startsAnew limiter now k then 0 else s.passed k) + 1
            else s.passed k
          since := fun k =>
            if k ∈ limits.keys then limits.keys.toFinset else s.since k ∪ limits.keys.toFinset }
      else { s with table := (limiter.attempt limits now s.table).2, clock := some now })
  | .success key => some { s with table := LoginLimiter.success key s.table }

-- A key is always used with its own limit, and the clock does not go back.
def allowed (limit : κ → Int) (s : Throttle κ) : LoginStep κ → Prop
  | .attempt limits now =>
      (∀ entry ∈ limits.entries, entry.2 = limit entry.1) ∧
        limits.entries.length ≤ limiter.maxKeys ∧ ∀ time ∈ s.clock, time ≤ now
  | .success _ => True

instance (limit : κ → Int) (s : Throttle κ) (label : LoginStep κ) :
    Decidable (allowed limiter limit s label) :=
  match label with
  | .attempt limits now =>
      inferInstanceAs (Decidable ((∀ entry ∈ limits.entries, entry.2 = limit entry.1) ∧
        limits.entries.length ≤ limiter.maxKeys ∧ ∀ time ∈ s.clock, time ≤ now))
  | .success _ => isTrue trivial

def evicts (s : Throttle κ) (k : κ) (limits : Dict κ Int) (now : ℚ) : Prop :=
  s.letThrough limiter limits now ∧ k ∈ (limiter.charged limits now s.table).keys ∧
    k ∉ (limiter.attempt limits now s.table).2.keys

def keeps (k : κ) (s : Throttle κ) : LoginStep κ → Prop
  | .attempt limits now => ¬s.evicts limiter k limits now
  | .success key => key ≠ k

end Throttle

end Machine

section Invariant

open Throttle

variable {limiter : LoginLimiter} {limit : κ → Int} {s : Throttle κ} {limits : Dict κ Int} {now : ℚ}

theorem letThrough_iff : s.letThrough limiter limits now ↔ limits.keys ≠ [] ∧
    ∀ k ∈ limits.keys, ((s.table.get? k).getD (0, 0)).2 ≤ now := by
  unfold letThrough LoginLimiter.attempt LoginLimiter.waits
  cases hmax : (limits.keys.map fun k => ((s.table.get? k).getD (0, 0)).2 - now).max? with
  | none =>
      rw [List.max?_eq_none_iff, List.map_eq_nil_iff] at hmax
      simp [hmax]
  | some wait =>
      obtain ⟨hmem, hle⟩ := List.max?_eq_some_iff.mp hmax
      obtain ⟨first, hfirst, hwait⟩ := List.mem_map.mp hmem
      have hne : limits.keys ≠ [] := List.ne_nil_of_mem hfirst
      dsimp only
      by_cases hpos : 0 < wait
      · rw [if_pos hpos]
        constructor
        · intro h
          exact absurd (Option.some.inj h) (Nat.succ_ne_zero _)
        · rintro ⟨-, hall⟩
          have hbound := hall first hfirst
          linarith
      · rw [if_neg hpos]
        refine ⟨fun _ => ⟨hne, fun k hk => ?_⟩, fun _ => rfl⟩
        have hk := hle _ (List.mem_map_of_mem hk)
        linarith

theorem attempt_letThrough (h : s.letThrough limiter limits now) :
    (limiter.attempt limits now s.table).2 =
      (limiter.charged limits now s.table).trim limiter.maxKeys := by
  unfold letThrough LoginLimiter.attempt at h
  unfold LoginLimiter.attempt
  cases hmax : (LoginLimiter.waits limits now s.table).max? with
  | none => simp [hmax] at h
  | some wait =>
      rw [hmax] at h
      by_cases hpos : 0 < wait
      · simp [hpos] at h
      · simp [hpos]

theorem attempt_heldBack (h : ¬s.letThrough limiter limits now) :
    (limiter.attempt limits now s.table).2 = s.table := by
  unfold letThrough LoginLimiter.attempt at h
  unfold LoginLimiter.attempt
  cases hmax : (LoginLimiter.waits limits now s.table).max? with
  | none => rfl
  | some wait =>
      rw [hmax] at h
      by_cases hpos : 0 < wait
      · simp [hpos]
      · simp [hpos] at h

structure Sound (limiter : LoginLimiter) (s : Throttle κ) : Prop where
  bounded : s.table.entries.length ≤ limiter.maxKeys
  newer : Dict.Newer s.since s.table
  counted : ∀ k entry, s.table.get? k = some entry → entry.1 = s.passed k

theorem sound_init (limiter : LoginLimiter) : Sound limiter (.init : Throttle κ) where
  bounded := Nat.zero_le _
  newer := List.Pairwise.nil
  counted := fun _ _ h => nomatch h

theorem Sound.success (h : Sound limiter s) (key : κ) :
    Sound limiter { s with table := LoginLimiter.success key s.table } where
  bounded := (List.length_filter_le _ _).trans h.bounded
  newer := h.newer.erase key
  counted := fun k entry hentry => h.counted k entry (Dict.get?_of_erase hentry).2

theorem Sound.charge_passed (h : Sound limiter s) (k : κ) (own : Int) :
    (limiter.charge now (s.table.get? k) own).1 =
      (if s.startsAnew limiter now k then 0 else s.passed k) + 1 := by
  unfold LoginLimiter.charge startsAnew
  cases hentry : s.table.get? k with
  | none => simp
  | some entry =>
      have hcount := h.counted k entry hentry
      by_cases hforget : (limiter.forget : ℚ) < now - entry.2
      · simp [hforget]
      · simp [hforget, hcount]

theorem get?_charged {k : κ} {own : Int} (hmem : (k, own) ∈ limits.entries) :
    (limiter.charged limits now s.table).get? k =
      some (limiter.charge now (s.table.get? k) own) :=
  Dict.get?_touchAll _ limits.nodup _ hmem

theorem get?_charged_ne {k : κ} (hout : k ∉ limits.keys) :
    (limiter.charged limits now s.table).get? k = s.table.get? k :=
  Dict.get?_touchAll_ne _ limits.nodup _ hout

theorem Sound.letThrough {next : Throttle κ} (h : Sound limiter s)
    (hthrough : s.letThrough limiter limits now)
    (hstep : s.step limiter (.attempt limits now) = some next) :
    Sound limiter next ∧ Dict.Newer next.since (limiter.charged limits now s.table) := by
  have hcharged : Dict.Newer (fun k => if k ∈ limits.keys then limits.keys.toFinset
      else s.since k ∪ limits.keys.toFinset) (limiter.charged limits now s.table) := by
    refine h.newer.touchAll _ limits.nodup (fun k hk => ?_) fun k x hx => ?_
    · rw [if_neg (show k ∉ limits.keys from hk)]
      exact Finset.subset_union_left
    · have hin := List.mem_toFinset.mpr hx
      by_cases hk : k ∈ limits.keys
      · rw [if_pos hk]
        exact hin
      · rw [if_neg hk]
        exact Finset.mem_union_right _ hin
  simp only [step, if_pos hthrough, Option.some.injEq] at hstep
  subst hstep
  refine ⟨⟨?_, ?_, fun k entry hentry => ?_⟩, hcharged⟩
  · rw [attempt_letThrough hthrough]
    exact Dict.length_trim _ _
  · rw [attempt_letThrough hthrough]
    exact hcharged.trim _
  · dsimp only at hentry ⊢
    rw [attempt_letThrough hthrough] at hentry
    have hbefore := Dict.get?_of_trim hentry
    by_cases hk : k ∈ limits.keys
    · obtain ⟨own, hown⟩ := (Dict.mem_keys_iff _).mp hk
      rw [get?_charged ((Dict.get?_eq_some_iff _).mp hown), Option.some.injEq] at hbefore
      rw [if_pos hk, ← hbefore]
      exact h.charge_passed k own
    · rw [get?_charged_ne hk] at hbefore
      rw [if_neg hk]
      exact h.counted k entry hbefore

theorem step_heldBack {next : Throttle κ} (hheld : ¬s.letThrough limiter limits now)
    (hstep : s.step limiter (.attempt limits now) = some next) :
    next = { s with clock := some now } := by
  simp only [step, if_neg hheld, Option.some.injEq] at hstep
  rw [← hstep, attempt_heldBack hheld]

theorem Sound.step {next : Throttle κ} (h : Sound limiter s) {label : LoginStep κ}
    (hstep : s.step limiter label = some next) : Sound limiter next := by
  cases label with
  | success key =>
      cases hstep
      exact h.success key
  | attempt limits now =>
      by_cases hthrough : s.letThrough limiter limits now
      · exact (h.letThrough hthrough hstep).1
      · rw [step_heldBack hthrough hstep]
        exact ⟨h.bounded, h.newer, h.counted⟩

end Invariant

section BackOff

open Throttle

variable {limiter : LoginLimiter} {limit : κ → Int} {s next : Throttle κ} {limits : Dict κ Int}
  {now : ℚ}

def BlockedUntil (k : κ) (bound : ℚ) (s : Throttle κ) : Prop :=
  (∃ time, s.clock = some time ∧ bound ≤ time) ∨
    ∃ entry, s.table.get? k = some entry ∧ bound ≤ entry.2

theorem BlockedUntil.le {k : κ} {bound : ℚ} (h : BlockedUntil k bound s)
    (hallowed : allowed limiter limit s (.attempt limits now)) (hk : k ∈ limits.keys)
    (hthrough : s.letThrough limiter limits now) : bound ≤ now := by
  rcases h with ⟨time, htime, hbound⟩ | ⟨entry, hentry, hbound⟩
  · exact hbound.trans (hallowed.2.2 time htime)
  · have hopen := (letThrough_iff.mp hthrough).2 k hk
    rw [hentry] at hopen
    exact hbound.trans hopen

theorem BlockedUntil.step {k : κ} {bound : ℚ} (h : BlockedUntil k bound s) {label : LoginStep κ}
    (hallowed : allowed limiter limit s label) (hkeeps : keeps limiter k s label)
    (hstep : s.step limiter label = some next) : BlockedUntil k bound next := by
  cases label with
  | success key =>
      cases hstep
      rcases h with hover | ⟨entry, hentry, hbound⟩
      · exact .inl hover
      · refine .inr ⟨entry, ?_, hbound⟩
        rw [LoginLimiter.success, Dict.get?_erase, if_neg (Ne.symm hkeeps), hentry]
  | attempt limits now =>
      by_cases hthrough : s.letThrough limiter limits now
      · have hnext : next.clock = some now ∧
            next.table = (limiter.attempt limits now s.table).2 := by
          simp only [Throttle.step, if_pos hthrough, Option.some.injEq] at hstep
          exact hstep ▸ ⟨rfl, rfl⟩
        by_cases hk : k ∈ limits.keys
        · exact .inl ⟨now, hnext.1, h.le hallowed hk hthrough⟩
        · rcases h with ⟨time, htime, hbound⟩ | ⟨entry, hentry, hbound⟩
          · exact .inl ⟨now, hnext.1, hbound.trans (hallowed.2.2 time htime)⟩
          · have hcharged : (limiter.charged limits now s.table).get? k = some entry := by
              rw [get?_charged_ne hk, hentry]
            have hin : k ∈ (limiter.attempt limits now s.table).2.keys := by
              by_contra hout
              exact hkeeps ⟨hthrough, (Dict.mem_keys_iff _).mpr ⟨entry, hcharged⟩, hout⟩
            obtain ⟨kept, hkept⟩ := (Dict.mem_keys_iff _).mp hin
            have hsame := hkept
            rw [attempt_letThrough hthrough] at hsame
            rw [Dict.get?_of_trim hsame, Option.some.injEq] at hcharged
            exact .inr ⟨entry, by rw [hnext.2, hkept, hcharged], hbound⟩
      · rw [step_heldBack hthrough hstep]
        rcases h with ⟨time, htime, hbound⟩ | hblocked
        · exact .inl ⟨now, rfl, hbound.trans (hallowed.2.2 time htime)⟩
        · exact .inr hblocked

theorem Sound.blocked (h : Sound limiter s) {k : κ}
    (hallowed : allowed limiter limit s (.attempt limits now)) (hk : k ∈ limits.keys)
    (hthrough : s.letThrough limiter limits now)
    (hstep : s.step limiter (.attempt limits now) = some next) :
    BlockedUntil k (now + limiter.delay (limit k) (next.passed k)) next := by
  obtain ⟨own, hown⟩ := (Dict.mem_keys_iff _).mp hk
  have hmem := (Dict.get?_eq_some_iff _).mp hown
  have hlimit : own = limit k := hallowed.1 (k, own) hmem
  have hentries := Dict.entries_touchAll (limiter.charge now) limits.nodup s.table
  have hrecent : ((limiter.charged limits now s.table).trim limiter.maxKeys).get? k =
      some (limiter.charge now (s.table.get? k) own) :=
    Dict.get?_trim_of_recent hentries (by rw [List.length_map]; exact hallowed.2.1)
      (List.mem_map.mpr ⟨(k, own), hmem, rfl⟩)
  have hcount := (h.letThrough hthrough hstep).1.counted k
  simp only [Throttle.step, if_pos hthrough, Option.some.injEq] at hstep
  have htable : next.table.get? k = some (limiter.charge now (s.table.get? k) own) := by
    rw [← hstep, ← hrecent, attempt_letThrough hthrough]
  refine .inr ⟨_, htable, ?_⟩
  rw [← hcount _ htable, ← hlimit]
  exact le_refl _

structure BacksOff (limiter : LoginLimiter) (limit : κ → Int) (s : Throttle κ) : Prop where
  blocked : ∀ limits now next k, allowed limiter limit s (.attempt limits now) →
    s.letThrough limiter limits now → s.step limiter (.attempt limits now) = some next →
    k ∈ limits.keys → limit k ≤ next.passed k →
    ∀ later, Reaches (Throttle.step limiter)
      (fun s label => allowed limiter limit s label ∧ keeps limiter k s label) next later →
    ∀ others time, allowed limiter limit later (.attempt others time) → k ∈ others.keys →
      later.letThrough limiter others time →
      now + (min limiter.maxDelay (2 ^ (next.passed k - limit k + 1).toNat) : Int) ≤ time
  heldBack : ∀ limits now, ¬s.letThrough limiter limits now →
    (limiter.attempt limits now s.table).2 = s.table
  bounded : s.table.keys.length ≤ limiter.maxKeys
  evicted : ∀ limits now next k, s.step limiter (.attempt limits now) = some next →
    s.evicts limiter k limits now → limiter.maxKeys ≤ ((next.since k).erase k).card

theorem limiter_backs_off (limiter : LoginLimiter) (limit : κ → Int)
    (hreaches : Reaches (Throttle.step limiter) (allowed limiter limit) .init s) :
    BacksOff limiter limit s := by
  have h : Sound limiter s :=
    hreaches.invariant (fun _ _ _ hs _ hstep => hs.step hstep) (sound_init limiter)
  refine ⟨?_, fun limits now hheld => attempt_heldBack hheld, ?_, ?_⟩
  · intro limits now next k hallowed hthrough hstep hk hlimit later hrun others time hlater hother
      hopen
    have hblocked := h.blocked hallowed hk hthrough hstep
    have hstays : BlockedUntil k (now + limiter.delay (limit k) (next.passed k)) later :=
      hrun.invariant (fun _ _ _ hb ha hs => hb.step ha.1 ha.2 hs) hblocked
    have hbound := hstays.le hlater hother hopen
    rw [LoginLimiter.delay, if_pos hlimit] at hbound
    exact hbound
  · unfold Dict.keys
    rw [List.length_map]
    exact h.bounded
  · rintro limits now next k hstep ⟨hthrough, hin, hout⟩
    rw [attempt_letThrough hthrough] at hout
    exact (h.letThrough hthrough hstep).2.card_of_dropped hin hout

def smallLimiter : LoginLimiter := ⟨2, 10, 3, 60⟩

def formLimit (key : Nat) : Int := if key = 0 then 4 else 2

def formLogin (name : Nat) (now : ℚ) : LoginStep Nat :=
  .attempt ((Dict.empty.set 0 4).set name 2) now

def guesses : List (LoginStep Nat) := [formLogin 1 0, formLogin 1 1, formLogin 1 2, formLogin 2 2]

theorem guesses_backed_off : ∃ s, runSteps (Throttle.step smallLimiter) .init guesses = some s ∧
    s.table.entries = [(1, 2, 3), (0, 3, 2), (2, 1, 2)] ∧ s.passed 1 = 2 ∧
    BacksOff smallLimiter formLimit s := by
  have hread : (runSteps (Throttle.step smallLimiter) .init guesses).any
      (fun s => decide (s.table.entries = [(1, 2, 3), (0, 3, 2), (2, 1, 2)] ∧ s.passed 1 = 2)) =
        true := by decide +kernel
  have hallowed : AllowedRun (Throttle.step smallLimiter) (allowed smallLimiter formLimit) .init
      guesses := by decide +kernel
  obtain ⟨s, hs, hfacts⟩ := (Option.any_eq_true _ _).mp hread
  obtain ⟨htable, hpassed⟩ := of_decide_eq_true hfacts
  exact ⟨s, hs, htable, hpassed, limiter_backs_off _ _ (.of_runSteps hs hallowed)⟩

end BackOff

end OpenvpnServer.Accounts
