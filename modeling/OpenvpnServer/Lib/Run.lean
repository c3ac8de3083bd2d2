import Mathlib.Logic.Relation

namespace OpenvpnServer.Lib

section Run

variable {σ α : Type*}

-- One enabled step of a machine, taken only where `allowed` holds of the state
-- before it. Environment assumptions are stated this way: as a condition on
-- every step of a run, never as a property of the final state.
def AllowedStep (step : σ → α → Option σ) (allowed : σ → α → Prop) (before after : σ) : Prop :=
  ∃ label, allowed before label ∧ step before label = some after

def Reaches (step : σ → α → Option σ) (allowed : σ → α → Prop) : σ → σ → Prop :=
  Relation.ReflTransGen (AllowedStep step allowed)

-- Follow a list of labels; `none` as soon as one of them is not enabled.
def runSteps (step : σ → α → Option σ) : σ → List α → Option σ
  | s, [] => some s
  | s, label :: rest =>
      match step s label with
      | none => none
      | some next => runSteps step next rest

def AllowedRun (step : σ → α → Option σ) (allowed : σ → α → Prop) : σ → List α → Prop
  | _, [] => True
  | s, label :: rest =>
      allowed s label ∧
        match step s label with
        | none => False
        | some next => AllowedRun step allowed next rest

instance decidableAllowedRun (step : σ → α → Option σ) (allowed : σ → α → Prop)
    [∀ s label, Decidable (allowed s label)] (s : σ) (labels : List α) :
    Decidable (AllowedRun step allowed s labels) :=
  match labels with
  | [] => isTrue trivial
  | label :: rest =>
      match h : step s label with
      | none => isFalse (by simp [AllowedRun, h])
      | some next =>
          have := decidableAllowedRun step allowed next rest
          decidable_of_iff (allowed s label ∧ AllowedRun step allowed next rest)
            (by simp [AllowedRun, h])

attribute [local simp] runSteps AllowedRun

variable {step : σ → α → Option σ} {allowed : σ → α → Prop}

theorem Reaches.refl (s : σ) : Reaches step allowed s s := Relation.ReflTransGen.refl

theorem Reaches.tail {s before after : σ} (h : Reaches step allowed s before) (label : α)
    (ha : allowed before label) (hs : step before label = some after) :
    Reaches step allowed s after :=
  Relation.ReflTransGen.tail h ⟨label, ha, hs⟩

-- The only induction over runs: every safety result below is an instance.
theorem Reaches.invariant {P : σ → Prop} {s s' : σ} (hr : Reaches step allowed s s')
    (hstep : ∀ before label after, P before → allowed before label →
      step before label = some after → P after)
    (h : P s) : P s' := by
  induction hr with
  | refl => exact h
  | tail _ he ih =>
      obtain ⟨label, ha, hs⟩ := he
      exact hstep _ label _ ih ha hs

theorem Reaches.of_runSteps {s s' : σ} {labels : List α}
    (hrun : runSteps step s labels = some s') (ha : AllowedRun step allowed s labels) :
    Reaches step allowed s s' := by
  induction labels generalizing s with
  | nil =>
      simp only [runSteps, Option.some.injEq] at hrun
      subst hrun
      exact Reaches.refl s
  | cons label rest ih =>
      cases hs : step s label with
      | none => simp [hs] at hrun
      | some next =>
          simp only [runSteps, hs] at hrun
          simp only [AllowedRun, hs] at ha
          exact Relation.ReflTransGen.head ⟨label, ha.1, hs⟩ (ih hrun ha.2)

theorem AllowedRun.of_runSteps {s s' : σ} {labels : List α}
    (hrun : runSteps step s labels = some s') : AllowedRun step (fun _ _ => True) s labels := by
  induction labels generalizing s with
  | nil => trivial
  | cons label rest ih =>
      cases hs : step s label with
      | none => simp [hs] at hrun
      | some next =>
          simp only [runSteps, hs] at hrun
          simp only [AllowedRun, hs]
          exact ⟨trivial, ih hrun⟩

theorem runSteps_append (s : σ) (before after : List α) :
    runSteps step s (before ++ after) =
      (runSteps step s before).bind fun next => runSteps step next after := by
  induction before generalizing s with
  | nil => rfl
  | cons label rest ih =>
      rw [List.cons_append, runSteps, runSteps]
      cases step s label with
      | none => rfl
      | some next => exact ih next

theorem length_le_of_runSteps {measure : σ → Nat}
    (hstep : ∀ s label next, step s label = some next → measure next < measure s)
    {s s' : σ} {labels : List α} (hrun : runSteps step s labels = some s') :
    labels.length + measure s' ≤ measure s := by
  induction labels generalizing s with
  | nil =>
      simp only [runSteps, Option.some.injEq] at hrun
      subst hrun
      rw [List.length_nil]
      omega
  | cons label rest ih =>
      rw [runSteps] at hrun
      cases hs : step s label with
      | none =>
          rw [hs] at hrun
          cases hrun
      | some next =>
          rw [hs] at hrun
          have hnext := hstep s label next hs
          have hrest := ih hrun
          rw [List.length_cons]
          omega

theorem exists_runSteps_stuck {measure : σ → Nat}
    (hstep : ∀ s label next, step s label = some next → measure next < measure s) (s : σ) :
    ∃ labels s', runSteps step s labels = some s' ∧ ∀ label, step s' label = none := by
  induction hm : measure s using Nat.strongRecOn generalizing s with
  | ind m ih =>
      by_cases hstuck : ∀ label, step s label = none
      · exact ⟨[], s, rfl, hstuck⟩
      · obtain ⟨label, hlabel⟩ := Classical.not_forall.mp hstuck
        obtain ⟨next, hnext⟩ := Option.ne_none_iff_exists'.mp hlabel
        obtain ⟨labels, s', hrun, hend⟩ :=
          ih (measure next) (hm ▸ hstep s label next hnext) next rfl
        refine ⟨label :: labels, s', ?_, hend⟩
        rw [runSteps, hnext]
        exact hrun

end Run

end OpenvpnServer.Lib
