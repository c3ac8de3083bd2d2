import Mathlib.Data.List.FinRange
import Mathlib.Data.List.Nodup
import Mathlib.Logic.Function.Basic

-- Requests on a shared state, one after another. A run with interleaved requests
-- is serializable when each of them takes effect at one point, as if it ran
-- there alone.
namespace OpenvpnServer.Lib

section Serial

-- `exec` gives the state after a request and whether it was refused.
variable {σ : Type*} {n : Nat} (exec : Fin n → σ → σ × Bool)

def serial (order : List (Fin n)) (s : σ) : σ × List (Fin n) :=
  order.foldl (fun acc i =>
    ((exec i acc.1).1, if (exec i acc.1).2 then i :: acc.2 else acc.2)) (s, [])

theorem serial_concat (order : List (Fin n)) (i : Fin n) (s : σ) :
    serial exec (order ++ [i]) s =
      ((exec i (serial exec order s).1).1,
        if (exec i (serial exec order s).1).2 then i :: (serial exec order s).2
        else (serial exec order s).2) := by
  unfold serial
  rw [List.foldl_append]
  rfl

-- The requests with an outcome are those of some serial run so far.
def Committed (init s : σ) (outcome : Fin n → Option Bool) : Prop :=
  ∃ order : List (Fin n), order.Nodup ∧ (∀ i, i ∈ order ↔ outcome i ≠ none) ∧
    (serial exec order init).1 = s ∧
    ∀ i, i ∈ (serial exec order init).2 ↔ outcome i = some true

variable {exec}

theorem Committed.start (init : σ) : Committed exec init init fun _ => none :=
  ⟨[], List.nodup_nil, by simp, rfl, by simp [serial]⟩

theorem Committed.commit {init s : σ} {outcome : Fin n → Option Bool}
    (h : Committed exec init s outcome) {i : Fin n} (hi : outcome i = none) :
    Committed exec init (exec i s).1 (Function.update outcome i (some (exec i s).2)) := by
  obtain ⟨order, hnodup, hmem, hstate, hrefused⟩ := h
  have hnew : i ∉ order := fun hin => (hmem i).mp hin hi
  refine ⟨order ++ [i], ?_, fun j => ?_, ?_, fun j => ?_⟩
  · rw [List.nodup_append]
    refine ⟨hnodup, List.nodup_singleton i, fun j hj k hk => ?_⟩
    rw [List.mem_singleton] at hk
    subst hk
    rintro rfl
    exact hnew hj
  · rw [List.mem_append, List.mem_singleton]
    by_cases hij : j = i
    · simp [hij]
    · rw [Function.update_of_ne hij, hmem j]
      simp [hij]
  · rw [serial_concat, hstate]
  · rw [serial_concat, hstate]
    dsimp only
    by_cases hij : j = i
    · subst hij
      have hbefore : j ∉ (serial exec order init).2 := by
        rw [hrefused, hi]
        simp
      rw [Function.update_self]
      cases (exec j s).2 with
      | true => simp
      | false => simpa using hbefore
    · rw [Function.update_of_ne hij, ← hrefused j]
      cases (exec i s).2 with
      | true => simp [hij]
      | false => simp

theorem Committed.serializable {init s : σ} {outcome : Fin n → Option Bool}
    (h : Committed exec init s outcome) (hall : ∀ i, outcome i ≠ none) :
    ∃ order : List (Fin n), order.Perm (List.finRange n) ∧ (serial exec order init).1 = s ∧
      ∀ i, i ∈ (serial exec order init).2 ↔ outcome i = some true := by
  obtain ⟨order, hnodup, hmem, hstate, hrefused⟩ := h
  refine ⟨order, ?_, hstate, hrefused⟩
  rw [List.perm_ext_iff_of_nodup hnodup (List.nodup_finRange n)]
  intro i
  rw [hmem i]
  simp [hall i]

end Serial

end OpenvpnServer.Lib
