import Mathlib.Algebra.BigOperators.Group.Finset.Basic
import Mathlib.Algebra.Group.WithOne.Defs
import Mathlib.Data.List.Sort
import OpenvpnServer.Lib.Dict
import OpenvpnServer.Lib.Text

-- SELECT .., SUM(..) GROUP BY .., and the tables to which such results are added.
namespace OpenvpnServer.Lib

section Like

-- The rest of a pattern of LIKE, behind a backslash or not.
def likeFrom : Bool → Text → Text → Bool
  | _, [], text => text.isEmpty
  | escaped, p :: pattern, text =>
      if !escaped && p = '%' then text.tails.any (likeFrom false pattern)
      else if !escaped && p = '\\' then likeFrom true pattern text
      else text.head?.any (fun c => !escaped && p = '_' || p = c) && likeFrom false pattern text.tail

-- LIKE: the percent sign stands for any text and the underscore for any character. A
-- backslash takes the next character as it is.
def like (pattern text : Text) : Bool := likeFrom false pattern text

theorem like_starting {start : Text} (h : ∀ c ∈ start, c ≠ '%' ∧ c ≠ '\\' ∧ c ≠ '_')
    (text : Text) : like (start ++ ['%']) text = start.isPrefixOf text := by
  unfold like
  induction start generalizing text with
  | nil =>
      simp [likeFrom]
  | cons p rest ih =>
      obtain ⟨⟨hany, hescape, hone⟩, hrest⟩ := List.forall_mem_cons.mp h
      cases text with
      | nil => simp [likeFrom, hany, hescape]
      | cons c text =>
          have hsame : (p :: rest).isPrefixOf (c :: text) =
              (decide (p = c) && rest.isPrefixOf text) := rfl
          simp [likeFrom, hany, hescape, hone, ih hrest, hsame]

end Like

section Sums

variable {M : Type*}

-- The value where `p` holds. Unlike a sum of plain values, a sum of these tells
-- rows that add up to zero from no rows at all.
def only (p : Prop) [Decidable p] (value : M) : WithZero M := if p then value else 0

theorem only_add [Add M] (p : Prop) [Decidable p] (a b : M) :
    only p (a + b) = only p a + only p b := by
  unfold only
  split
  · rw [WithZero.coe_add]
  · rfl

theorem sum_map_filter {α : Type*} [AddCommMonoid M] (p : α → Bool) (value : α → M)
    (rows : List α) :
    ((rows.filter p).map value).sum = (rows.map fun row => if p row then value row else 0).sum := by
  induction rows with
  | nil => rfl
  | cons row rest ih =>
      cases hp : p row <;> simp [hp, ih]

end Sums

namespace Dict

section Update

variable {κ ν : Type*}

theorem mapValues_set [DecidableEq κ] (d : Dict κ ν) (k : κ) (v : ν) (f : ν → ν) :
    (d.set k v).mapValues (fun _ x => f x) = (d.mapValues fun _ x => f x).set k (f v) := by
  obtain ⟨l, hl⟩ := d
  have hentries : (setEntry k v l).map (fun e => (e.1, f e.2)) =
      setEntry k (f v) (l.map fun e => (e.1, f e.2)) := by
    clear hl
    induction l with
    | nil => rfl
    | cons e rest ih =>
        by_cases he : e.1 = k
        · simp [setEntry, he]
        · simp [setEntry, he, ih]
  simp only [set, mapValues, hentries]

theorem filter_mapValues (d : Dict κ ν) (p : κ → ν → Bool) (f : κ → ν → ν)
    (h : ∀ k v, p k (f k v) = p k v) : (d.mapValues f).filter p = (d.filter p).mapValues f := by
  simp only [filter, mapValues, List.filter_map, Function.comp_def, h]

end Update

variable {α κ M : Type*} [DecidableEq κ]

section Accumulate

variable [Add M]

-- INSERT .. ON CONFLICT DO UPDATE, adding to the row that is there.
def accumulate (d : Dict κ M) (k : κ) (v : M) : Dict κ M :=
  d.set k (match d.get? k with
    | none => v
    | some old => old + v)

def accumulateAll (key : α → κ) (value : α → M) (rows : List α) (d : Dict κ M) : Dict κ M :=
  rows.foldl (fun d row => d.accumulate (key row) (value row)) d

theorem mem_keys_accumulate (d : Dict κ M) (k : κ) (v : M) (x : κ) :
    x ∈ (d.accumulate k v).keys ↔ x = k ∨ x ∈ d.keys :=
  mem_keys_setEntry k _ d.entries x

theorem mem_keys_accumulateAll (key : α → κ) (value : α → M) (rows : List α) (d : Dict κ M)
    (x : κ) : x ∈ (accumulateAll key value rows d).keys ↔ x ∈ rows.map key ∨ x ∈ d.keys := by
  induction rows generalizing d with
  | nil => simp [accumulateAll]
  | cons row rest ih =>
      rw [accumulateAll, List.foldl_cons, ← accumulateAll, ih, mem_keys_accumulate, List.map_cons,
        List.mem_cons]
      tauto

end Accumulate

section Total

variable [Add M] {N : Type*} [AddCommMonoid N] {f : κ → M → N}

theorem total_accumulate (hf : ∀ k a b, f k (a + b) = f k a + f k b) (d : Dict κ M) (k : κ)
    (v : M) : total f (d.accumulate k v) = total f d + f k v := by
  refine total_set_grown f ?_
  cases d.get? k with
  | none => simp
  | some old => simp [hf, add_comm]

theorem total_accumulateAll (hf : ∀ k a b, f k (a + b) = f k a + f k b) (key : α → κ)
    (value : α → M) (rows : List α) (d : Dict κ M) :
    total f (accumulateAll key value rows d) =
      total f d + (rows.map fun row => f (key row) (value row)).sum := by
  induction rows generalizing d with
  | nil => simp [accumulateAll]
  | cons row rest ih =>
      rw [accumulateAll, List.foldl_cons, ← accumulateAll, ih, total_accumulate hf, List.map_cons,
        List.sum_cons, add_assoc]

end Total

section GroupSum

variable [AddCommMonoid M]

def groupSum (key : α → κ) (value : α → M) (rows : List α) : Dict κ M :=
  accumulateAll key value rows .empty

def held (d : Dict κ M) (k : κ) : WithZero M := d.get? k

theorem get?_eq_of_held {d e : Dict κ M} (h : ∀ k, d.held k = e.held k) (k : κ) :
    d.get? k = e.get? k := h k

theorem held_accumulate (d : Dict κ M) (k : κ) (v : M) (x : κ) :
    (d.accumulate k v).held x = d.held x + only (k = x) v := by
  unfold held accumulate only
  rw [get?_set]
  by_cases hx : x = k
  · subst hx
    rw [if_pos rfl, if_pos rfl]
    cases d.get? x with
    | none => exact (zero_add (v : WithZero M)).symm
    | some old => exact WithZero.coe_add old v
  · rw [if_neg hx, if_neg (Ne.symm hx)]
    exact (add_zero (held d x)).symm

theorem held_accumulateAll (key : α → κ) (value : α → M) (rows : List α) (d : Dict κ M) (x : κ) :
    (accumulateAll key value rows d).held x =
      d.held x + (rows.map fun row => only (key row = x) (value row)).sum := by
  induction rows generalizing d with
  | nil => simp [accumulateAll]
  | cons row rest ih =>
      rw [accumulateAll, List.foldl_cons, ← accumulateAll, ih, held_accumulate, List.map_cons,
        List.sum_cons, add_assoc]

theorem held_groupSum (key : α → κ) (value : α → M) (rows : List α) (x : κ) :
    (groupSum key value rows).held x =
      (rows.map fun row => only (key row = x) (value row)).sum := by
  rw [groupSum, held_accumulateAll]
  exact zero_add _

theorem mem_keys_groupSum (key : α → κ) (value : α → M) (rows : List α) (x : κ) :
    x ∈ (groupSum key value rows).keys ↔ x ∈ rows.map key := by
  rw [groupSum, mem_keys_accumulateAll]
  exact or_iff_left List.not_mem_nil

theorem sum_values_groupSum (key : α → κ) (value : α → M) (rows : List α) :
    (groupSum key value rows).values.sum = (rows.map value).sum := by
  have h := total_accumulateAll (f := fun _ v => v) (fun _ _ _ => rfl) key value rows
    (empty : Dict κ M)
  rw [total_empty, zero_add] at h
  exact h

theorem sum_get?_getD {grid : List κ} (hnodup : grid.Nodup) (d : Dict κ M)
    (hkeys : ∀ k ∈ d.keys, k ∈ grid) :
    (grid.map fun k => (d.get? k).getD 0).sum = d.values.sum := by
  have hvalues : d.values = d.keys.map fun k => (d.get? k).getD 0 := by
    rw [values, keys, List.map_map]
    refine List.map_congr_left fun entry hentry => ?_
    rw [Function.comp_apply, d.get?_eq_some_iff.mpr hentry, Option.getD_some]
  have hnodupKeys : d.keys.Nodup := d.nodup
  rw [hvalues, ← List.sum_toFinset _ hnodup, ← List.sum_toFinset _ hnodupKeys]
  refine (Finset.sum_subset ?_ ?_).symm
  · intro k hk
    rw [List.mem_toFinset] at hk ⊢
    exact hkeys k hk
  · intro k _ hk
    rw [List.mem_toFinset] at hk
    rw [d.get?_eq_none_iff.mpr hk, Option.getD_none]

end GroupSum

section Sorted

variable {ν : Type*} {κ : Type*} [LinearOrder κ]

-- ORDER BY the key.
def sorted (d : Dict κ ν) : List (κ × ν) := d.entries.insertionSort fun a b => a.1 ≤ b.1

theorem mem_sorted (d : Dict κ ν) (entry : κ × ν) :
    entry ∈ d.sorted ↔ d.get? entry.1 = some entry.2 := by
  rw [sorted, List.mem_insertionSort, get?_eq_some_iff]

theorem perm_sorted (d : Dict κ ν) : d.sorted.Perm d.entries := List.perm_insertionSort _ _

theorem sorted_congr {d e : Dict κ ν} (h : ∀ k, d.get? k = e.get? k) : d.sorted = e.sorted := by
  have hperm : d.sorted.Perm e.sorted :=
    (perm_sorted d).trans ((perm_entries_of_get? h).trans (perm_sorted e).symm)
  have hsorted (d : Dict κ ν) : d.sorted.Pairwise fun a b => a.1 ≤ b.1 :=
    List.pairwise_insertionSort _ _
  refine List.Perm.eq_of_pairwise ?_ (hsorted d) (hsorted e) hperm
  intro a b ha hb hab hba
  rw [mem_sorted] at ha hb
  have hkey : a.1 = b.1 := le_antisymm hab hba
  rw [h, hkey, hb, Option.some.injEq] at ha
  exact Prod.ext hkey ha.symm

end Sorted

end Dict

end OpenvpnServer.Lib
