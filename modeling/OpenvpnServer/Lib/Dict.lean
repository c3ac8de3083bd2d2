import Mathlib.Algebra.BigOperators.Group.List.Basic
import Mathlib.Algebra.Ring.Nat
import Mathlib.Data.List.Nodup

namespace OpenvpnServer.Lib

-- Insertion-ordered dictionaries: Python's `dict`, and a database table with its
-- primary key. Setting a key that is present keeps its position.
structure Dict (κ ν : Type*) where
  entries : List (κ × ν)
  nodup : (entries.map Prod.fst).Nodup
  deriving DecidableEq

namespace Dict

variable {κ ν : Type*}

def empty : Dict κ ν := ⟨[], List.nodup_nil⟩

def keys (d : Dict κ ν) : List κ := d.entries.map Prod.fst

def values (d : Dict κ ν) : List ν := d.entries.map Prod.snd

theorem keys_mapSnd (f : κ → ν → ν) (l : List (κ × ν)) :
    (l.map fun e => (e.1, f e.1 e.2)).map Prod.fst = l.map Prod.fst := by
  simp

theorem nodup_entries (d : Dict κ ν) : d.entries.Nodup := d.nodup.of_map

theorem eq_of_entries : ∀ {d e : Dict κ ν}, d.entries = e.entries → d = e
  | ⟨_, _⟩, ⟨_, _⟩, rfl => rfl

def mapValues (f : κ → ν → ν) (d : Dict κ ν) : Dict κ ν :=
  ⟨d.entries.map fun e => (e.1, f e.1 e.2), by rw [keys_mapSnd]; exact d.nodup⟩

def filter (p : κ → ν → Bool) (d : Dict κ ν) : Dict κ ν :=
  ⟨d.entries.filter fun e => p e.1 e.2, d.nodup.sublist (List.filter_sublist.map Prod.fst)⟩

section Keyed

variable [DecidableEq κ]

def get? (d : Dict κ ν) (k : κ) : Option ν :=
  (d.entries.find? fun e => e.1 = k).map Prod.snd

def setEntry (k : κ) (v : ν) : List (κ × ν) → List (κ × ν)
  | [] => [(k, v)]
  | e :: rest => if e.1 = k then (k, v) :: rest else e :: setEntry k v rest

attribute [local simp] setEntry

theorem mem_keys_setEntry (k : κ) (v : ν) (l : List (κ × ν)) (x : κ) :
    x ∈ (setEntry k v l).map Prod.fst ↔ x = k ∨ x ∈ l.map Prod.fst := by
  induction l with
  | nil => simp
  | cons e rest ih =>
      unfold setEntry
      split
      · rename_i he
        simp [he]
      · simp only [List.map_cons, List.mem_cons, ih]
        tauto

theorem nodup_setEntry (k : κ) (v : ν) {l : List (κ × ν)} (h : (l.map Prod.fst).Nodup) :
    ((setEntry k v l).map Prod.fst).Nodup := by
  induction l with
  | nil => simp
  | cons e rest ih =>
      rw [List.map_cons, List.nodup_cons] at h
      unfold setEntry
      split
      · rename_i he
        rw [List.map_cons, List.nodup_cons, ← he]
        exact h
      · rename_i he
        rw [List.map_cons, List.nodup_cons, mem_keys_setEntry]
        exact ⟨not_or.mpr ⟨he, h.1⟩, ih h.2⟩

def set (d : Dict κ ν) (k : κ) (v : ν) : Dict κ ν :=
  ⟨setEntry k v d.entries, nodup_setEntry k v d.nodup⟩

def erase (d : Dict κ ν) (k : κ) : Dict κ ν := d.filter fun k' _ => k' ≠ k

def modify (d : Dict κ ν) (k : κ) (f : ν → ν) : Dict κ ν :=
  d.mapValues fun k' v => if k' = k then f v else v

end Keyed

section Lookup

variable [DecidableEq κ] (d : Dict κ ν)

theorem get?_eq_some_iff {k : κ} {v : ν} : d.get? k = some v ↔ (k, v) ∈ d.entries := by
  obtain ⟨l, hl⟩ := d
  simp only [get?]
  induction l with
  | nil => simp
  | cons e rest ih =>
      rw [List.map_cons, List.nodup_cons] at hl
      by_cases he : e.1 = k
      · have hrest : (k, v) ∉ rest := fun h => hl.1 (he ▸ List.mem_map_of_mem h)
        rw [List.find?_cons_of_pos (by simpa using he), Option.map_some, Option.some.injEq,
          List.mem_cons, or_iff_left hrest]
        subst he
        exact ⟨fun h => by rw [← h], fun h => by rw [← h]⟩
      · rw [List.find?_cons_of_neg (by simpa using he), ih hl.2, List.mem_cons]
        constructor
        · exact .inr
        · rintro (rfl | h)
          · exact absurd rfl he
          · exact h

theorem get?_eq_none_iff {k : κ} : d.get? k = none ↔ k ∉ d.keys := by
  simp only [get?, Option.map_eq_none_iff, List.find?_eq_none, keys, List.mem_map, not_exists,
    not_and, decide_eq_true_eq]

theorem mem_keys_iff {k : κ} : k ∈ d.keys ↔ ∃ v, d.get? k = some v := by
  rw [← not_iff_not, ← get?_eq_none_iff, Option.eq_none_iff_forall_ne_some, not_exists]

@[simp] theorem get?_empty (k : κ) : (empty : Dict κ ν).get? k = none := rfl

theorem find?_setEntry (k : κ) (v : ν) (l : List (κ × ν)) (x : κ) :
    ((setEntry k v l).find? fun e => e.1 = x).map Prod.snd =
      if x = k then some v else (l.find? fun e => e.1 = x).map Prod.snd := by
  induction l with
  | nil =>
      simp only [setEntry, List.find?_cons, List.find?_nil, eq_comm (a := x)]
      split <;> simp_all
  | cons e rest ih =>
      unfold setEntry
      split
      · rename_i he
        by_cases hx : x = k
        · simp [hx]
        · have hx' : ¬k = x := fun h => hx h.symm
          simp [hx, hx', he]
      · rename_i he
        by_cases hex : e.1 = x
        · have hx : ¬x = k := fun h => he (hex.trans h)
          simp [hex, hx]
        · rw [List.find?_cons_of_neg (by simpa using hex), ih,
            List.find?_cons_of_neg (by simpa using hex)]

theorem get?_set (k : κ) (v : ν) (x : κ) :
    (d.set k v).get? x = if x = k then some v else d.get? x :=
  find?_setEntry k v d.entries x

@[simp] theorem get?_set_self (k : κ) (v : ν) : (d.set k v).get? k = some v := by
  rw [get?_set, if_pos rfl]

theorem get?_set_ne {k x : κ} (v : ν) (h : x ≠ k) : (d.set k v).get? x = d.get? x := by
  rw [get?_set, if_neg h]

theorem get?_set_cases {d : Dict κ ν} {k x : κ} {v w : ν} (h : (d.set k v).get? x = some w) :
    (x = k ∧ w = v) ∨ (x ≠ k ∧ d.get? x = some w) := by
  rw [get?_set] at h
  split at h
  · exact .inl ⟨‹_›, (Option.some.inj h).symm⟩
  · exact .inr ⟨‹_›, h⟩

theorem get?_mapValues (f : κ → ν → ν) (k : κ) :
    (d.mapValues f).get? k = (d.get? k).map (f k) := by
  obtain ⟨l, hl⟩ := d
  simp only [get?, mapValues]
  clear hl
  induction l with
  | nil => rfl
  | cons e rest ih =>
      by_cases he : e.1 = k
      · subst he
        simp
      · rw [List.map_cons, List.find?_cons_of_neg (by simpa using he), ih,
          List.find?_cons_of_neg (by simpa using he)]

theorem get?_modify (k : κ) (f : ν → ν) (x : κ) :
    (d.modify k f).get? x = if x = k then (d.get? x).map f else d.get? x := by
  rw [modify, get?_mapValues]
  split
  · rfl
  · simp

theorem get?_modify_cases {d : Dict κ ν} {k x : κ} {f : ν → ν} {v : ν}
    (h : (d.modify k f).get? x = some v) :
    x = k ∧ (∃ w, d.get? k = some w ∧ v = f w) ∨ x ≠ k ∧ d.get? x = some v := by
  rw [get?_modify] at h
  split at h
  · rename_i hx
    obtain ⟨w, hw, hv⟩ := Option.map_eq_some_iff.mp h
    exact .inl ⟨hx, w, hx ▸ hw, hv.symm⟩
  · rename_i hx
    exact .inr ⟨hx, h⟩

theorem modify_eq_set {k : κ} {v : ν} (f : ν → ν) (h : d.get? k = some v) :
    d.modify k f = d.set k (f v) := by
  rw [get?_eq_some_iff] at h
  obtain ⟨l, hl⟩ := d
  simp only [modify, mapValues, set, mk.injEq]
  simp only at h
  induction l with
  | nil => cases h
  | cons e rest ih =>
      rw [List.map_cons, List.nodup_cons] at hl
      by_cases he : e.1 = k
      · have hother : ∀ x ∈ rest, (x.1, if x.1 = k then f x.2 else x.2) = x := by
          intro x hx
          rw [if_neg]
          rintro rfl
          exact hl.1 (he ▸ List.mem_map_of_mem hx)
        have hold : e = (k, v) := by
          rcases List.mem_cons.mp h with rfl | hmem
          · rfl
          · exact absurd (he ▸ List.mem_map_of_mem hmem) hl.1
        subst hold
        rw [setEntry, if_pos rfl, List.map_cons, List.map_congr_left hother, List.map_id']
        simp
      · have hmem : (k, v) ∈ rest := by
          rcases List.mem_cons.mp h with rfl | hmem
          · exact absurd rfl he
          · exact hmem
        rw [setEntry, if_neg he, List.map_cons, if_neg he, ih hl.2 hmem]

theorem get?_filter (p : κ → ν → Bool) (k : κ) :
    (d.filter p).get? k = (d.get? k).filter (p k) := by
  ext v
  rw [get?_eq_some_iff, Option.filter_eq_some_iff, get?_eq_some_iff]
  simp [filter, List.mem_filter]

theorem get?_erase (k x : κ) : (d.erase k).get? x = if x = k then none else d.get? x := by
  rw [erase, get?_filter]
  split
  · rename_i h
    cases d.get? x <;> simp [h]
  · rename_i h
    cases d.get? x <;> simp [h]

theorem get?_of_erase {d : Dict κ ν} {k x : κ} {v : ν} (h : (d.erase k).get? x = some v) :
    x ≠ k ∧ d.get? x = some v := by
  rw [get?_erase] at h
  split at h
  · cases h
  · exact ⟨‹_›, h⟩

theorem keys_erase (k : κ) : (d.erase k).keys = d.keys.filter fun x => x ≠ k := by
  simp only [erase, filter, keys, List.filter_map]
  rfl

theorem keys_set_of_mem {k : κ} (v : ν) (h : k ∈ d.keys) : (d.set k v).keys = d.keys := by
  obtain ⟨l, hl⟩ := d
  simp only [keys, set] at h ⊢
  clear hl
  induction l with
  | nil => cases h
  | cons e rest ih =>
      unfold setEntry
      by_cases he : e.1 = k
      · rw [if_pos he, List.map_cons, List.map_cons, he]
      · rw [List.map_cons, List.mem_cons] at h
        rw [if_neg he, List.map_cons, List.map_cons, ih (h.resolve_left (Ne.symm he))]

theorem entries_set_of_not_mem {k : κ} (v : ν) (h : k ∉ d.keys) :
    (d.set k v).entries = d.entries ++ [(k, v)] := by
  obtain ⟨l, hl⟩ := d
  simp only [keys, set] at h ⊢
  clear hl
  induction l with
  | nil => rfl
  | cons e rest ih =>
      rw [List.map_cons, List.mem_cons, not_or] at h
      rw [setEntry, if_neg (Ne.symm h.1), ih h.2, List.cons_append]

theorem keys_set_of_not_mem {k : κ} (v : ν) (h : k ∉ d.keys) :
    (d.set k v).keys = d.keys ++ [k] := by
  rw [keys, entries_set_of_not_mem d v h, List.map_append]
  rfl

theorem perm_entries_of_get? {d e : Dict κ ν} (h : ∀ k, d.get? k = e.get? k) :
    d.entries.Perm e.entries := by
  rw [List.perm_ext_iff_of_nodup d.nodup_entries e.nodup_entries]
  rintro ⟨k, v⟩
  rw [← get?_eq_some_iff, ← get?_eq_some_iff, h]

theorem eq_of_keys_of_get? {d e : Dict κ ν} (hkeys : d.keys = e.keys)
    (h : ∀ k, d.get? k = e.get? k) : d = e := by
  have hlen : d.entries.length = e.entries.length := by
    simpa [keys] using congrArg List.length hkeys
  have hentries : d.entries = e.entries := by
    refine List.ext_getElem hlen fun i hd he => ?_
    have hk : d.entries[i].1 = e.entries[i].1 := by
      have hget := congrArg (fun l => l[i]?) hkeys
      simpa [keys, hd, he] using hget
    have hv : d.get? d.entries[i].1 = some d.entries[i].2 :=
      d.get?_eq_some_iff.mpr (List.getElem_mem hd)
    have hw : e.get? e.entries[i].1 = some e.entries[i].2 :=
      e.get?_eq_some_iff.mpr (List.getElem_mem he)
    rw [h, hk, hw] at hv
    exact Prod.ext hk (Option.some.inj hv).symm
  cases d
  cases e
  simp only at hentries
  subst hentries
  rfl

theorem modify_eq_self {k : κ} {v : ν} {f : ν → ν} (h : d.get? k = some v) (hf : f v = v) :
    d.modify k f = d := by
  have hkeys : (d.modify k f).keys = d.keys := by
    simp only [modify, mapValues, keys, List.map_map]
    rfl
  refine eq_of_keys_of_get? hkeys fun x => ?_
  rw [get?_modify]
  by_cases hx : x = k
  · rw [if_pos hx, hx, h, Option.map_some, hf]
  · rw [if_neg hx]

theorem modify_comm {k l : κ} (h : k ≠ l) (f g : ν → ν) :
    (d.modify k f).modify l g = (d.modify l g).modify k f := by
  refine eq_of_keys_of_get? ?_ fun x => ?_
  · simp only [modify, mapValues, keys, List.map_map]
    rfl
  · simp only [get?_modify]
    by_cases hk : x = k
    · have hl : x ≠ l := fun he => h (hk.symm.trans he)
      rw [if_neg hl, if_pos hk, if_pos hk, if_neg hl]
    · rw [if_neg hk, if_neg hk]

theorem erase_comm (k l : κ) : (d.erase k).erase l = (d.erase l).erase k := by
  simp only [erase, filter, mk.injEq, List.filter_filter]
  refine List.filter_congr fun item _ => ?_
  rw [Bool.and_comm]

theorem mem_values_iff {v : ν} : v ∈ d.values ↔ ∃ k, d.get? k = some v := by
  simp [values, get?_eq_some_iff]

theorem get?_foldl_set {key : ν → κ} {rows : List ν} {d : Dict κ ν} {k : κ} {row : ν}
    (h : (rows.foldl (fun d row => d.set (key row) row) d).get? k = some row) :
    (row ∈ rows ∧ key row = k) ∨ d.get? k = some row := by
  induction rows generalizing d with
  | nil => exact .inr h
  | cons first rest ih =>
      rw [List.foldl_cons] at h
      rcases ih h with ⟨hmem, hkey⟩ | hset
      · exact .inl ⟨List.mem_cons_of_mem _ hmem, hkey⟩
      · rcases get?_set_cases hset with ⟨rfl, rfl⟩ | ⟨-, hold⟩
        · exact .inl ⟨List.mem_cons_self, rfl⟩
        · exact .inr hold

theorem exists_foldl_set {key : ν → κ} {rows : List ν} {d : Dict κ ν} {k : κ}
    (h : (∃ row ∈ rows, key row = k) ∨ ∃ row, d.get? k = some row) :
    ∃ row, (rows.foldl (fun d row => d.set (key row) row) d).get? k = some row := by
  induction rows generalizing d with
  | nil =>
      rcases h with ⟨row, hrow, -⟩ | hd
      · exact absurd hrow List.not_mem_nil
      · exact hd
  | cons first rest ih =>
      rw [List.foldl_cons]
      apply ih
      by_cases hfirst : key first = k
      · exact .inr ⟨first, by rw [hfirst, get?_set_self]⟩
      · rw [get?_set_ne _ _ (Ne.symm hfirst)]
        refine h.imp_left ?_
        rintro ⟨row, hrow, hkey⟩
        rcases List.mem_cons.mp hrow with rfl | hrest
        · exact absurd hkey hfirst
        · exact ⟨row, hrest, hkey⟩

theorem entries_foldl_set {rest : List (κ × ν)} {d : Dict κ ν}
    (h : ((d.entries ++ rest).map Prod.fst).Nodup) :
    (rest.foldl (fun d e => d.set e.1 e.2) d).entries = d.entries ++ rest := by
  induction rest generalizing d with
  | nil => simp
  | cons e rest ih =>
      have hnew : e.1 ∉ d.keys := by
        intro hmem
        rw [List.map_append, List.nodup_append] at h
        exact h.2.2 _ hmem _ List.mem_cons_self rfl
      have hset := entries_set_of_not_mem _ e.2 hnew
      rw [List.foldl_cons, ih (by simpa [hset] using h), hset]
      simp

end Lookup

section Total

variable [DecidableEq κ] {M : Type*} [AddCommMonoid M]

def total (f : κ → ν → M) (d : Dict κ ν) : M := (d.entries.map fun e => f e.1 e.2).sum

omit [DecidableEq κ] in
@[simp] theorem total_empty (f : κ → ν → M) : total f (empty : Dict κ ν) = 0 := rfl

theorem total_set_of_none (f : κ → ν → M) {d : Dict κ ν} {k : κ} (h : d.get? k = none) (v : ν) :
    total f (d.set k v) = total f d + f k v := by
  rw [get?_eq_none_iff] at h
  obtain ⟨l, hl⟩ := d
  simp only [total, set, keys] at h ⊢
  clear hl
  induction l with
  | nil => simp [setEntry]
  | cons e rest ih =>
      rw [List.map_cons, List.mem_cons, not_or] at h
      rw [setEntry, if_neg (fun he => h.1 he.symm), List.map_cons, List.sum_cons, ih h.2,
        List.map_cons, List.sum_cons, add_assoc]

theorem total_set_of_some (f : κ → ν → M) {d : Dict κ ν} {k : κ} {old v : ν} {grown : M}
    (h : d.get? k = some old) (hv : f k v = f k old + grown) :
    total f (d.set k v) = total f d + grown := by
  rw [get?_eq_some_iff] at h
  obtain ⟨l, hl⟩ := d
  simp only [total, set] at h ⊢
  induction l with
  | nil => cases h
  | cons e rest ih =>
      rw [List.map_cons, List.nodup_cons] at hl
      by_cases he : e.1 = k
      · have hold : e = (k, old) := by
          rcases List.mem_cons.mp h with rfl | hmem
          · rfl
          · exact absurd (he ▸ List.mem_map_of_mem hmem) hl.1
        subst hold
        rw [setEntry, if_pos rfl, List.map_cons, List.sum_cons, List.map_cons, List.sum_cons]
        rw [hv, add_right_comm]
      · have hmem : (k, old) ∈ rest := by
          rcases List.mem_cons.mp h with rfl | hmem
          · exact absurd rfl he
          · exact hmem
        rw [setEntry, if_neg he, List.map_cons, List.sum_cons, ih hl.2 hmem,
          List.map_cons, List.sum_cons, add_assoc]

theorem total_set_grown (f : κ → ν → M) {d : Dict κ ν} {k : κ} {v : ν} {grown : M}
    (h : f k v = grown + ((d.get? k).map (f k)).getD 0) :
    total f (d.set k v) = total f d + grown := by
  cases hk : d.get? k with
  | none =>
      rw [hk, Option.map_none, Option.getD_none, add_zero] at h
      rw [total_set_of_none f hk, h]
  | some old =>
      rw [hk, Option.map_some, Option.getD_some, add_comm] at h
      exact total_set_of_some f hk h

omit [DecidableEq κ] in
theorem total_filter_add (f : κ → ν → M) (d : Dict κ ν) (p : κ → ν → Bool) :
    total f (d.filter p) + total f (d.filter fun k v => !p k v) = total f d := by
  obtain ⟨l, hl⟩ := d
  simp only [total, filter]
  clear hl
  induction l with
  | nil => simp
  | cons e rest ih =>
      cases hp : p e.1 e.2 with
      | true => simp [hp, add_assoc, ih]
      | false => simp [hp, add_left_comm, ih]

omit [DecidableEq κ] in
theorem total_mapValues (f : κ → ν → M) (d : Dict κ ν) {g : κ → ν → ν}
    (h : ∀ k v, f k (g k v) = f k v) : total f (d.mapValues g) = total f d := by
  simp [total, mapValues, Function.comp_def, h]

end Total

end Dict

end OpenvpnServer.Lib
