import Mathlib.Data.List.Nodup
import Mathlib.Data.List.Sort
import Mathlib.Tactic.Tauto

-- Items in order, each of which takes over the label of the last one of its key or
-- starts a label of its own.
namespace OpenvpnServer.Lib

section Labelling

variable {α κ : Type*} {key : α → κ} {items : List α} {v w : Nat → Nat} {k : Nat} {x : α}

def LastOf (key : α → κ) (items : List α) (k : κ) (i : Nat) : Prop :=
  items[i]?.map key = some k ∧ ∀ j, i < j → items[j]?.map key ≠ some k

theorem LastOf.lt_length {k : κ} {i : Nat} (h : LastOf key items k i) : i < items.length := by
  obtain ⟨y, hy, -⟩ := Option.map_eq_some_iff.mp h.1
  exact (List.getElem?_eq_some_iff.mp hy).1

theorem LastOf.unique {k : κ} {i j : Nat} (hi : LastOf key items k i) (hj : LastOf key items k j) :
    i = j := by
  rcases Nat.lt_trichotomy i j with hlt | rfl | hlt
  · exact absurd hj.1 (hi.2 j hlt)
  · rfl
  · exact absurd hi.1 (hj.2 i hlt)

theorem lastOf_of_split {k : κ} {front back : List α} (hx : key x = k)
    (hback : ∀ y ∈ back, key y ≠ k) : LastOf key (front ++ x :: back) k front.length := by
  constructor
  · rw [List.getElem?_append_right (Nat.le_refl _), Nat.sub_self, List.getElem?_cons_zero,
      Option.map_some, hx]
  · intro j hj hkey
    obtain ⟨y, hy, hyk⟩ := Option.map_eq_some_iff.mp hkey
    obtain ⟨d, rfl⟩ : ∃ d, j = front.length + (d + 1) := ⟨j - front.length - 1, by omega⟩
    rw [List.getElem?_append_right (Nat.le_add_right _ _), Nat.add_sub_cancel_left,
      List.getElem?_cons_succ] at hy
    exact hback y (List.mem_of_getElem? hy) hyk

variable {joins J K : List α → α → Prop}

-- Labels are positions counted from one.
structure Labelled (key : α → κ) (joins : List α → α → Prop) (items : List α)
    (label : Nat → Nat) : Prop where
  joined : ∀ k x, items[k]? = some x → joins (items.take k) x →
    ∃ j, LastOf key (items.take k) (key x) j ∧ label k = label j
  fresh : ∀ k x, items[k]? = some x → ¬joins (items.take k) x → label k = k + 1

theorem Labelled.nil : Labelled key joins [] v :=
  ⟨fun _ _ h => (Option.some_ne_none _ h.symm).elim,
    fun _ _ h => (Option.some_ne_none _ h.symm).elim⟩

theorem Labelled.append_singleton (h : Labelled key joins items v)
    (hold : ∀ i, i < items.length → w i = v i)
    (hjoined : joins items x → ∃ j, LastOf key items (key x) j ∧ w items.length = v j)
    (hfresh : ¬joins items x → w items.length = items.length + 1) :
    Labelled key joins (items ++ [x]) w := by
  have hcases (k : Nat) (y : α) (hy : (items ++ [x])[k]? = some y) :
      (items[k]? = some y ∧ (items ++ [x]).take k = items.take k ∧ k < items.length) ∨
        (k = items.length ∧ y = x ∧ (items ++ [x]).take k = items) := by
    by_cases hk : k < items.length
    · rw [List.getElem?_append_left hk] at hy
      exact .inl ⟨hy, List.take_append_of_le_length (Nat.le_of_lt hk), hk⟩
    · rw [List.getElem?_append_right (Nat.le_of_not_lt hk), List.getElem?_singleton] at hy
      split at hy
      · obtain rfl : k = items.length := by omega
        exact .inr ⟨rfl, (Option.some.inj hy).symm, List.take_left⟩
      · cases hy
  constructor
  · intro k y hy hjoins
    rcases hcases k y hy with ⟨hy, htake, hk⟩ | ⟨rfl, rfl, htake⟩
    · rw [htake] at hjoins ⊢
      obtain ⟨j, hj, hlabel⟩ := h.joined k y hy hjoins
      have hlt := hj.lt_length
      rw [List.length_take] at hlt
      exact ⟨j, hj, by rw [hold k hk, hold j (by omega), hlabel]⟩
    · rw [htake] at hjoins ⊢
      obtain ⟨j, hj, hlabel⟩ := hjoined hjoins
      exact ⟨j, hj, by rw [hold j hj.lt_length, hlabel]⟩
  · intro k y hy hjoins
    rcases hcases k y hy with ⟨hy, htake, hk⟩ | ⟨rfl, rfl, htake⟩
    · rw [htake] at hjoins
      rw [hold k hk, h.fresh k y hy hjoins]
    · rw [htake] at hjoins
      exact hfresh hjoins

theorem Labelled.label_le (h : Labelled key joins items v) (hx : items[k]? = some x) :
    v k ≤ k + 1 := by
  induction k using Nat.strongRecOn generalizing x with
  | ind k ih =>
      by_cases hj : joins (items.take k) x
      · obtain ⟨j, hlast, hlabel⟩ := h.joined k x hx hj
        obtain ⟨y, hy, -⟩ := Option.map_eq_some_iff.mp hlast.1
        rw [List.getElem?_take] at hy
        split at hy
        · rename_i hlt
          have hle := ih j hlt hy
          omega
        · cases hy
      · exact Nat.le_of_eq (h.fresh k x hx hj)

theorem Labelled.joins_of_agree (hv : Labelled key J items v) (hw : Labelled key K items w)
    (hagree : ∀ i j, i < items.length → j < items.length → v i = v j → w i = w j)
    (hx : items[k]? = some x) (hj : J (items.take k) x) : K (items.take k) x := by
  obtain ⟨j, hlast, hlabel⟩ := hv.joined k x hx hj
  have hk : k < items.length := (List.getElem?_eq_some_iff.mp hx).1
  have hlt := hlast.lt_length
  rw [List.length_take] at hlt
  by_contra hk'
  obtain ⟨y, hy⟩ : ∃ y, items[j]? = some y := ⟨_, List.getElem?_eq_getElem (by omega)⟩
  have hsame := hagree k j hk (by omega) hlabel
  have hle := hw.label_le hy
  rw [hw.fresh k x hx hk'] at hsame
  omega

theorem Labelled.eq_of_joins_iff (hv : Labelled key J items v) (hw : Labelled key K items w)
    (hjoins : ∀ k x, items[k]? = some x → (J (items.take k) x ↔ K (items.take k) x))
    (hk : k < items.length) : v k = w k := by
  induction k using Nat.strongRecOn with
  | ind k ih =>
      have hx : items[k]? = some items[k] := List.getElem?_eq_getElem hk
      by_cases hj : J (items.take k) items[k]
      · obtain ⟨i, hi, hvi⟩ := hv.joined k _ hx hj
        obtain ⟨j, hj', hwj⟩ := hw.joined k _ hx ((hjoins k _ hx).mp hj)
        have hlt := hi.lt_length
        rw [List.length_take] at hlt
        rw [hvi, hwj, hj'.unique hi, ih i (by omega) (by omega)]
      · rw [hv.fresh k _ hx hj, hw.fresh k _ hx fun hK => hj ((hjoins k _ hx).mpr hK)]

theorem Labelled.agree_iff (hv : Labelled key J items v) (hw : Labelled key K items w) :
    (∀ i j, i < items.length → j < items.length → (v i = v j ↔ w i = w j)) ↔
      ∀ k x, items[k]? = some x → (J (items.take k) x ↔ K (items.take k) x) := by
  constructor
  · intro hagree k x hx
    constructor
    · exact hv.joins_of_agree hw (fun i j hi hj => (hagree i j hi hj).mp) hx
    · exact hw.joins_of_agree hv (fun i j hi hj => (hagree i j hi hj).mpr) hx
  · intro hjoins i j hi hj
    rw [hv.eq_of_joins_iff hw hjoins hi, hv.eq_of_joins_iff hw hjoins hj]

end Labelling

section Search

variable {α : Type*}

theorem find?_take_filter (p q : α → Bool) (l : List α) (n : Nat) (x : α) :
    ((l.filter p).take n).find? q = some x ↔
      ∃ front back, l = front ++ x :: back ∧ (p x = true ∧ q x = true) ∧
        (∀ y ∈ front, ¬(p y = true ∧ q y = true)) ∧ (front.filter p).length < n := by
  induction l generalizing n with
  | nil => simp
  | cons y rest ih =>
      -- a split of the list starts with `x` itself or skips `y`
      have hsplit : (∃ front back, y :: rest = front ++ x :: back ∧ (p x = true ∧ q x = true) ∧
            (∀ z ∈ front, ¬(p z = true ∧ q z = true)) ∧ (front.filter p).length < n) ↔
          (y = x ∧ (p x = true ∧ q x = true) ∧ 0 < n) ∨
            (¬(p y = true ∧ q y = true) ∧ ∃ front back, rest = front ++ x :: back ∧
              (p x = true ∧ q x = true) ∧ (∀ z ∈ front, ¬(p z = true ∧ q z = true)) ∧
              ((y :: front).filter p).length < n) := by
        constructor
        · rintro ⟨front, back, hl, hx, hfront, hlen⟩
          cases front with
          | nil => exact .inl ⟨(List.cons.inj hl).1, hx, hlen⟩
          | cons z front =>
              obtain ⟨rfl, hrest⟩ := List.cons.inj hl
              refine .inr ⟨hfront y List.mem_cons_self, front, back, hrest, hx, ?_, hlen⟩
              exact fun z hz => hfront z (List.mem_cons_of_mem _ hz)
        · rintro (⟨rfl, hx, hn⟩ | ⟨hy, front, back, rfl, hx, hfront, hlen⟩)
          · exact ⟨[], rest, rfl, hx, by simp, hn⟩
          · refine ⟨y :: front, back, rfl, hx, ?_, hlen⟩
            intro z hz
            rcases List.mem_cons.mp hz with rfl | hz
            · exact hy
            · exact hfront z hz
      rw [hsplit]
      cases hp : p y with
      | false =>
          have hne : ¬(y = x ∧ (p x = true ∧ q x = true) ∧ 0 < n) := by
            rintro ⟨rfl, ⟨hpx, -⟩, -⟩
            rw [hp] at hpx
            cases hpx
          rw [or_iff_right hne]
          simp [hp, ih]
      | true =>
          cases n with
          | zero => simp
          | succ n =>
              rw [List.filter_cons_of_pos hp, List.take_succ_cons]
              cases hq : q y with
              | true =>
                  rw [List.find?_cons_of_pos (by simp [hq]), Option.some.injEq]
                  constructor
                  · rintro rfl
                    exact .inl ⟨rfl, ⟨hp, hq⟩, Nat.succ_pos n⟩
                  · rintro (⟨rfl, -⟩ | ⟨hy, -⟩)
                    · rfl
                    · exact absurd ⟨rfl, rfl⟩ hy
              | false =>
                  have hne : ¬(y = x ∧ (p x = true ∧ q x = true) ∧ 0 < n + 1) := by
                    rintro ⟨rfl, ⟨-, hqx⟩, -⟩
                    rw [hq] at hqx
                    cases hqx
                  rw [List.find?_cons_of_neg (by simp [hq]), ih, or_iff_right hne]
                  simp [hp]

theorem find?_take_insertionSort {r : α → α → Prop} [DecidableRel r] [Std.Total r] [IsTrans α r]
    {l : List α} (hnodup : l.Nodup) {x : α} (hx : x ∈ l) {p : α → Bool} (hp : p x = true)
    (hfirst : ∀ y ∈ l, p y = true → r y x → y = x) {n : Nat}
    (hcount : (l.filter fun y => r y x).length ≤ n) :
    ((l.insertionSort r).take n).find? p = some x := by
  have hperm := List.perm_insertionSort r l
  have hsorted := List.pairwise_insertionSort r l
  obtain ⟨front, back, hsplit⟩ := List.append_of_mem (hperm.mem_iff.mpr hx)
  have hbefore : ∀ y ∈ front, r y x := by
    intro y hy
    rw [hsplit] at hsorted
    exact (List.pairwise_append.mp hsorted).2.2 y hy x List.mem_cons_self
  have hself : r x x := (Std.Total.total x x).elim id id
  have hlength : front.length < n := by
    have hle : (front ++ [x]).length ≤ (l.filter fun y => r y x).length := by
      rw [← (hperm.filter _).length_eq, hsplit]
      apply List.Sublist.length_le
      have hall : (front ++ [x]).filter (fun y => r y x) = front ++ [x] := by
        apply List.filter_eq_self.mpr
        intro y hy
        rcases List.mem_append.mp hy with hy | hy
        · simpa using hbefore y hy
        · rw [List.mem_singleton.mp hy]
          simpa using hself
      rw [← hall]
      apply List.Sublist.filter
      simp
    rw [List.length_append, List.length_singleton] at hle
    omega
  have hfront : front.find? p = none := by
    apply List.find?_eq_none.mpr
    intro y hy hpy
    have hmem : y ∈ l := by
      rw [← hperm.mem_iff, hsplit]
      exact List.mem_append_left _ hy
    have hdup : (front ++ x :: back).Nodup := by
      rw [← hsplit]
      exact hperm.nodup_iff.mpr hnodup
    obtain rfl := hfirst y hmem hpy (hbefore y hy)
    exact (List.disjoint_of_nodup_append hdup) hy List.mem_cons_self
  rw [hsplit, List.take_append, List.find?_append, List.take_of_length_le (by omega), hfront,
    Option.none_or]
  obtain ⟨k, hk⟩ := Nat.exists_eq_succ_of_ne_zero (Nat.sub_ne_zero_of_lt hlength)
  rw [hk, List.take_succ_cons, List.find?_cons_of_pos hp]

end Search

end OpenvpnServer.Lib
