import Mathlib.Data.List.Basic

namespace OpenvpnServer.Lib

section Table

variable {α : Type*}

-- Tables of records are lists, with a record's index as its id. What a row of a
-- table can be after a row was replaced or appended.
theorem getElem?_set_cases {l : List α} {i j : Nat} {a x : α} (h : (l.set i a)[j]? = some x) :
    (i = j ∧ x = a) ∨ (i ≠ j ∧ l[j]? = some x) := by
  by_cases hij : i = j
  · subst hij
    rw [List.getElem?_set_self', Option.map_eq_map, Option.map_eq_some_iff] at h
    obtain ⟨_, _, rfl⟩ := h
    exact .inl ⟨rfl, rfl⟩
  · rw [List.getElem?_set_ne hij] at h
    exact .inr ⟨hij, h⟩

theorem getElem?_concat_cases {l : List α} {j : Nat} {a x : α} (h : (l ++ [a])[j]? = some x) :
    l[j]? = some x ∨ (j = l.length ∧ x = a) := by
  by_cases hj : j < l.length
  · rw [List.getElem?_append_left hj] at h
    exact .inl h
  · rw [List.getElem?_append_right (Nat.le_of_not_lt hj), List.getElem?_singleton] at h
    split at h
    · cases h
      exact .inr ⟨by omega, rfl⟩
    · cases h

theorem getElem?_concat_of_some {l : List α} {j : Nat} {a x : α} (h : l[j]? = some x) :
    (l ++ [a])[j]? = some x := by
  rw [List.getElem?_append_left (List.getElem?_eq_some_iff.mp h).1]
  exact h

end Table

section MapM

variable {α β : Type*} {f : α → Option β}

theorem exists_of_mapM {l : List α} {results : List β} (h : l.mapM f = some results) {x : α}
    (hx : x ∈ l) : ∃ y ∈ results, f x = some y := by
  induction l generalizing results with
  | nil => cases hx
  | cons first rest ih =>
      simp only [List.mapM_cons, Option.pure_def, Option.bind_eq_bind, Option.bind_eq_some_iff,
        Option.some.injEq] at h
      obtain ⟨y, hy, more, hmore, rfl⟩ := h
      rcases List.mem_cons.mp hx with rfl | hrest
      · exact ⟨y, List.mem_cons_self, hy⟩
      · obtain ⟨z, hz, hfz⟩ := ih hmore hrest
        exact ⟨z, List.mem_cons_of_mem _ hz, hfz⟩

theorem exists_of_mem_mapM {l : List α} {results : List β} (h : l.mapM f = some results) {y : β}
    (hy : y ∈ results) : ∃ x ∈ l, f x = some y := by
  induction l generalizing results with
  | nil =>
      cases h
      cases hy
  | cons first rest ih =>
      simp only [List.mapM_cons, Option.pure_def, Option.bind_eq_bind, Option.bind_eq_some_iff,
        Option.some.injEq] at h
      obtain ⟨z, hz, more, hmore, rfl⟩ := h
      rcases List.mem_cons.mp hy with rfl | hrest
      · exact ⟨first, List.mem_cons_self, hz⟩
      · obtain ⟨x, hx, hfx⟩ := ih hmore hrest
        exact ⟨x, List.mem_cons_of_mem _ hx, hfx⟩

theorem length_mapM {l : List α} {results : List β} (h : l.mapM f = some results) :
    results.length = l.length := by
  induction l generalizing results with
  | nil =>
      cases h
      rfl
  | cons first rest ih =>
      simp only [List.mapM_cons, Option.pure_def, Option.bind_eq_bind, Option.bind_eq_some_iff,
        Option.some.injEq] at h
      obtain ⟨_, -, more, hmore, rfl⟩ := h
      rw [List.length_cons, List.length_cons, ih hmore]

theorem mapM_eq_some_map {l : List α} {g : α → β} (h : ∀ x ∈ l, f x = some (g x)) :
    l.mapM f = some (l.map g) := by
  induction l with
  | nil => rfl
  | cons first rest ih =>
      rw [List.mapM_cons, h first List.mem_cons_self,
        ih fun x hx => h x (List.mem_cons_of_mem _ hx)]
      rfl

theorem exists_mapM {l : List α} (h : ∀ x ∈ l, ∃ y, f x = some y) :
    ∃ results, l.mapM f = some results := by
  induction l with
  | nil => exact ⟨[], rfl⟩
  | cons first rest ih =>
      rw [List.forall_mem_cons] at h
      obtain ⟨y, hy⟩ := h.1
      obtain ⟨more, hmore⟩ := ih h.2
      exact ⟨y :: more, by rw [List.mapM_cons, hy, hmore]; rfl⟩

theorem mem_mapM_iff {l : List α} {results : List β} (h : l.mapM f = some results) (y : β) :
    y ∈ results ↔ ∃ x ∈ l, f x = some y := by
  constructor
  · exact exists_of_mem_mapM h
  · rintro ⟨x, hx, hy⟩
    obtain ⟨z, hz, hfx⟩ := exists_of_mapM h hx
    rw [hy, Option.some.injEq] at hfx
    rw [hfx]
    exact hz

end MapM

end OpenvpnServer.Lib
