import Mathlib.Data.Finset.Card
import OpenvpnServer.Lib.Dict

-- Bounded tables in the order of last use: a key that is used goes to the end, and the
-- front is dropped.
namespace OpenvpnServer.Lib.Dict

section Drop

variable {κ ν : Type*}

def dropOldest (n : Nat) : List (κ × ν) → List (κ × ν)
  | [] => []
  | e :: rest => if n < (e :: rest).length then dropOldest n rest else e :: rest

theorem dropOldest_eq (n : Nat) (l : List (κ × ν)) : dropOldest n l = l.drop (l.length - n) := by
  induction l with
  | nil => simp [dropOldest]
  | cons e rest ih =>
      unfold dropOldest
      by_cases hlong : n < (e :: rest).length
      · have hlength : (e :: rest).length - n = rest.length - n + 1 := by
          rw [List.length_cons] at hlong ⊢
          omega
        rw [if_pos hlong, ih, hlength, List.drop_succ_cons]
      · have hlength : (e :: rest).length - n = 0 := by omega
        rw [if_neg hlong, hlength, List.drop_zero]

end Drop

variable {κ ν α : Type*} [DecidableEq κ]

section Touch

def touch (d : Dict κ ν) (k : κ) (v : ν) : Dict κ ν := (d.erase k).set k v

theorem entries_touch (d : Dict κ ν) (k : κ) (v : ν) :
    (d.touch k v).entries = d.entries.filter (·.1 ≠ k) ++ [(k, v)] := by
  have hout : k ∉ (d.erase k).keys := by
    rw [keys_erase]
    simp
  rw [touch, entries_set_of_not_mem _ _ hout]
  rfl

theorem get?_touch (d : Dict κ ν) (k : κ) (v : ν) (x : κ) :
    (d.touch k v).get? x = if x = k then some v else d.get? x := by
  rw [touch, get?_set, get?_erase]
  by_cases hx : x = k
  · rw [if_pos hx, if_pos hx]
  · rw [if_neg hx, if_neg hx, if_neg hx]

def touchAll (next : Option ν → α → ν) (news : List (κ × α)) (d : Dict κ ν) : Dict κ ν :=
  news.foldl (fun d e => d.touch e.1 (next (d.get? e.1) e.2)) d

theorem entries_touchAll (next : Option ν → α → ν) {news : List (κ × α)}
    (h : (news.map Prod.fst).Nodup) (d : Dict κ ν) :
    (touchAll next news d).entries = d.entries.filter (·.1 ∉ news.map Prod.fst) ++
      news.map fun e => (e.1, next (d.get? e.1) e.2) := by
  unfold touchAll
  induction news generalizing d with
  | nil => simp
  | cons e rest ih =>
      rw [List.map_cons, List.nodup_cons] at h
      have hvalues : (rest.map fun x => (x.1, next ((d.touch e.1 (next (d.get? e.1) e.2)).get? x.1)
          x.2)) = rest.map fun x => (x.1, next (d.get? x.1) x.2) := by
        refine List.map_congr_left fun x hx => ?_
        have hne : x.1 ≠ e.1 := fun he => h.1 (he ▸ List.mem_map_of_mem hx)
        rw [get?_touch, if_neg hne]
      have hold : (d.entries.filter (·.1 ≠ e.1)).filter (·.1 ∉ rest.map Prod.fst) =
          d.entries.filter (·.1 ∉ (e :: rest).map Prod.fst) := by
        rw [List.filter_filter]
        refine List.filter_congr fun x _ => ?_
        simp only [List.map_cons, List.mem_cons, not_or, Bool.decide_and, Bool.and_comm]
      have hnew : [(e.1, next (d.get? e.1) e.2)].filter (·.1 ∉ rest.map Prod.fst) =
          [(e.1, next (d.get? e.1) e.2)] :=
        List.filter_cons_of_pos (decide_eq_true h.1)
      rw [List.foldl_cons, ih h.2, hvalues, entries_touch, List.filter_append, hold, hnew,
        List.append_assoc, List.singleton_append]
      rfl

theorem get?_touchAll (next : Option ν → α → ν) {news : List (κ × α)}
    (h : (news.map Prod.fst).Nodup) (d : Dict κ ν) {k : κ} {a : α} (hmem : (k, a) ∈ news) :
    (touchAll next news d).get? k = some (next (d.get? k) a) := by
  rw [get?_eq_some_iff, entries_touchAll next h, List.mem_append]
  exact .inr (List.mem_map.mpr ⟨(k, a), hmem, rfl⟩)

theorem get?_touchAll_ne (next : Option ν → α → ν) {news : List (κ × α)}
    (h : (news.map Prod.fst).Nodup) (d : Dict κ ν) {k : κ} (hout : k ∉ news.map Prod.fst) :
    (touchAll next news d).get? k = d.get? k := by
  ext v
  rw [get?_eq_some_iff, get?_eq_some_iff, entries_touchAll next h, List.mem_append]
  constructor
  · rintro (hold | hnew)
    · exact (List.mem_filter.mp hold).1
    · obtain ⟨e, he, hsame⟩ := List.mem_map.mp hnew
      exact absurd (List.mem_map.mpr ⟨e, he, (Prod.mk.inj hsame).1⟩) hout
  · intro hold
    exact .inl (List.mem_filter.mpr ⟨hold, decide_eq_true hout⟩)

end Touch

section Trim

def trim (n : Nat) (d : Dict κ ν) : Dict κ ν :=
  ⟨dropOldest n d.entries, by
    rw [dropOldest_eq]
    exact d.nodup.sublist ((List.drop_sublist _ _).map _)⟩

theorem entries_trim (n : Nat) (d : Dict κ ν) :
    (d.trim n).entries = d.entries.drop (d.entries.length - n) := dropOldest_eq n d.entries

theorem length_trim (n : Nat) (d : Dict κ ν) : (d.trim n).entries.length ≤ n := by
  rw [entries_trim, List.length_drop]
  omega

theorem get?_of_trim {n : Nat} {d : Dict κ ν} {k : κ} {v : ν} (h : (d.trim n).get? k = some v) :
    d.get? k = some v := by
  rw [get?_eq_some_iff, entries_trim] at h
  rw [get?_eq_some_iff]
  exact List.mem_of_mem_drop h

theorem get?_trim_of_recent {n : Nat} {d : Dict κ ν} {old new : List (κ × ν)} {k : κ} {v : ν}
    (hentries : d.entries = old ++ new) (hlength : new.length ≤ n) (hmem : (k, v) ∈ new) :
    (d.trim n).get? k = some v := by
  rw [get?_eq_some_iff, entries_trim, hentries, List.length_append,
    List.drop_append_of_le_length (by omega)]
  exact List.mem_append_right _ hmem

end Trim

section Newer

def Newer (since : κ → Finset κ) (d : Dict κ ν) : Prop :=
  d.entries.Pairwise fun a b => b.1 ∈ since a.1

variable {since after : κ → Finset κ} {d : Dict κ ν}

theorem Newer.erase (h : Newer since d) (k : κ) : Newer since (d.erase k) :=
  List.Pairwise.sublist List.filter_sublist h

theorem Newer.trim (h : Newer since d) (n : Nat) : Newer since (d.trim n) := by
  unfold Newer
  rw [entries_trim]
  exact List.Pairwise.sublist (List.drop_sublist _ _) h

theorem Newer.touchAll (h : Newer since d) (next : Option ν → α → ν) {news : List (κ × α)}
    (hnodup : (news.map Prod.fst).Nodup) (hgrow : ∀ k ∉ news.map Prod.fst, since k ⊆ after k)
    (hnews : ∀ k, ∀ x ∈ news.map Prod.fst, x ∈ after k) :
    Newer after (touchAll next news d) := by
  unfold Newer
  rw [entries_touchAll next hnodup, List.pairwise_append]
  refine ⟨?_, ?_, ?_⟩
  · have hold : (d.entries.filter (·.1 ∉ news.map Prod.fst)).Pairwise fun a b => b.1 ∈ since a.1 :=
      List.Pairwise.sublist List.filter_sublist h
    refine hold.imp_of_mem fun {a b} ha _ hab => ?_
    exact hgrow a.1 (of_decide_eq_true (List.mem_filter.mp ha).2) hab
  · refine List.pairwise_of_forall_mem_list fun a _ b hb => ?_
    obtain ⟨e, he, rfl⟩ := List.mem_map.mp hb
    exact hnews a.1 e.1 (List.mem_map_of_mem he)
  · intro a _ b hb
    obtain ⟨e, he, rfl⟩ := List.mem_map.mp hb
    exact hnews a.1 e.1 (List.mem_map_of_mem he)

theorem Newer.card_of_dropped (h : Newer since d) {n : Nat} {k : κ} (hin : k ∈ d.keys)
    (hout : k ∉ (d.trim n).keys) : n ≤ ((since k).erase k).card := by
  obtain ⟨e, he, rfl⟩ := List.mem_map.mp hin
  obtain ⟨front, back, hsplit⟩ := List.append_of_mem he
  have hnodup := d.nodup
  unfold Newer at h
  rw [hsplit, List.pairwise_append, List.pairwise_cons] at h
  rw [hsplit, List.map_append, List.map_cons, List.nodup_append, List.nodup_cons] at hnodup
  have hlong : n ≤ back.length := by
    by_contra hshort
    refine hout (List.mem_map_of_mem (List.mem_of_mem_drop (i := 0) ?_))
    rw [List.drop_zero, entries_trim, hsplit, List.length_append, List.length_cons,
      List.drop_append_of_le_length (by omega)]
    exact List.mem_append_right _ List.mem_cons_self
  have hsub : (back.map Prod.fst).toFinset ⊆ (since e.1).erase e.1 := by
    intro x hx
    obtain ⟨y, hy, rfl⟩ := List.mem_map.mp (List.mem_toFinset.mp hx)
    refine Finset.mem_erase.mpr ⟨fun hsame => ?_, h.2.1.1 y hy⟩
    exact hnodup.2.1.1 (hsame ▸ List.mem_map_of_mem hy)
  calc n ≤ back.length := hlong
    _ = (back.map Prod.fst).toFinset.card := by
        rw [List.toFinset_card_of_nodup hnodup.2.1.2, List.length_map]
    _ ≤ ((since e.1).erase e.1).card := Finset.card_le_card hsub

end Newer

end OpenvpnServer.Lib.Dict
