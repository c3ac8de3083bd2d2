import Mathlib.Data.List.DropRight

namespace OpenvpnServer.Lib

-- A buffer of at most `size` values. It grows until it is full; from then on the cell
-- at `next`, which holds the oldest value, is written over and `next` moves on.
structure Ring (α : Type*) (size : Nat) where
  cells : List α
  next : Nat
  length_le : cells.length ≤ size
  next_lt : next < size
  next_eq : cells.length < size → next = 0
  deriving DecidableEq

namespace Ring

variable {α : Type*} {size : Nat}

def empty (h : 0 < size) : Ring α size where
  cells := []
  next := 0
  length_le := Nat.zero_le size
  next_lt := h
  next_eq _ := rfl

def push (r : Ring α size) (x : α) : Ring α size :=
  if h : r.cells.length < size then
    { cells := r.cells ++ [x]
      next := r.next
      length_le := by simpa using Nat.succ_le_of_lt h
      next_lt := r.next_lt
      next_eq := fun _ => r.next_eq h }
  else
    { cells := r.cells.set r.next x
      next := (r.next + 1) % size
      length_le := by simpa using r.length_le
      next_lt := Nat.mod_lt _ (Nat.zero_lt_of_lt r.next_lt)
      next_eq := fun hlt => absurd (by simpa using hlt) h }

theorem push_of_growing (r : Ring α size) (x : α) (h : r.cells.length < size) :
    (r.push x).cells = r.cells ++ [x] ∧ (r.push x).next = r.next := by
  rw [push, dif_pos h]
  exact ⟨rfl, rfl⟩

theorem push_of_full (r : Ring α size) (x : α) (h : ¬r.cells.length < size) :
    (r.push x).cells = r.cells.set r.next x ∧ (r.push x).next = (r.next + 1) % size := by
  rw [push, dif_neg h]
  exact ⟨rfl, rfl⟩

def toList (r : Ring α size) : List α := r.cells.drop r.next ++ r.cells.take r.next

@[simp] theorem toList_empty (h : 0 < size) : (empty h : Ring α size).toList = [] := rfl

theorem rtake_eq_drop (n : Nat) (xs : List α) : xs.rtake n = xs.drop (xs.length - n) := rfl

theorem length_toList (r : Ring α size) : r.toList.length = r.cells.length := by
  rw [toList, List.length_append, List.length_drop, List.length_take]
  omega

theorem rtake_toList (r : Ring α size) : r.toList.rtake size = r.toList := by
  have hle := r.length_le
  rw [rtake_eq_drop, length_toList, Nat.sub_eq_zero_of_le hle, List.drop_zero]

theorem toList_of_growing (r : Ring α size) (h : r.cells.length < size) :
    r.toList = r.cells := by
  rw [toList, r.next_eq h, List.drop_zero, List.take_zero, List.append_nil]

theorem exists_split (r : Ring α size) (h : ¬r.cells.length < size) :
    ∃ before old after, r.cells = before ++ old :: after ∧ before.length = r.next := by
  have hnext : r.next < r.cells.length := by
    have hlt := r.next_lt
    omega
  refine ⟨r.cells.take r.next, r.cells[r.next], r.cells.drop (r.next + 1), ?_, ?_⟩
  · rw [List.getElem_cons_drop, List.take_append_drop]
  · rw [List.length_take]
    omega

theorem toList_push (r : Ring α size) (x : α) :
    (r.push x).toList = (r.toList ++ [x]).rtake size := by
  by_cases h : r.cells.length < size
  · have hlength : (r.toList ++ [x]).length - size = 0 := by
      rw [List.length_append, length_toList, List.length_singleton]
      omega
    obtain ⟨hcells, hnext⟩ := r.push_of_growing x h
    rw [rtake_eq_drop, hlength, List.drop_zero, toList_of_growing r h, toList, hcells, hnext,
      r.next_eq h, List.drop_zero, List.take_zero, List.append_nil]
  · obtain ⟨before, old, after, hcells, hbefore⟩ := r.exists_split h
    have hsize : before.length + (after.length + 1) = size := by
      have hle := r.length_le
      rw [hcells, List.length_append, List.length_cons] at h hle
      omega
    have hold : r.toList = old :: after ++ before := by
      rw [toList, hcells, ← hbefore, List.drop_left, List.take_left]
    have hlatest : (r.toList ++ [x]).rtake size = after ++ (before ++ [x]) := by
      have hone : (old :: after ++ before ++ [x]).length - size = 1 := by
        simp only [List.length_append, List.length_cons, List.length_nil]
        omega
      rw [hold, rtake_eq_drop, hone]
      simp
    obtain ⟨hpush, hmoved⟩ := r.push_of_full x h
    rw [hcells, ← hbefore, List.set_append_right _ _ (Nat.le_refl _), Nat.sub_self,
      List.set_cons_zero] at hpush
    rw [← hbefore] at hmoved
    rw [hlatest, toList, hpush, hmoved]
    -- The last cell was written, or there are more behind it.
    by_cases hwrap : after = []
    · subst hwrap
      rw [List.length_nil] at hsize
      have hzero : (before.length + 1) % size = 0 := by
        rw [← hsize, Nat.zero_add, Nat.mod_self]
      rw [hzero, List.drop_zero, List.take_zero, List.append_nil, List.nil_append]
    · have hpos := List.length_pos_iff.mpr hwrap
      have hsplit : before ++ x :: after = (before ++ [x]) ++ after := by simp
      have hlength : before.length + 1 = (before ++ [x]).length := by simp
      rw [Nat.mod_eq_of_lt (by omega), hsplit, hlength, List.drop_left, List.take_left]

theorem rtake_append_of_rtake (n : Nat) (xs ys : List α) :
    (xs.rtake n ++ ys).rtake n = (xs ++ ys).rtake n := by
  by_cases h : xs.length ≤ n
  · rw [rtake_eq_drop n xs, Nat.sub_eq_zero_of_le h, List.drop_zero]
  · have hdrop : xs.rtake n ++ ys = (xs ++ ys).drop (xs.length - n) := by
      rw [rtake_eq_drop, List.drop_append_of_le_length (by omega)]
    rw [hdrop, rtake_eq_drop, rtake_eq_drop, List.drop_drop, List.length_drop, List.length_append]
    congr 1
    omega

theorem toList_foldl_push (r : Ring α size) (xs : List α) :
    (xs.foldl push r).toList = (r.toList ++ xs).rtake size := by
  induction xs generalizing r with
  | nil => rw [List.foldl_nil, List.append_nil, rtake_toList]
  | cons x rest ih =>
      rw [List.foldl_cons, ih, toList_push, rtake_append_of_rtake, List.append_assoc,
        List.singleton_append]

end Ring

end OpenvpnServer.Lib
