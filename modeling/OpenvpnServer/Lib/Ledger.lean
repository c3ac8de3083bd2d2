import Mathlib.Algebra.BigOperators.Group.Finset.Piecewise
import Mathlib.Algebra.Order.BigOperators.Group.Finset
import Mathlib.Algebra.Order.Group.Int

-- Tables whose rows hold sums over their members.
namespace OpenvpnServer.Lib

section Ledger

variable {κ ι ρ χ : Type*} {rows : κ → Option ρ} {count : ρ → χ → Int} {members : κ → Finset ι}
  {share : ι → χ → Int}

-- Every counter of every row is the sum of its members' shares.
def Booked (rows : κ → Option ρ) (count : ρ → χ → Int) (members : κ → Finset ι)
    (share : ι → χ → Int) : Prop :=
  ∀ key row, rows key = some row → ∀ c, count row c = ∑ i ∈ members key, share i c

theorem Booked.congr (h : Booked rows count members share) {members' : κ → Finset ι}
    {share' : ι → χ → Int}
    (hsame : ∀ key row, rows key = some row →
      members' key = members key ∧ ∀ i ∈ members key, share' i = share i) :
    Booked rows count members' share' := by
  intro key row hrow c
  obtain ⟨hmembers, hshare⟩ := hsame key row hrow
  rw [hmembers, h key row hrow c]
  exact Finset.sum_congr rfl fun i hi => by rw [hshare i hi]

theorem Booked.drop (h : Booked rows count members share) {rows' : κ → Option ρ}
    {members' : κ → Finset ι}
    (hkept : ∀ key row, rows' key = some row → rows key = some row ∧ members' key = members key) :
    Booked rows' count members' share := by
  intro key row hrow c
  obtain ⟨hold, hmembers⟩ := hkept key row hrow
  rw [hmembers]
  exact h key row hold c

theorem Booked.openRow (h : Booked rows count members share) {rows' : κ → Option ρ} {key : κ}
    {row : ρ} (hzero : ∀ c, count row c = 0) (hfresh : members key = ∅)
    (hrows : ∀ other found, rows' other = some found → other = key ∧ found = row ∨
      rows other = some found) : Booked rows' count members share := by
  intro other found hfound c
  rcases hrows other found hfound with ⟨rfl, rfl⟩ | hold
  · rw [hzero c, hfresh, Finset.sum_empty]
  · exact h other found hold c

theorem Booked.share_eq_zero (h : Booked rows count members share) {key : κ} {row : ρ}
    (hrow : rows key = some row) {c : χ} (hpos : ∀ i, 0 ≤ share i c) (hzero : count row c = 0)
    {i : ι} (hi : i ∈ members key) : share i c = 0 := by
  have hsum := h key row hrow c
  rw [hzero] at hsum
  exact (Finset.sum_eq_zero_iff_of_nonneg fun j _ => hpos j).mp hsum.symm i hi

variable [DecidableEq ι]

theorem Booked.post (h : Booked rows count members share) {rows' : κ → Option ρ}
    {members' : κ → Finset ι} {share' : ι → χ → Int} {key : κ} {row row' : ρ} {i : ι}
    (hrow : rows key = some row) (hmember : i ∈ members key ∨ ∀ c, share i c = 0)
    (hrow' : rows' key = some row')
    (hcharged : ∀ c, count row' c = count row c + (share' i c - share i c))
    (hothers : ∀ other, other ≠ key → rows' other = rows other)
    (hmembers : members' key = insert i (members key))
    (hsame : ∀ other found, other ≠ key → rows other = some found →
      i ∉ members other ∧ members' other = members other)
    (hshare : ∀ j, j ≠ i → share' j = share j) : Booked rows' count members' share' := by
  intro other found hfound c
  by_cases hother : other = key
  · subst hother
    rw [hrow', Option.some.injEq] at hfound
    subst hfound
    have hrest : ∑ j ∈ (members other).erase i, share' j c =
        ∑ j ∈ (members other).erase i, share j c :=
      Finset.sum_congr rfl fun j hj => by rw [hshare j (Finset.ne_of_mem_erase hj)]
    have hbefore : ∑ j ∈ members other, share j c =
        ∑ j ∈ (members other).erase i, share j c + share i c := by
      rcases hmember with hmem | hzero
      · exact (Finset.sum_erase_add _ _ hmem).symm
      · rw [hzero c, add_zero]
        exact (Finset.sum_erase _ (f := fun j => share j c) (hzero c)).symm
    rw [hmembers, ← Finset.sum_erase_add _ _ (Finset.mem_insert_self i _),
      Finset.erase_insert_eq_erase, hrest, hcharged c, h other row hrow c, hbefore]
    omega
  · rw [hothers other hother] at hfound
    obtain ⟨hnot, hkept⟩ := hsame other found hother hfound
    rw [hkept, h other found hfound c]
    refine Finset.sum_congr rfl fun j hj => ?_
    have hne : j ≠ i := by
      rintro rfl
      exact hnot hj
    rw [hshare j hne]

theorem sum_common (s t : Finset ι) (x : ι → Int) :
    ∑ i ∈ s, (if i ∈ t then x i else 0) = ∑ i ∈ t, (if i ∈ s then x i else 0) := by
  rw [Finset.sum_ite_mem, Finset.sum_ite_mem, Finset.inter_comm]

end Ledger

end OpenvpnServer.Lib
