import Mathlib.Tactic

/-! Sums over all items of a table, when one entry of the table changes. -/

open scoped BigOperators

namespace Counting

variable {Index Item : Type} [Fintype Index] [DecidableEq Index]

theorem sum_update (table : Index → Item) (index : Index) (item : Item) (weight : Item → Int) :
    ∑ other, weight (Function.update table index item other) =
      ∑ other, weight (table other) - weight (table index) + weight item := by
  have present : index ∈ Finset.univ := Finset.mem_univ index
  rw [← Finset.add_sum_erase Finset.univ _ present,
    ← Finset.add_sum_erase Finset.univ (fun other => weight (table other)) present]
  have rest : ∑ other ∈ Finset.univ.erase index, weight (Function.update table index item other) =
      ∑ other ∈ Finset.univ.erase index, weight (table other) := by
    apply Finset.sum_congr rfl
    intro other member
    rw [Function.update_of_ne (Finset.ne_of_mem_erase member)]
  rw [rest, Function.update_self]
  omega

theorem sum_update_nat (table : Index → Item) (index : Index) (item : Item) (weight : Item → Nat) :
    ∑ other, weight (Function.update table index item other) + weight (table index) =
      ∑ other, weight (table other) + weight item := by
  have sums := sum_update table index item fun item => (weight item : Int)
  rw [← Nat.cast_sum, ← Nat.cast_sum] at sums
  omega

omit [DecidableEq Index] in
theorem weight_le_sum (table : Index → Item) (index : Index) (weight : Item → Int)
    (nonneg : ∀ item, 0 ≤ weight item) : weight (table index) ≤ ∑ other, weight (table other) :=
  Finset.single_le_sum (fun other _ => nonneg (table other)) (Finset.mem_univ index)

omit [DecidableEq Index] in
theorem sum_le_card (table : Index → Item) (weight : Item → Int)
    (most : ∀ item, weight item ≤ 1) : ∑ other, weight (table other) ≤ Fintype.card Index := by
  have bound := Finset.sum_le_card_nsmul Finset.univ (fun other => weight (table other)) 1
    fun other _ => most (table other)
  rwa [nsmul_one, Finset.card_univ] at bound

theorem pair_le_sum (table : Index → Item) {first second : Index} (different : first ≠ second)
    (weight : Item → Int) (nonneg : ∀ item, 0 ≤ weight item) :
    weight (table first) + weight (table second) ≤ ∑ other, weight (table other) := by
  have pair := Finset.sum_pair (f := fun other => weight (table other)) different
  rw [← pair]
  apply Finset.sum_le_sum_of_subset_of_nonneg (Finset.subset_univ _)
  intro other _ _
  exact nonneg (table other)

end Counting
