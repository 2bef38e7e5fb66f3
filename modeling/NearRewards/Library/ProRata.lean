import Mathlib.Algebra.Order.BigOperators.Group.Finset
import Mathlib.Algebra.Order.BigOperators.Ring.Finset
import Mathlib.Tactic.Linarith

/-! Dividing a total among stakes in proportion to them, each share rounded down. The
rounding loses less than one unit for each stake, and every partial sum of shares stays
below the exact proportion. -/

namespace ProRata

/-- The share of `stake` in `total`, out of a pool of stakes worth `pool`. -/
def share (total pool stake : ℤ) : ℤ := total * stake / pool

variable {total pool : ℤ}

theorem share_mul_le (positive : 0 < pool) (stake : ℤ) : share total pool stake * pool ≤ total * stake :=
  Int.ediv_mul_le _ positive.ne'

theorem mul_le_share_mul (positive : 0 < pool) (stake : ℤ) :
    total * stake ≤ share total pool stake * pool + (pool - 1) := by
  have below := Int.lt_ediv_add_one_mul_self (total * stake) positive
  have expanded : (total * stake / pool + 1) * pool = total * stake / pool * pool + pool := by ring
  unfold share
  omega

/-- A pool that is part of the total never pays less than the stake itself. -/
theorem stake_le_share (positive : 0 < pool) (part : pool ≤ total) {stake : ℤ} (nonneg : 0 ≤ stake) :
    stake ≤ share total pool stake := by
  apply Int.le_ediv_of_mul_le positive
  calc
    stake * pool ≤ stake * total := Int.mul_le_mul_of_nonneg_left part nonneg
    _ = total * stake := Int.mul_comm _ _

section Sums
variable (total) {ι : Type*} (stake : ι → ℤ) (stakes : Finset ι)

theorem sum_share_mul_le (positive : 0 < pool) :
    (∑ i ∈ stakes, share total pool (stake i)) * pool ≤ total * ∑ i ∈ stakes, stake i := by
  rw [Finset.sum_mul, Finset.mul_sum]
  exact Finset.sum_le_sum (fun i _ => share_mul_le positive (stake i))

theorem mul_sum_le (positive : 0 < pool) :
    total * ∑ i ∈ stakes, stake i ≤ (∑ i ∈ stakes, share total pool (stake i)) * pool + stakes.card * (pool - 1) := by
  rw [Finset.sum_mul, Finset.mul_sum, ← nsmul_eq_mul, ← Finset.sum_const, ← Finset.sum_add_distrib]
  exact Finset.sum_le_sum (fun i _ => mul_le_share_mul positive (stake i))

/-- The shares of all stakes together never exceed the total. -/
theorem sum_share_le (positive : 0 < pool) (whole : ∑ i ∈ stakes, stake i = pool) :
    ∑ i ∈ stakes, share total pool (stake i) ≤ total := by
  have bound := sum_share_mul_le total stake stakes positive
  rw [whole] at bound
  exact le_of_mul_le_mul_right bound positive

/-- What rounding leaves over is less than the number of stakes. -/
theorem total_lt_sum_share (positive : 0 < pool) (whole : ∑ i ∈ stakes, stake i = pool) :
    total < ∑ i ∈ stakes, share total pool (stake i) + stakes.card := by
  have bound := mul_sum_le total stake stakes positive
  rw [whole] at bound
  have inhabited : 0 < stakes.card := by
    rw [Finset.card_pos]
    by_contra empty
    rw [Finset.not_nonempty_iff_eq_empty] at empty
    rw [empty, Finset.sum_empty] at whole
    omega
  have scaled : total * pool < (∑ i ∈ stakes, share total pool (stake i) + stakes.card) * pool := by
    have strict : (stakes.card : ℤ) * (pool - 1) < stakes.card * pool := by
      apply Int.mul_lt_mul_of_pos_left (by omega) (by omega)
    rw [add_mul]
    omega
  exact lt_of_mul_lt_mul_right scaled positive.le

/-- Among positive stakes, one is worth all of them only when it is the only one. -/
theorem sum_le_single_iff {stake : ι → ℤ} {stakes : Finset ι} (positive : ∀ i ∈ stakes, 0 < stake i) {i : ι}
    (member : i ∈ stakes) : ∑ j ∈ stakes, stake j ≤ stake i ↔ stakes = {i} := by
  constructor
  · intro bound
    by_contra others
    obtain ⟨j, present, different⟩ : ∃ j ∈ stakes, j ≠ i := by
      by_contra none
      simp only [not_exists, not_and, not_not] at none
      exact others (Finset.eq_singleton_iff_unique_mem.mpr ⟨member, none⟩)
    have pair := Finset.add_le_sum (fun k present => (positive k present).le) member present different.symm
    have more := positive j present
    omega
  · intro only
    rw [only, Finset.sum_singleton]

end Sums
end ProRata
