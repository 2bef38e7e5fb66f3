import Mathlib.Algebra.Order.Ring.Int

/-! Fixed-width unsigned arithmetic that reports an operation leaving its range instead
of wrapping. Each operation is characterised by the natural number it computes. -/

namespace Checked
variable {w : ℕ} {x y z : BitVec w}

def add (x y : BitVec w) : Option (BitVec w) :=
  if x.toNat + y.toNat < 2 ^ w then some (x + y) else none

def sub (x y : BitVec w) : Option (BitVec w) :=
  if y.toNat ≤ x.toNat then some (x - y) else none

def mul (x y : BitVec w) : Option (BitVec w) :=
  if x.toNat * y.toNat < 2 ^ w then some (x * y) else none

private theorem chosen {p : Prop} [Decidable p] {value : BitVec w} {n : ℕ} (exact_ : p → value.toNat = n)
    (fits : n < 2 ^ w → p) : (if p then some value else none) = some z ↔ z.toNat = n := by
  constructor
  · intro found
    split at found
    next inside =>
      cases found
      exact exact_ inside
    next => cases found
  · intro same
    have inside : p := fits (same ▸ z.isLt)
    rw [if_pos inside]
    exact congrArg some (BitVec.eq_of_toNat_eq ((exact_ inside).trans same.symm))

theorem add_eq_some : add x y = some z ↔ z.toNat = x.toNat + y.toNat :=
  chosen BitVec.toNat_add_of_lt id

theorem sub_eq_some : sub x y = some z ↔ y.toNat ≤ x.toNat ∧ z.toNat = x.toNat - y.toNat := by
  unfold sub
  split
  next inside =>
    have difference : (x - y).toNat = x.toNat - y.toNat := BitVec.toNat_sub_of_le inside
    simp only [Option.some.injEq, inside, true_and, ← difference]
    exact ⟨fun same => same ▸ rfl, fun same => (BitVec.eq_of_toNat_eq same).symm⟩
  next outside => simp [outside]

theorem eq_of_sub_eq_some (fits : sub x y = some z) : z = x - y := by
  unfold sub at fits
  split at fits
  · exact (Option.some.inj fits).symm
  · cases fits

theorem add_eq_none : add x y = none ↔ 2 ^ w ≤ x.toNat + y.toNat := by
  simp [add]

theorem mul_eq_none : mul x y = none ↔ 2 ^ w ≤ x.toNat * y.toNat := by
  simp [mul]

end Checked
