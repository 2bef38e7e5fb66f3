import Mathlib.Algebra.Order.BigOperators.Group.Finset
import Mathlib.Algebra.Order.Ring.Int

/-! A pot owed to finitely many claimants, paid one claimant at a time in any order. All
but the last receive what they are due; the last one sweeps whatever the pot still holds,
so nothing is left behind and nobody receives less than their due. -/

/-- A pot always covers what it owes, and holds nothing once it owes nothing. -/
@[ext] structure Pot (ι : Type*) where
  owed : Finset ι
  due : ι → ℤ
  held : ℤ
  positive : ∀ i ∈ owed, 0 < due i
  covered : ∑ i ∈ owed, due i ≤ held
  emptied : owed = ∅ → held = 0

namespace Pot
variable {ι : Type*} (pot : Pot ι)

/-- What the pot holds beyond the dues. -/
def slack : ℤ := pot.held - ∑ i ∈ pot.owed, pot.due i

theorem slack_nonneg : 0 ≤ pot.slack := Int.sub_nonneg_of_le pot.covered

theorem held_eq : pot.held = ∑ i ∈ pot.owed, pot.due i + pot.slack := by
  unfold slack
  omega

theorem due_le_held {i : ι} (member : i ∈ pot.owed) : pot.due i ≤ pot.held :=
  (Finset.single_le_sum (fun j present => (pot.positive j present).le) member).trans pot.covered

theorem held_nonneg : 0 ≤ pot.held :=
  (Finset.sum_nonneg (fun i member => (pot.positive i member).le)).trans pot.covered

theorem held_eq_zero : pot.held = 0 ↔ pot.owed = ∅ := by
  refine ⟨fun nothing => ?_, pot.emptied⟩
  rw [Finset.eq_empty_iff_forall_notMem]
  intro i member
  have due := pot.positive i member
  have bound := pot.due_le_held member
  omega

/-- The order lists every claimant once. -/
structure Order (order : List ι) : Prop where
  nodup : order.Nodup
  complete : ∀ i, i ∈ order ↔ i ∈ pot.owed

namespace Order
variable {pot} {i : ι} {rest : List ι}

theorem owed (valid : pot.Order (i :: rest)) : i ∈ pot.owed := (valid.complete i).mp (List.mem_cons_self)

theorem only (valid : pot.Order [i]) : pot.owed = {i} := by
  ext j
  rw [← valid.complete j, List.mem_singleton, Finset.mem_singleton]

theorem more (valid : pot.Order (i :: rest)) (nonempty : rest ≠ []) : pot.owed ≠ {i} := by
  obtain ⟨j, member⟩ := List.exists_mem_of_ne_nil rest nonempty
  intro only
  have owed := (valid.complete j).mp (List.mem_cons_of_mem i member)
  rw [only, Finset.mem_singleton] at owed
  exact (List.nodup_cons.mp valid.nodup).1 (owed ▸ member)

end Order

variable [DecidableEq ι]

/-- The last claimant sweeps the pot, everyone else is paid what is due. -/
def payment (i : ι) : ℤ := if pot.owed = {i} then pot.held else pot.due i

variable {pot} in
theorem payment_bounds {i : ι} (member : i ∈ pot.owed) :
    pot.due i ≤ pot.payment i ∧ pot.payment i ≤ pot.held := by
  unfold payment
  split
  · exact ⟨pot.due_le_held member, le_refl _⟩
  · exact ⟨le_refl _, pot.due_le_held member⟩

variable {pot} in
theorem payment_pos {i : ι} (member : i ∈ pot.owed) : 0 < pot.payment i :=
  (pot.positive i member).trans_le (payment_bounds member).1

/-- Paying someone who is not owed anything leaves the pot alone. -/
def pay (i : ι) : Pot ι :=
  if member : i ∈ pot.owed then
    { owed := pot.owed.erase i
      due := pot.due
      held := pot.held - pot.payment i
      positive := fun j present => pot.positive j (Finset.mem_of_mem_erase present)
      covered := by
        have split_ := Finset.add_sum_erase pot.owed pot.due member
        have covered := pot.covered
        unfold payment
        split
        next only => simp [only]
        next => omega
      emptied := by
        intro last
        have only : pot.owed = {i} := by
          rw [← Finset.insert_erase member, last]
          rfl
        simp [payment, only] }
  else pot

section Pay
variable {pot} {i : ι} (member : i ∈ pot.owed)
include member

theorem pay_owed : (pot.pay i).owed = pot.owed.erase i := by
  rw [pay, dif_pos member]

theorem pay_due : (pot.pay i).due = pot.due := by
  rw [pay, dif_pos member]

theorem pay_held : (pot.pay i).held = pot.held - pot.payment i := by
  rw [pay, dif_pos member]

/-- The surplus is not touched until the last payment. -/
theorem pay_slack (more : pot.owed ≠ {i}) : (pot.pay i).slack = pot.slack := by
  have split_ := Finset.add_sum_erase pot.owed pot.due member
  unfold slack
  rw [pay_owed member, pay_due member, pay_held member, payment, if_neg more]
  omega

end Pay

section Waiting
variable {pot} {i j : ι}

theorem payment_le_slack : pot.payment i ≤ pot.due i + pot.slack := by
  unfold payment
  split
  next only =>
    have held := pot.held_eq
    rw [only, Finset.sum_singleton] at held
    omega
  next =>
    have slack := pot.slack_nonneg
    omega

/-- Whoever waits while others are paid is owed no less. -/
theorem payment_le_pay (member : i ∈ pot.owed) (other : j ∈ pot.owed) (different : i ≠ j) :
    pot.payment i ≤ (pot.pay j).payment i := by
  have more : pot.owed ≠ {i} := by
    intro only
    rw [only, Finset.mem_singleton] at other
    exact different other.symm
  have still : i ∈ (pot.pay j).owed := by
    rw [pay_owed other]
    exact Finset.mem_erase.mpr ⟨different, member⟩
  have bound := (payment_bounds still).1
  rw [pay_due other] at bound
  rwa [payment, if_neg more]

end Waiting

/-- The payments of the claimants in the given order. -/
def payments (pot : Pot ι) : List ι → List ℤ
  | [] => []
  | i :: rest => pot.payment i :: payments (pot.pay i) rest

namespace Order
variable {pot} {i : ι} {rest : List ι}

theorem tail (valid : pot.Order (i :: rest)) : (pot.pay i).Order rest := by
  obtain ⟨fresh, distinct⟩ := List.nodup_cons.mp valid.nodup
  refine ⟨distinct, fun j => ?_⟩
  rw [pay_owed valid.owed, Finset.mem_erase, ← valid.complete j, List.mem_cons]
  constructor
  · intro member
    exact ⟨fun same => fresh (same ▸ member), Or.inr member⟩
  · rintro ⟨different, same | member⟩
    · exact absurd same different
    · exact member

/-- Whatever the order, everyone but the last is paid exactly the due, and the last one
the due and the whole surplus. -/
theorem payments_eq {first : List ι} {last : ι} (valid : pot.Order (first ++ [last])) :
    pot.payments (first ++ [last]) = first.map pot.due ++ [pot.due last + pot.slack] := by
  induction first generalizing pot with
  | nil =>
    have only : pot.owed = {last} := valid.only
    have held := pot.held_eq
    rw [only, Finset.sum_singleton] at held
    simp [payments, payment, only, held]
  | cons i first ih =>
    have more : pot.owed ≠ {i} := valid.more (by simp)
    have rest := ih valid.tail
    rw [pay_due valid.owed, pay_slack valid.owed more] at rest
    simp only [List.cons_append, payments, rest, payment, if_neg more, List.map_cons]

/-- Paying everyone pays out exactly what the pot held. -/
theorem payments_sum {order : List ι} (valid : pot.Order order) : (pot.payments order).sum = pot.held := by
  induction order generalizing pot with
  | nil =>
    have empty : pot.owed = ∅ := Finset.eq_empty_iff_forall_notMem.mpr
      (fun i member => List.not_mem_nil ((valid.complete i).mpr member))
    rw [pot.emptied empty]
    rfl
  | cons i rest ih =>
    rw [payments, List.sum_cons, ih valid.tail, pay_held valid.owed]
    omega

end Order

/-- How a pot has been divided so far among those entitled to it: everyone who is no longer
owed has received the due, and once nobody is owed one of them has received the surplus too. -/
structure Divides (due : ι → ℤ) (surplus : ℤ) (entitled owed : Finset ι) (paid : ι → ℤ) : Prop where
  part : owed ⊆ entitled
  unpaid : ∀ i, i ∉ entitled ∨ i ∈ owed → paid i = 0
  owing : owed ≠ ∅ → ∀ i ∈ entitled, i ∉ owed → paid i = due i
  emptied : owed = ∅ → entitled ≠ ∅ → ∃ last ∈ entitled, ∀ i ∈ entitled, paid i = due i + if i = last then surplus else 0

namespace Divides
variable {due paid : ι → ℤ} {surplus : ℤ} {entitled owed : Finset ι}

theorem start (nothing : ∀ i, paid i = 0) : Divides due surplus entitled entitled paid :=
  ⟨Finset.Subset.refl _, fun i _ => nothing i, fun _ _ member owed => absurd member owed, fun empty some => absurd empty some⟩

/-- One more payment: the due, or the due and the surplus when it is the last. -/
theorem pay (divides : Divides due surplus entitled owed paid) {i : ι} (member : i ∈ owed) :
    Divides due surplus entitled (owed.erase i) fun j =>
      paid j + if j = i then due i + (if owed = {i} then surplus else 0) else 0 := by
  have fresh := divides.unpaid i (Or.inr member)
  have others : ∀ j ∈ entitled, j ≠ i → j ∉ owed.erase i → paid j = due j := by
    intro j present different absent
    exact divides.owing (Finset.ne_empty_of_mem member) j present fun owing => absent (Finset.mem_erase.mpr ⟨different, owing⟩)
  refine ⟨(Finset.erase_subset _ _).trans divides.part, ?_, ?_, ?_⟩
  · intro j outside
    have different : j ≠ i := by
      rintro rfl
      rcases outside with absent | owing
      · exact absent (divides.part member)
      · exact Finset.notMem_erase _ _ owing
    rw [if_neg different, Int.add_zero]
    exact divides.unpaid j (outside.imp_right Finset.mem_of_mem_erase)
  · intro more j present absent
    by_cases own : j = i
    · subst own
      have several : owed ≠ {j} := by
        rintro rfl
        exact more (Finset.erase_singleton _)
      rw [if_pos rfl, if_neg several, fresh]
      omega
    · rw [if_neg own, Int.add_zero]
      exact others j present own absent
  · intro last _
    have only : owed = {i} := (Finset.erase_eq_empty_iff _ _).mp last |>.resolve_left (Finset.ne_empty_of_mem member)
    refine ⟨i, divides.part member, fun j present => ?_⟩
    by_cases own : j = i
    · subst own
      rw [if_pos rfl, if_pos only, if_pos rfl, fresh]
      omega
    · rw [if_neg own, if_neg own, others j present own (by rw [last]; exact Finset.notMem_empty _)]

end Divides
end Pot
