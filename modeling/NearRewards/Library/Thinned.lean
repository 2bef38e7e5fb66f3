import Mathlib.Data.List.Induction

/-! Lists some of whose items have been left out. -/

/-- The second list is the first without some of the items that may go. -/
inductive Thinned {α : Type*} (gone : α → Prop) : List α → List α → Prop where
  | nil : Thinned gone [] []
  | keep {items fewer : List α} (item : α) (thinned : Thinned gone items fewer) : Thinned gone (item :: items) (item :: fewer)
  | drop {items fewer : List α} {item : α} (left : gone item) (thinned : Thinned gone items fewer) :
      Thinned gone (item :: items) fewer

namespace Thinned
variable {α : Type*} {gone : α → Prop} {items fewer : List α} {item : α}

theorem sublist (thinned : Thinned gone items fewer) : fewer.Sublist items := by
  induction thinned with
  | nil => exact List.Sublist.slnil
  | keep item _ ih => exact ih.cons_cons item
  | drop _ _ ih => exact ih.cons _

/-- The last item has been kept or left out. -/
theorem concat_cases (thinned : Thinned gone (items ++ [item]) fewer) :
    (∃ few, fewer = few ++ [item] ∧ Thinned gone items few) ∨ gone item ∧ Thinned gone items fewer := by
  induction items generalizing fewer with
  | nil =>
    cases thinned with
    | keep _ thinned =>
      cases thinned
      exact Or.inl ⟨[], rfl, .nil⟩
    | drop left thinned =>
      cases thinned
      exact Or.inr ⟨left, .nil⟩
  | cons first items ih =>
    cases thinned with
    | keep _ thinned =>
      rcases ih thinned with ⟨few, rfl, rest⟩ | ⟨left, rest⟩
      · exact Or.inl ⟨first :: few, rfl, .keep first rest⟩
      · exact Or.inr ⟨left, .keep first rest⟩
    | drop left thinned =>
      rcases ih thinned with ⟨few, rfl, rest⟩ | ⟨last, rest⟩
      · exact Or.inl ⟨few, rfl, .drop left rest⟩
      · exact Or.inr ⟨last, .drop left rest⟩

/-- What a filter leaves. -/
theorem filter (keep : α → Bool) (refused : ∀ item ∈ items, keep item = false → gone item) :
    Thinned gone items (items.filter keep) := by
  induction items with
  | nil => exact .nil
  | cons first items ih =>
    have rest := ih fun item member => refused item (List.mem_cons_of_mem _ member)
    cases kept : keep first with
    | true =>
      rw [List.filter_cons_of_pos kept]
      exact .keep first rest
    | false =>
      rw [List.filter_cons_of_neg (by simp [kept])]
      exact .drop (refused first List.mem_cons_self kept) rest

end Thinned
