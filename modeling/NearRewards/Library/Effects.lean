import Mathlib.Data.Nat.Notation

/-! Running stateful programs that may fail: one equation for each primitive, applied to
the state it starts from. A failure keeps the state it happened in. -/

namespace EStateM
variable {ε σ α β : Type}

@[simp] theorem pure_apply (value : α) (state : σ) : (pure value : EStateM ε σ α) state = .ok value state := rfl

@[simp] theorem throw_apply (error : ε) (state : σ) :
    (throw error : EStateM ε σ α) state = .error error state := rfl

@[simp] theorem get_apply (state : σ) : (get : EStateM ε σ σ) state = .ok state state := rfl

@[simp] theorem modify_apply (change : σ → σ) (state : σ) :
    (modify change : EStateM ε σ PUnit) state = .ok () (change state) := rfl

@[simp] theorem modifyGet_apply (change : σ → α × σ) (state : σ) :
    (modifyGet change : EStateM ε σ α) state = .ok (change state).1 (change state).2 := rfl

theorem bind_apply (program : EStateM ε σ α) (next : α → EStateM ε σ β) (state : σ) :
    (program >>= next) state =
      match program state with
      | .ok value final => next value final
      | .error error final => .error error final := by
  change EStateM.bind program next state = _
  unfold EStateM.bind
  cases program state <;> rfl

theorem map_apply (f : α → β) (program : EStateM ε σ α) (state : σ) :
    (f <$> program) state =
      match program state with
      | .ok value final => .ok (f value) final
      | .error error final => .error error final := by
  change EStateM.map f program state = _
  unfold EStateM.map
  cases program state <;> rfl

theorem tryCatch_apply (program : EStateM ε σ α) (handle : ε → EStateM ε σ α) (state : σ) :
    (tryCatch program handle) state =
      match program state with
      | .ok value final => .ok value final
      | .error error final => handle error final := by
  change EStateM.tryCatch program handle state = _
  unfold EStateM.tryCatch
  cases program state <;> rfl

/-- A loop whose turns never fail keeps what every turn keeps of the items it has been through. -/
theorem foldlM_keeps (P : List α → β → σ → Prop) {turn : β → α → EStateM ε σ β}
    (keeps : ∀ before item value state, P before value state →
      ∃ next final, turn value item state = .ok next final ∧ P (before ++ [item]) next final)
    (items : List α) {value : β} {state : σ} (holds : P [] value state) :
    ∃ next final, items.foldlM turn value state = .ok next final ∧ P items next final := by
  suffices along : ∀ before value state, P before value state →
      ∃ next final, items.foldlM turn value state = .ok next final ∧ P (before ++ items) next final from
    along [] value state holds
  clear holds
  induction items with
  | nil => exact fun before value state holds => ⟨value, state, rfl, by rwa [List.append_nil]⟩
  | cons item items ih =>
    intro before value state holds
    obtain ⟨middle, reached, ran, kept⟩ := keeps before item value state holds
    obtain ⟨next, final, rest, ended⟩ := ih _ _ _ kept
    refine ⟨next, final, ?_, ?_⟩
    · rw [List.foldlM_cons, bind_apply, ran]
      exact rest
    · rwa [List.append_assoc] at ended

end EStateM
