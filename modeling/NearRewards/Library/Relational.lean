import NearRewards.Library.Effects

/-! Two stateful programs run side by side from related states: they fail alike, or both
return and leave related states. One rule for each way programs are put together. -/

namespace EStateM
variable {ε σ τ α β γ δ : Type}

/-- How two runs may end. -/
inductive EndAlike (failed : σ → τ → Prop) (post : α → β → σ → τ → Prop) : Result ε σ α → Result ε τ β → Prop where
  | ok {a b s t} (holds : post a b s t) : EndAlike failed post (.ok a s) (.ok b t)
  | error {abort s t} (holds : failed s t) : EndAlike failed post (.error abort s) (.error abort t)

theorem EndAlike.cases {failed : σ → τ → Prop} {post : α → β → σ → τ → Prop} {one : Result ε σ α} {two : Result ε τ β}
    (alike : EndAlike failed post one two) :
    (∃ a b s t, one = .ok a s ∧ two = .ok b t ∧ post a b s t) ∨
      ∃ abort s t, one = .error abort s ∧ two = .error abort t ∧ failed s t := by
  cases alike with
  | ok holds => exact Or.inl ⟨_, _, _, _, rfl, rfl, holds⟩
  | error holds => exact Or.inr ⟨_, _, _, rfl, rfl, holds⟩

def Simulates (failed : σ → τ → Prop) (pre : σ → τ → Prop) (first : EStateM ε σ α) (last : EStateM ε τ β)
    (post : α → β → σ → τ → Prop) : Prop :=
  ∀ s t, pre s t → EndAlike failed post (first s) (last t)

namespace Simulates
variable {failed pre mid : σ → τ → Prop} {post : α → β → σ → τ → Prop} {first : EStateM ε σ α} {last : EStateM ε τ β}

theorem pure {a : α} {b : β} (holds : ∀ s t, pre s t → post a b s t) :
    Simulates failed pre (Pure.pure a : EStateM ε σ α) (Pure.pure b : EStateM ε τ β) post :=
  fun s t related => .ok (holds s t related)

theorem throw (abort : ε) (holds : ∀ s t, pre s t → failed s t) :
    Simulates failed pre (throw abort : EStateM ε σ α) (throw abort : EStateM ε τ β) post :=
  fun s t related => .error (holds s t related)

theorem bind {between : γ → δ → σ → τ → Prop} {start : EStateM ε σ γ} {start' : EStateM ε τ δ}
    {next : γ → EStateM ε σ α} {next' : δ → EStateM ε τ β} (begins : Simulates failed pre start start' between)
    (continues : ∀ c d, Simulates failed (between c d) (next c) (next' d) post) :
    Simulates failed pre (start >>= next) (start' >>= next') post := by
  intro s t related
  rw [bind_apply, bind_apply]
  obtain ⟨c, d, _, _, ran, ran', holds⟩ | ⟨_, _, _, ran, ran', holds⟩ := (begins s t related).cases
  · rw [ran, ran']
    exact continues c d _ _ holds
  · rw [ran, ran']
    exact .error holds

theorem map {between : γ → δ → σ → τ → Prop} {start : EStateM ε σ γ} {start' : EStateM ε τ δ} {f : γ → α} {f' : δ → β}
    (begins : Simulates failed pre start start' between) (holds : ∀ c d s t, between c d s t → post (f c) (f' d) s t) :
    Simulates failed pre (f <$> start) (f' <$> start') post := by
  intro s t related
  rw [map_apply, map_apply]
  obtain ⟨c, d, _, _, ran, ran', reached⟩ | ⟨_, _, _, ran, ran', reached⟩ := (begins s t related).cases
  · rw [ran, ran']
    exact .ok (holds _ _ _ _ reached)
  · rw [ran, ran']
    exact .error reached

/-- Both programs begin with a step that returns the same value. -/
theorem bind_same {start : EStateM ε σ γ} {start' : EStateM ε τ γ} {next : γ → EStateM ε σ α} {next' : γ → EStateM ε τ β}
    (begins : Simulates failed pre start start' (fun a b s t => a = b ∧ mid s t))
    (continues : ∀ c, Simulates failed mid (next c) (next' c) post) :
    Simulates failed pre (start >>= next) (start' >>= next') post := by
  refine bind begins ?_
  rintro a _ s t ⟨rfl, related⟩
  exact continues a s t related

/-- Both programs begin with a step that returns a known value. -/
theorem step {c : γ} {d : δ} {start : EStateM ε σ γ} {start' : EStateM ε τ δ} {next : γ → EStateM ε σ α}
    {next' : δ → EStateM ε τ β} (begins : Simulates failed pre start start' (fun a b s t => a = c ∧ b = d ∧ mid s t))
    (continues : Simulates failed mid (next c) (next' d) post) :
    Simulates failed pre (start >>= next) (start' >>= next') post := by
  refine bind begins ?_
  rintro a b s t ⟨rfl, rfl, related⟩
  exact continues s t related

theorem ite (condition : Prop) [Decidable condition] {other : EStateM ε σ α} {other' : EStateM ε τ β}
    (yes : condition → Simulates failed pre first last post) (no : ¬condition → Simulates failed pre other other' post) :
    Simulates failed pre (if condition then first else other) (if condition then last else other') post := by
  split
  next holds => exact yes holds
  next fails => exact no fails

theorem weaken {needed : σ → τ → Prop} {given : α → β → σ → τ → Prop}
    (simulates : Simulates failed needed first last given) (before : ∀ s t, pre s t → needed s t)
    (after : ∀ a b s t, given a b s t → post a b s t) : Simulates failed pre first last post := by
  intro s t related
  obtain ⟨_, _, _, _, ran, ran', holds⟩ | ⟨_, _, _, ran, ran', holds⟩ := (simulates s t (before s t related)).cases
  · rw [ran, ran']
    exact .ok (after _ _ _ _ holds)
  · rw [ran, ran']
    exact .error holds

end Simulates
end EStateM
