import Mathlib.Data.List.Destutter
import Mathlib.Data.List.Induction

/-! Deterministic machines that answer every input. A run is the fold of the step
function over its inputs; the trace pairs each input with the answer it received.
Nothing here depends on what the machine computes. -/

universe u v w

structure Machine (σ : Type u) (ι : Type v) (ο : Type w) where
  init : σ
  step : σ → ι → ο × σ

namespace Machine
variable {σ : Type u} {ι : Type v} {ο : Type w} (machine : Machine σ ι ο)

def after (state : σ) (inputs : List ι) : σ :=
  inputs.foldl (fun current input => (machine.step current input).2) state

def trace (state : σ) : List ι → List (ι × ο)
  | [] => []
  | input :: rest => (input, (machine.step state input).1) :: trace (machine.step state input).2 rest

/-- The answers of a run, in the order of its inputs. -/
def answers (state : σ) (inputs : List ι) : List ο := (machine.trace state inputs).map Prod.snd

def Reachable (state : σ) : Prop := ∃ inputs, machine.after machine.init inputs = state

@[simp] theorem after_nil (state : σ) : machine.after state [] = state := rfl

@[simp] theorem after_cons (state : σ) (input : ι) (rest : List ι) :
    machine.after state (input :: rest) = machine.after (machine.step state input).2 rest := rfl

theorem after_append (state : σ) (first rest : List ι) :
    machine.after state (first ++ rest) = machine.after (machine.after state first) rest :=
  List.foldl_append

theorem after_concat (state : σ) (inputs : List ι) (input : ι) :
    machine.after state (inputs ++ [input]) = (machine.step (machine.after state inputs) input).2 := by
  rw [after_append]; rfl

@[simp] theorem trace_nil (state : σ) : machine.trace state [] = [] := rfl

@[simp] theorem trace_cons (state : σ) (input : ι) (rest : List ι) :
    machine.trace state (input :: rest) =
      (input, (machine.step state input).1) :: machine.trace (machine.step state input).2 rest := rfl

theorem trace_append (state : σ) (first rest : List ι) :
    machine.trace state (first ++ rest) =
      machine.trace state first ++ machine.trace (machine.after state first) rest := by
  induction first generalizing state with
  | nil => rfl
  | cons input first ih => simp only [List.cons_append, trace_cons, after_cons, ih]

theorem trace_concat (state : σ) (inputs : List ι) (input : ι) :
    machine.trace state (inputs ++ [input]) =
      machine.trace state inputs ++ [(input, (machine.step (machine.after state inputs) input).1)] := by
  rw [trace_append]; rfl

theorem trace_inputs (state : σ) (inputs : List ι) : (machine.trace state inputs).map Prod.fst = inputs := by
  induction inputs generalizing state with
  | nil => rfl
  | cons input rest ih => rw [trace_cons, List.map_cons, ih]

@[simp] theorem answers_nil (state : σ) : machine.answers state [] = [] := rfl

@[simp] theorem answers_cons (state : σ) (input : ι) (rest : List ι) :
    machine.answers state (input :: rest) =
      (machine.step state input).1 :: machine.answers (machine.step state input).2 rest := rfl

theorem answers_concat (state : σ) (inputs : List ι) (input : ι) :
    machine.answers state (inputs ++ [input]) =
      machine.answers state inputs ++ [(machine.step (machine.after state inputs) input).1] := by
  simp [answers, trace_concat]

namespace Reachable
variable {machine}

theorem init : machine.Reachable machine.init := ⟨[], rfl⟩

theorem after {state : σ} (reachable : machine.Reachable state) (inputs : List ι) :
    machine.Reachable (machine.after state inputs) := by
  obtain ⟨first, rfl⟩ := reachable
  exact ⟨first ++ inputs, machine.after_append _ first inputs⟩

theorem step {state : σ} (reachable : machine.Reachable state) (input : ι) :
    machine.Reachable (machine.step state input).2 :=
  reachable.after [input]

end Reachable

/-- The states a run goes through, the first and the last included. -/
def states (state : σ) : List ι → List σ
  | [] => [state]
  | input :: rest => state :: states (machine.step state input).2 rest

theorem states_concat (state : σ) (inputs : List ι) (input : ι) :
    machine.states state (inputs ++ [input]) = machine.states state inputs ++ [machine.after state (inputs ++ [input])] := by
  induction inputs generalizing state with
  | nil => rfl
  | cons first rest ih =>
    simp only [List.cons_append, states, ih]
    rfl

section Passes
variable {π : Type*} [DecidableEq π]

private theorem destutter'_concat (first : π) (rest : List π) (seen : π) :
    (rest ++ [seen]).destutter' (· ≠ ·) first =
      if (rest.destutter' (· ≠ ·) first).getLast? = some seen then rest.destutter' (· ≠ ·) first
      else rest.destutter' (· ≠ ·) first ++ [seen] := by
  induction rest generalizing first with
  | nil =>
    rw [List.nil_append, List.destutter'_singleton, List.destutter'_nil, List.getLast?_singleton]
    by_cases same : first = seen <;> simp [same]
  | cons next rest ih =>
    by_cases same : first = next
    · rw [List.cons_append, List.destutter'_cons_neg _ (not_not.mpr same), List.destutter'_cons_neg _ (not_not.mpr same), ih]
    · have filled := List.destutter'_ne_nil rest (R := (· ≠ ·)) (a := next)
      rw [List.cons_append, List.destutter'_cons_pos _ same, List.destutter'_cons_pos _ same, ih,
        List.getLast?_cons_of_ne_nil filled]
      split <;> rfl

/-- What a run is seen to go through, without immediate repetitions. -/
def passes (observe : σ → Option π) (state : σ) (inputs : List ι) : List π :=
  ((machine.states state inputs).filterMap observe).destutter (· ≠ ·)

theorem passes_concat (observe : σ → Option π) (state : σ) (inputs : List ι) (input : ι) :
    machine.passes observe state (inputs ++ [input]) =
      match observe (machine.after state (inputs ++ [input])) with
      | none => machine.passes observe state inputs
      | some seen =>
        if (machine.passes observe state inputs).getLast? = some seen then machine.passes observe state inputs
        else machine.passes observe state inputs ++ [seen] := by
  unfold passes
  rw [states_concat, List.filterMap_append]
  cases found : observe (machine.after state (inputs ++ [input])) with
  | none => simp [found]
  | some seen =>
    rw [List.filterMap_cons_some found, List.filterMap_nil]
    cases (machine.states state inputs).filterMap observe with
    | nil => rfl
    | cons first rest => exact destutter'_concat first rest seen

end Passes

/-- A property of the answers so far and the current state holds after every run once
it holds before the first input and each step extends it. -/
theorem history_invariant {P : List (ι × ο) → σ → Prop} (initial : P [] machine.init)
    (extends_ : ∀ history state input, P history state →
      P (history ++ [(input, (machine.step state input).1)]) (machine.step state input).2)
    (inputs : List ι) : P (machine.trace machine.init inputs) (machine.after machine.init inputs) := by
  induction inputs using List.reverseRecOn with
  | nil => exact initial
  | append_singleton inputs input ih =>
    rw [trace_concat, after_concat]
    exact extends_ _ _ _ ih

variable {machine} in
theorem Reachable.invariant {P : σ → Prop} {state : σ} (reachable : machine.Reachable state)
    (initial : P machine.init) (preserved : ∀ current input, P current → P (machine.step current input).2) :
    P state := by
  obtain ⟨inputs, rfl⟩ := reachable
  exact machine.history_invariant (P := fun _ => P) initial (fun _ => preserved) inputs

/-- A preorder that every step from a good state follows relates the ends of a run. -/
theorem after_related {P : σ → Prop} {R : σ → σ → Prop} (same : ∀ state, R state state)
    (trans : ∀ {first middle last}, R first middle → R middle last → R first last)
    (preserved : ∀ state input, P state → P (machine.step state input).2)
    (moves : ∀ state input, P state → R state (machine.step state input).2) {state : σ} (holds : P state)
    (inputs : List ι) : R state (machine.after state inputs) := by
  induction inputs generalizing state with
  | nil => exact same state
  | cons input rest ih => exact trans (moves state input holds) (ih (preserved state input holds))

/-- Every step of the run meets a condition on its input and the state it starts from. -/
def Along (condition : σ → ι → Prop) (state : σ) : List ι → Prop
  | [] => True
  | input :: rest => condition state input ∧ Along condition (machine.step state input).2 rest

instance decidableAlong {condition : σ → ι → Prop} [decide : ∀ state input, Decidable (condition state input)] :
    ∀ state inputs, Decidable (machine.Along condition state inputs)
  | _, [] => isTrue trivial
  | state, input :: rest => @instDecidableAnd _ _ (decide state input) (decidableAlong (machine.step state input).2 rest)

theorem along_iff {condition : σ → ι → Prop} {state : σ} {inputs : List ι} :
    machine.Along condition state inputs ↔
      ∀ before input after, inputs = before ++ input :: after → condition (machine.after state before) input := by
  induction inputs generalizing state with
  | nil => simp [Along]
  | cons first rest ih =>
    rw [Along, ih]
    constructor
    · rintro ⟨now, later⟩ (_ | ⟨_, before⟩) input after split
      · cases split
        exact now
      · cases split
        exact later before input after rfl
    · intro every
      exact ⟨every [] first rest rfl, fun before input after split => every (first :: before) input after (split ▸ rfl)⟩

theorem along_concat {condition : σ → ι → Prop} {state : σ} {inputs : List ι} {input : ι}
    (along : machine.Along condition state (inputs ++ [input])) :
    machine.Along condition state inputs ∧ condition (machine.after state inputs) input := by
  rw [along_iff] at along ⊢
  refine ⟨fun before one after split => ?_, along inputs input [] rfl⟩
  apply along before one (after ++ [input])
  rw [split, List.append_assoc, List.cons_append]

theorem Along.and {condition : σ → ι → Prop} {allowed : ι → Prop} {state : σ} {inputs : List ι}
    (clear : machine.Along condition state inputs) (all : ∀ input ∈ inputs, allowed input) :
    machine.Along (fun current input => condition current input ∧ allowed input) state inputs := by
  induction inputs generalizing state with
  | nil => trivial
  | cons input rest ih =>
    exact ⟨⟨clear.1, all input List.mem_cons_self⟩, ih clear.2 (fun other member => all other (List.mem_cons_of_mem _ member))⟩

/-- Two machines in lockstep: as long as the first one's steps meet the condition, the
answers stay related one by one and so do the states. -/
theorem run_alike {σ' : Type*} {ι' : Type*} {ο' : Type*} (other : Machine σ' ι' ο')
    (translate : ι → ι') {condition : σ → ι → Prop} {related : σ → σ' → Prop} {same : ο → ο' → Prop}
    (matched : ∀ state state' input, related state state' → condition state input →
      same (machine.step state input).1 (other.step state' (translate input)).1 ∧
        related (machine.step state input).2 (other.step state' (translate input)).2)
    (inputs : List ι) {state : σ} {state' : σ'} (start : related state state')
    (clear : machine.Along condition state inputs) :
    List.Forall₂ same (machine.answers state inputs) (other.answers state' (inputs.map translate)) ∧
      related (machine.after state inputs) (other.after state' (inputs.map translate)) := by
  induction inputs generalizing state state' with
  | nil => exact ⟨.nil, start⟩
  | cons input rest ih =>
    obtain ⟨holds, clear⟩ := clear
    obtain ⟨answer, next⟩ := matched state state' input start holds
    obtain ⟨answers, final⟩ := ih next clear
    exact ⟨.cons answer answers, final⟩

end Machine
