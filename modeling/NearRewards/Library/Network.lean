import Mathlib.Algebra.BigOperators.Group.List.Basic
import Mathlib.Algebra.Order.Ring.Int
import NearRewards.Library.Machine

/-! A machine whose answers schedule messages, together with the messages under way. A
message under way is delivered or fails, in any order and at any time between two calls. -/

universe u v w x

/-- A machine's state and the messages it has scheduled that nobody has seen yet. -/
structure Network (σ : Type u) (μ : Type x) where
  node : σ
  inFlight : List μ

namespace Network

inductive Move (ι : Type v) where
  | call (input : ι)
  | deliver (index : ℕ)
  | fail (index : ℕ)

inductive Seen (ι : Type v) (ο : Type w) (μ : Type x) where
  | answered (input : ι) (answer : ο)
  | delivered (message : μ)
  | returned (message : μ)
  | nothing

variable {σ : Type u} {ι : Type v} {ο : Type w} {μ : Type x}

def Move.call? : Move ι → Option ι
  | .call input => some input
  | _ => none

def Seen.answered? : Seen ι ο μ → Option (ι × ο)
  | .answered input answer => some (input, answer)
  | _ => none

/-- A move that names no message under way changes nothing. -/
def step (machine : Machine σ ι ο) (sends : ο → List μ) (network : Network σ μ) : Move ι → Seen ι ο μ × Network σ μ
  | .call input =>
    let (answer, node) := machine.step network.node input
    (.answered input answer, ⟨node, network.inFlight ++ sends answer⟩)
  | .deliver index =>
    match network.inFlight[index]? with
    | some message => (.delivered message, { network with inFlight := network.inFlight.eraseIdx index })
    | none => (.nothing, network)
  | .fail index =>
    match network.inFlight[index]? with
    | some message => (.returned message, { network with inFlight := network.inFlight.eraseIdx index })
    | none => (.nothing, network)

def attach (machine : Machine σ ι ο) (sends : ο → List μ) : Machine (Network σ μ) (Move ι) (Seen ι ο μ) where
  init := ⟨machine.init, []⟩
  step := step machine sends

/-- The move makes no message under way fail. -/
def Harmless (network : Network σ μ) (move : Move ι) : Prop :=
  ∀ index, move = .fail index → network.inFlight.length ≤ index

section Weights
variable (weight : μ → ℕ)

def total (messages : List μ) : ℕ := (messages.map weight).sum

/-- The weight of what a history of calls schedules. -/
def sent (sends : ο → List μ) (history : List (ι × ο)) : ℕ := (history.map fun entry => total weight (sends entry.2)).sum

def Seen.deliveredWeight : Seen ι ο μ → ℕ
  | .delivered message => weight message
  | _ => 0

def Seen.returnedWeight : Seen ι ο μ → ℕ
  | .returned message => weight message
  | _ => 0

def delivered (seen : List (Seen ι ο μ)) : ℕ := (seen.map (Seen.deliveredWeight weight)).sum

def returned (seen : List (Seen ι ο μ)) : ℕ := (seen.map (Seen.returnedWeight weight)).sum

theorem sent_concat (sends : ο → List μ) (history : List (ι × ο)) (input : ι) (answer : ο) :
    sent weight sends (history ++ [(input, answer)]) = sent weight sends history + total weight (sends answer) := by
  simp [sent]

theorem total_append (first rest : List μ) : total weight (first ++ rest) = total weight first + total weight rest := by
  simp [total]

theorem total_eraseIdx {messages : List μ} {index : ℕ} {message : μ} (found : messages[index]? = some message) :
    total weight messages = weight message + total weight (messages.eraseIdx index) := by
  induction messages generalizing index with
  | nil => cases found
  | cons head rest ih =>
    cases index with
    | zero =>
      cases found
      rfl
    | succ index =>
      have tail := @ih index found
      simp only [total, List.eraseIdx_cons_succ, List.map_cons, List.sum_cons] at tail ⊢
      omega

end Weights

section Runs
variable (machine : Machine σ ι ο) (sends : ο → List μ)

/-- What one move can do. -/
inductive Moves (network : Network σ μ) : Move ι → Seen ι ο μ × Network σ μ → Prop where
  | call (input : ι) : Moves network (.call input)
      (.answered input (machine.step network.node input).1,
        ⟨(machine.step network.node input).2, network.inFlight ++ sends (machine.step network.node input).1⟩)
  | deliver {index message} (found : network.inFlight[index]? = some message) : Moves network (.deliver index)
      (.delivered message, { network with inFlight := network.inFlight.eraseIdx index })
  | fail {index message} (found : network.inFlight[index]? = some message) : Moves network (.fail index)
      (.returned message, { network with inFlight := network.inFlight.eraseIdx index })
  | idle {move : Move ι} (harmless : network.Harmless move) (silent : move.call? = none) :
      Moves network move (.nothing, network)

theorem step_moves (network : Network σ μ) (move : Move ι) :
    Moves machine sends network move ((attach machine sends).step network move) := by
  change Moves machine sends network move (step machine sends network move)
  cases move with
  | call input => exact .call input
  | deliver index =>
    unfold step
    dsimp only
    cases found : network.inFlight[index]? with
    | none => exact .idle (by simp [Harmless]) rfl
    | some message => exact .deliver found
  | fail index =>
    unfold step
    dsimp only
    cases found : network.inFlight[index]? with
    | none =>
      refine .idle ?_ rfl
      rintro other ⟨⟩
      exact List.getElem?_eq_none_iff.mp found
    | some message => exact .fail found

/-- The machine inside the network runs on the calls alone. -/
theorem calls_run (network : Network σ μ) (moves : List (Move ι)) :
    ((attach machine sends).answers network moves).filterMap Seen.answered? =
        machine.trace network.node (moves.filterMap Move.call?) ∧
      ((attach machine sends).after network moves).node = machine.after network.node (moves.filterMap Move.call?) := by
  induction moves generalizing network with
  | nil => exact ⟨rfl, rfl⟩
  | cons move rest ih =>
    rw [Machine.answers_cons, Machine.after_cons]
    have moved := step_moves machine sends network move
    generalize (attach machine sends).step network move = result at moved ⊢
    cases moved with
    | call input =>
      obtain ⟨history, final⟩ := ih ⟨_, _⟩
      refine ⟨?_, final⟩
      change (input, _) :: _ = _
      rw [history]
      rfl
    | deliver found => exact ih _
    | fail found => exact ih _
    | idle harmless silent =>
      rw [List.filterMap_cons_none silent]
      exact ih _

variable (weight : μ → ℕ)

/-- Whatever was sent has been delivered, has come back, or is still under way. -/
theorem sent_eq (network : Network σ μ) (moves : List (Move ι)) :
    total weight network.inFlight +
        sent weight sends (((attach machine sends).answers network moves).filterMap Seen.answered?) =
      delivered weight ((attach machine sends).answers network moves) +
        returned weight ((attach machine sends).answers network moves) +
        total weight ((attach machine sends).after network moves).inFlight := by
  induction moves generalizing network with
  | nil => simp [sent, delivered, returned]
  | cons move rest ih =>
    rw [Machine.answers_cons, Machine.after_cons]
    have moved := step_moves machine sends network move
    generalize (attach machine sends).step network move = result at moved ⊢
    have later := ih result.2
    cases moved with
    | call input =>
      rw [total_append] at later
      simp only [List.filterMap_cons, Seen.answered?, sent, delivered, returned, List.map_cons, List.sum_cons,
        Seen.deliveredWeight, Seen.returnedWeight] at later ⊢
      omega
    | deliver found =>
      rw [total_eraseIdx weight found]
      simp only [List.filterMap_cons, Seen.answered?, delivered, returned, List.map_cons, List.sum_cons,
        Seen.deliveredWeight, Seen.returnedWeight] at later ⊢
      omega
    | fail found =>
      rw [total_eraseIdx weight found]
      simp only [List.filterMap_cons, Seen.answered?, delivered, returned, List.map_cons, List.sum_cons,
        Seen.deliveredWeight, Seen.returnedWeight] at later ⊢
      omega
    | idle _ _ =>
      simp only [List.filterMap_cons, Seen.answered?, delivered, returned, List.map_cons, List.sum_cons,
        Seen.deliveredWeight, Seen.returnedWeight] at later ⊢
      omega

/-- When every message weighs something, nothing has come back exactly when no message
under way failed. -/
theorem returned_eq_zero (positive : ∀ state input, ∀ message ∈ sends (machine.step state input).1, 0 < weight message)
    {network : Network σ μ} (underWay : ∀ message ∈ network.inFlight, 0 < weight message) (moves : List (Move ι)) :
    returned weight ((attach machine sends).answers network moves) = 0 ↔
      (attach machine sends).Along Harmless network moves := by
  induction moves generalizing network with
  | nil => simp [returned, Machine.Along]
  | cons move rest ih =>
    rw [Machine.answers_cons, Machine.Along, returned, List.map_cons, List.sum_cons, Nat.add_eq_zero_iff]
    have moved := step_moves machine sends network move
    generalize (attach machine sends).step network move = result at moved ⊢
    cases moved with
    | call input =>
      refine and_congr (by simp [Seen.returnedWeight, Harmless]) (ih ?_)
      intro message member
      rcases List.mem_append.mp member with before | scheduled
      · exact underWay message before
      · exact positive network.node input message scheduled
    | deliver found =>
      refine and_congr (by simp [Seen.returnedWeight, Harmless]) (ih ?_)
      exact fun message member => underWay message (List.mem_of_mem_eraseIdx member)
    | fail found =>
      have weighty := underWay _ (List.mem_of_getElem? found)
      refine iff_of_false (fun nothing => absurd nothing.1 (Nat.pos_iff_ne_zero.mp weighty)) ?_
      rintro ⟨harmless, _⟩
      have present := (List.getElem?_eq_some_iff.mp found).1
      exact absurd present (Nat.not_lt.mpr (harmless _ rfl))
    | idle harmless _ => exact and_congr (iff_of_true rfl harmless) (ih underWay)

end Runs
end Network
