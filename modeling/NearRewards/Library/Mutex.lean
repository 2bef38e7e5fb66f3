import NearRewards.Library.Machine

/-! A machine shared by threads. Some of its inputs are carried out at once; for the others a
thread takes the lock, loads what it needs, writes back and lets go, while other threads are
at work. What the threads have done is what the machine would have done one input at a time. -/

universe u v w x y

namespace Mutex

/-- A machine whose guarded inputs are carried out in two parts: what is loaded answers the
input, or leaves something to write back. -/
structure Guarded (σ : Type u) (ι : Type v) (ο : Type w) (κ : Type x) where
  machine : Machine σ ι ο
  guarded : ι → Bool
  load : σ → ι → ο ⊕ κ
  store : σ → ι → κ → ο × σ
  answers : ∀ {state input answer}, machine.Reachable state → guarded input = true → load state input = .inl answer →
    machine.step state input = (answer, state)
  writes : ∀ {state input plan}, machine.Reachable state → guarded input = true → load state input = .inr plan →
    machine.step state input = store state input plan

/-- Where a thread is. -/
inductive Place (ι : Type v) (ο : Type w) (κ : Type x) where
  | idle
  | waiting (input : ι)
  | entered (input : ι)
  | loaded (input : ι) (plan : κ)
  | leaving (answer : ο)
  | done (answer : ο)

structure State (τ : Type y) (σ : Type u) (ι : Type v) (ο : Type w) (κ : Type x) where
  shared : σ
  holder : Option τ := none
  place : τ → Place ι ο κ := fun _ => .idle

/-- A thread starts on an input, or goes on with what it is at. -/
inductive Move (τ : Type y) (ι : Type v) where
  | call (thread : τ) (input : ι)
  | go (thread : τ)

inductive Seen (τ : Type y) (ι : Type v) (ο : Type w) where
  | called (thread : τ) (input : ι)
  | committed (thread : τ) (input : ι) (answer : ο)
  | returned (thread : τ) (answer : ο)
  | nothing

variable {τ : Type y} {σ : Type u} {ι : Type v} {ο : Type w} {κ : Type x} [DecidableEq τ]

namespace State

def put (state : State τ σ ι ο κ) (thread : τ) (place : Place ι ο κ) : State τ σ ι ο κ :=
  { state with place := fun other => if other = thread then place else state.place other }

end State

/-- A thread that has called waits for the lock if the input is guarded; no other thread
enters before the holder has left. -/
def step (guarded : Guarded σ ι ο κ) (state : State τ σ ι ο κ) : Move τ ι → Seen τ ι ο × State τ σ ι ο κ
  | .call thread input =>
    match state.place thread with
    | .idle => (.called thread input, state.put thread (.waiting input))
    | _ => (.nothing, state)
  | .go thread =>
    match state.place thread with
    | .idle => (.nothing, state)
    | .waiting input =>
      if guarded.guarded input then
        match state.holder with
        | none => (.nothing, { state.put thread (.entered input) with holder := some thread })
        | some _ => (.nothing, state)
      else
        let (answer, shared) := guarded.machine.step state.shared input
        (.committed thread input answer, { state.put thread (.done answer) with shared })
    | .entered input =>
      match guarded.load state.shared input with
      | .inl answer => (.committed thread input answer, state.put thread (.leaving answer))
      | .inr plan => (.nothing, state.put thread (.loaded input plan))
    | .loaded input plan =>
      let (answer, shared) := guarded.store state.shared input plan
      (.committed thread input answer, { state.put thread (.leaving answer) with shared })
    | .leaving answer => (.nothing, { state.put thread (.done answer) with holder := none })
    | .done answer => (.returned thread answer, state.put thread .idle)

def share (τ : Type y) [DecidableEq τ] (guarded : Guarded σ ι ο κ) : Machine (State τ σ ι ο κ) (Move τ ι) (Seen τ ι ο) where
  init := { shared := guarded.machine.init }
  step := step guarded

/-- What the threads have done, in the order in which it took effect. -/
def commit? : Seen τ ι ο → Option (ι × ο)
  | .committed _ input answer => some (input, answer)
  | _ => none

def commits (seen : List (Seen τ ι ο)) : List (ι × ο) := seen.filterMap commit?

section Runs
variable (guarded : Guarded σ ι ο κ)

/-- What one move can do. -/
inductive Moves (state : State τ σ ι ο κ) : Move τ ι → Seen τ ι ο × State τ σ ι ο κ → Prop where
  | call {thread} (input : ι) (idle : state.place thread = .idle) :
      Moves state (.call thread input) (.called thread input, state.put thread (.waiting input))
  | still (move : Move τ ι) : Moves state move (.nothing, state)
  | enter {thread input} (waits : state.place thread = .waiting input) (locked : guarded.guarded input = true)
      (free : state.holder = none) :
      Moves state (.go thread) (.nothing, { state.put thread (.entered input) with holder := some thread })
  | direct {thread input} (waits : state.place thread = .waiting input) (unlocked : guarded.guarded input = false) :
      Moves state (.go thread) (.committed thread input (guarded.machine.step state.shared input).1,
        { state.put thread (.done (guarded.machine.step state.shared input).1) with
          shared := (guarded.machine.step state.shared input).2 })
  | answer {thread input answer} (inside : state.place thread = .entered input)
      (loads : guarded.load state.shared input = .inl answer) :
      Moves state (.go thread) (.committed thread input answer, state.put thread (.leaving answer))
  | load {thread input plan} (inside : state.place thread = .entered input)
      (loads : guarded.load state.shared input = .inr plan) :
      Moves state (.go thread) (.nothing, state.put thread (.loaded input plan))
  | store {thread input plan} (inside : state.place thread = .loaded input plan) :
      Moves state (.go thread) (.committed thread input (guarded.store state.shared input plan).1,
        { state.put thread (.leaving (guarded.store state.shared input plan).1) with
          shared := (guarded.store state.shared input plan).2 })
  | leave {thread answer} (inside : state.place thread = .leaving answer) :
      Moves state (.go thread) (.nothing, { state.put thread (.done answer) with holder := none })
  | return {thread answer} (outside : state.place thread = .done answer) :
      Moves state (.go thread) (.returned thread answer, state.put thread .idle)

theorem step_moves (state : State τ σ ι ο κ) (move : Move τ ι) : Moves guarded state move (step guarded state move) := by
  cases move with
  | call thread input =>
    dsimp only [step]
    cases at_ : state.place thread with
    | idle => exact .call input at_
    | _ => exact .still _
  | go thread =>
    dsimp only [step]
    cases at_ : state.place thread with
    | idle => exact .still _
    | waiting input =>
      dsimp only
      split
      next locked =>
        cases free : state.holder with
        | none => exact .enter at_ locked free
        | some _ => exact .still _
      next unlocked => exact .direct at_ (Bool.eq_false_iff.mpr unlocked)
    | entered input =>
      dsimp only
      cases loads : guarded.load state.shared input with
      | inl answer => exact .answer at_ loads
      | inr plan => exact .load at_ loads
    | loaded input plan => exact .store at_
    | leaving answer => exact .leave at_
    | done answer => exact .return at_

/-- What is carried out at once, where it is calm, leaves what another thread has loaded as it is. -/
def Undisturbed (calm : σ → ι → Prop) : Prop :=
  ∀ {state direct input plan}, guarded.guarded direct = false → calm state direct → guarded.guarded input = true →
    guarded.load state input = .inr plan → guarded.load (guarded.machine.step state direct).2 input = .inr plan

/-- Whatever a move carries out at once is calm. -/
def Calm (calm : σ → ι → Prop) (state : State τ σ ι ο κ) (move : Move τ ι) : Prop :=
  ∀ thread input, move = .go thread → state.place thread = .waiting input → guarded.guarded input = false →
    calm state.shared input

instance {calm : σ → ι → Prop} [∀ state input, Decidable (calm state input)] (state : State τ σ ι ο κ) :
    ∀ move, Decidable (Calm guarded calm state move)
  | .call _ _ => isTrue fun _ _ equal => by cases equal
  | .go thread =>
    match at_ : state.place thread with
    | .waiting input => decidable_of_iff (guarded.guarded input = false → calm state.shared input) <| by
        constructor
        · intro quiet other found equal waits unlocked
          cases equal
          cases at_.symm.trans waits
          exact quiet unlocked
        · exact fun quiet => quiet thread input rfl at_
    | .idle | .entered _ | .loaded _ _ | .leaving _ | .done _ => isTrue fun _ _ equal waits => by
        cases equal
        cases at_.symm.trans waits

/-- The places where a thread holds the lock. -/
inductive Place.Inside : Place ι ο κ → Prop where
  | entered (input : ι) : Place.Inside (.entered input)
  | loaded (input : ι) (plan : κ) : Place.Inside (.loaded input plan)
  | leaving (answer : ο) : Place.Inside (.leaving answer)

/-- What the threads have done, as the machine does it one input after the other. -/
structure Serial (done : List (ι × ο)) (shared : σ) : Prop where
  trace : guarded.machine.trace guarded.machine.init (done.map Prod.fst) = done
  after : guarded.machine.after guarded.machine.init (done.map Prod.fst) = shared

/-- One thread at most is inside, and what it has loaded is still there. -/
structure Exclusive (state : State τ σ ι ο κ) : Prop where
  alone : ∀ thread, (state.place thread).Inside → state.holder = some thread
  entered : ∀ thread input, state.place thread = .entered input → guarded.guarded input = true
  loaded : ∀ thread input plan, state.place thread = .loaded input plan →
    guarded.guarded input = true ∧ guarded.load state.shared input = .inr plan

variable {guarded} {calm : σ → ι → Prop} {state : State τ σ ι ο κ} {thread : τ} {done : List (ι × ο)}

theorem State.put_place (state : State τ σ ι ο κ) (thread other : τ) (place : Place ι ο κ) :
    (state.put thread place).place other = if other = thread then place else state.place other := rfl

omit [DecidableEq τ] in
theorem Serial.reachable {shared : σ} (serial : Serial guarded done shared) : guarded.machine.Reachable shared :=
  ⟨_, serial.after⟩

theorem Serial.commit {shared after : σ} {input : ι} {answer : ο} (serial : Serial guarded done shared)
    (steps : guarded.machine.step shared input = (answer, after)) : Serial guarded (done ++ [(input, answer)]) after := by
  refine ⟨?_, ?_⟩
  · rw [List.map_append, List.map_cons, List.map_nil, Machine.trace_concat, serial.trace, serial.after, steps]
  · rw [List.map_append, List.map_cons, List.map_nil, Machine.after_concat, serial.after, steps]

omit [DecidableEq τ] in
theorem Exclusive.others (exclusive : Exclusive guarded state) {other : τ} (inside : (state.place thread).Inside)
    (different : other ≠ thread) : ¬(state.place other).Inside := by
  intro insideToo
  have holds := exclusive.alone thread inside
  rw [exclusive.alone other insideToo] at holds
  exact different (Option.some.inj holds)

/-- A thread moves, and the others keep what they hold and find what they have loaded. -/
theorem Exclusive.put (exclusive : Exclusive guarded state) {place : Place ι ο κ} {shared : σ} {holder : Option τ}
    (inside : place.Inside → holder = some thread)
    (held : ∀ other, other ≠ thread → (state.place other).Inside → holder = some other)
    (entered : ∀ input, place = .entered input → guarded.guarded input = true)
    (loaded : ∀ input plan, place = .loaded input plan → guarded.guarded input = true ∧ guarded.load shared input = .inr plan)
    (kept : ∀ other input plan, other ≠ thread → state.place other = .loaded input plan → guarded.guarded input = true →
      guarded.load state.shared input = .inr plan → guarded.load shared input = .inr plan) :
    Exclusive guarded { state.put thread place with shared, holder } := by
  refine ⟨fun other => ?_, fun other input => ?_, fun other input plan => ?_⟩
  all_goals
    dsimp only
    rw [State.put_place]
    by_cases own : other = thread
  · subst own
    rw [if_pos rfl]
    exact inside
  · rw [if_neg own]
    exact held other own
  · subst own
    rw [if_pos rfl]
    exact entered input
  · rw [if_neg own]
    exact exclusive.entered other input
  · subst own
    rw [if_pos rfl]
    exact loaded input plan
  · rw [if_neg own]
    intro at_
    obtain ⟨locked, loads⟩ := exclusive.loaded other input plan at_
    exact ⟨locked, kept other input plan own at_ locked loads⟩

/-- A thread moves where neither the lock nor what is shared changes. -/
theorem Exclusive.move (exclusive : Exclusive guarded state) {place : Place ι ο κ}
    (inside : place.Inside → state.holder = some thread)
    (entered : ∀ input, place = .entered input → guarded.guarded input = true)
    (loaded : ∀ input plan, place = .loaded input plan →
      guarded.guarded input = true ∧ guarded.load state.shared input = .inr plan) :
    Exclusive guarded (state.put thread place) :=
  exclusive.put inside (fun other _ => exclusive.alone other) entered loaded fun _ _ _ _ _ _ loads => loads

theorem Moves.keeps {move : Move τ ι} {result : Seen τ ι ο × State τ σ ι ο κ} (moved : Moves guarded state move result)
    (undisturbed : Undisturbed guarded calm) (quiet : Calm guarded calm state move) (exclusive : Exclusive guarded state)
    (serial : Serial guarded done state.shared) :
    Exclusive guarded result.2 ∧ Serial guarded (done ++ (commit? result.1).toList) result.2.shared := by
  have same : Serial guarded (done ++ []) state.shared := by
    rw [List.append_nil]
    exact serial
  cases moved with
  | call input idle =>
    refine ⟨?_, same⟩
    exact exclusive.move (fun inside => by cases inside) (fun _ equal => by cases equal) fun _ _ equal => by cases equal
  | still move => exact ⟨exclusive, same⟩
  | @enter thread input waits locked free =>
    have nobody : ∀ other, ¬(state.place other).Inside := by
      intro other inside
      cases free.symm.trans (exclusive.alone other inside)
    refine ⟨?_, same⟩
    apply exclusive.put (fun _ => rfl) (fun other _ inside => absurd inside (nobody other))
    · intro _ equal
      cases equal
      exact locked
    · intro _ _ equal
      cases equal
    · exact fun _ _ _ _ _ _ loads => loads
  | @direct thread input waits unlocked =>
    refine ⟨?_, serial.commit rfl⟩
    apply exclusive.put (fun inside => by cases inside) (fun other _ => exclusive.alone other)
    · intro _ equal
      cases equal
    · intro _ _ equal
      cases equal
    · exact fun _ _ _ _ _ locked loads => undisturbed unlocked (quiet thread input rfl waits unlocked) locked loads
  | @answer thread input answer inside loads =>
    have locked := exclusive.entered thread input inside
    have holds := exclusive.alone thread (by rw [inside]; constructor)
    refine ⟨?_, serial.commit (guarded.answers serial.reachable locked loads)⟩
    exact exclusive.move (fun _ => holds) (fun _ equal => by cases equal) fun _ _ equal => by cases equal
  | @load thread input plan inside loads =>
    have locked := exclusive.entered thread input inside
    have holds := exclusive.alone thread (by rw [inside]; constructor)
    refine ⟨?_, same⟩
    apply exclusive.move (fun _ => holds)
    · intro _ equal
      cases equal
    · intro _ _ equal
      cases equal
      exact ⟨locked, loads⟩
  | @store thread input plan inside =>
    obtain ⟨locked, loads⟩ := exclusive.loaded thread input plan inside
    have within : (state.place thread).Inside := by
      rw [inside]
      constructor
    refine ⟨?_, serial.commit (guarded.writes serial.reachable locked loads)⟩
    apply exclusive.put (fun _ => exclusive.alone thread within) (fun other _ => exclusive.alone other)
    · intro _ equal
      cases equal
    · intro _ _ equal
      cases equal
    -- nobody else has loaded anything while this thread is inside
    · intro other _ _ different at_
      exact absurd (at_ ▸ .loaded _ _) (exclusive.others within different)
  | @leave thread answer inside =>
    have within : (state.place thread).Inside := by
      rw [inside]
      constructor
    refine ⟨?_, same⟩
    apply exclusive.put (fun inside => by cases inside) (fun other different insideToo =>
      absurd insideToo (exclusive.others within different))
    · intro _ equal
      cases equal
    · intro _ _ equal
      cases equal
    · exact fun _ _ _ _ _ _ loads => loads
  | «return» outside =>
    refine ⟨?_, same⟩
    exact exclusive.move (fun inside => by cases inside) (fun _ equal => by cases equal) fun _ _ equal => by cases equal

omit [DecidableEq τ] in
theorem commits_concat (seen : List (Seen τ ι ο)) (next : Seen τ ι ο) :
    commits (seen ++ [next]) = commits seen ++ (commit? next).toList := by
  rw [commits, List.filterMap_append]
  cases found : commit? next <;> simp [commits, found]

theorem Exclusive.init : Exclusive guarded (share τ guarded).init :=
  ⟨fun _ inside => (by cases inside), fun _ _ equal => (by cases equal), fun _ _ _ equal => (by cases equal)⟩

/-- Under every interleaving the threads have done what the machine does one input at a time,
in the order in which their work took effect. -/
theorem serial_run (undisturbed : Undisturbed guarded calm) {moves : List (Move τ ι)}
    (quiet : (share τ guarded).Along (Calm guarded calm) (share τ guarded).init moves) :
    Exclusive guarded ((share τ guarded).after (share τ guarded).init moves) ∧
      Serial guarded (commits ((share τ guarded).answers (share τ guarded).init moves))
        ((share τ guarded).after (share τ guarded).init moves).shared := by
  induction moves using List.reverseRecOn with
  | nil => exact ⟨.init, rfl, rfl⟩
  | append_singleton moves move ih =>
    obtain ⟨earlier, now⟩ := (share τ guarded).along_concat quiet
    obtain ⟨exclusive, serial⟩ := ih earlier
    rw [Machine.answers_concat, Machine.after_concat, commits_concat]
    exact (step_moves guarded _ move).keeps undisturbed now exclusive serial

end Runs

section Threads

def called? (thread : τ) : Seen τ ι ο → Option ι
  | .called other input => if other = thread then some input else none
  | _ => none

def committed? (thread : τ) : Seen τ ι ο → Option (ι × ο)
  | .committed other input answer => if other = thread then some (input, answer) else none
  | _ => none

def returned? (thread : τ) : Seen τ ι ο → Option ο
  | .returned other answer => if other = thread then some answer else none
  | _ => none

/-- What the thread has called for and not done. -/
def Place.pending : Place ι ο κ → Option ι
  | .waiting input => some input
  | .entered input => some input
  | .loaded input _ => some input
  | _ => none

/-- What the thread has done and not returned. -/
def Place.owing : Place ι ο κ → Option ο
  | .leaving answer => some answer
  | .done answer => some answer
  | _ => none

/-- A thread has done what it called for, in that order and once each, and has returned the
answers, but for the call it is at. -/
structure Orderly (thread : τ) (seen : List (Seen τ ι ο)) (place : Place ι ο κ) : Prop where
  calls : seen.filterMap (called? thread) = (seen.filterMap (committed? thread)).map Prod.fst ++ place.pending.toList
  returns : (seen.filterMap (committed? thread)).map Prod.snd = seen.filterMap (returned? thread) ++ place.owing.toList

variable {guarded : Guarded σ ι ο κ} {state : State τ σ ι ο κ}

theorem Moves.orderly {move : Move τ ι} {result : Seen τ ι ο × State τ σ ι ο κ} (moved : Moves guarded state move result)
    (thread : τ) {seen : List (Seen τ ι ο)} (orderly : Orderly thread seen (state.place thread)) :
    Orderly thread (seen ++ [result.1]) (result.2.place thread) := by
  obtain ⟨calls, returns⟩ := orderly
  refine ⟨?_, ?_⟩
  all_goals
    simp only [List.filterMap_append]
    cases moved
    all_goals
      simp only [State.put_place, called?, committed?, returned?, List.filterMap_cons, List.filterMap_nil] at *
      grind [Place.pending, Place.owing]

theorem orderly_run (guarded : Guarded σ ι ο κ) (moves : List (Move τ ι)) (thread : τ) :
    Orderly thread ((share τ guarded).answers (share τ guarded).init moves)
      (((share τ guarded).after (share τ guarded).init moves).place thread) := by
  induction moves using List.reverseRecOn with
  | nil => exact ⟨rfl, rfl⟩
  | append_singleton moves move ih =>
    rw [Machine.answers_concat, Machine.after_concat]
    exact (step_moves guarded _ move).orderly thread ih

end Threads
end Mutex
