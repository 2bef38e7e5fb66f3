import NearRewards.Library.Thinned
import NearRewards.Proofs.Guardrails

/-! One run's actions. While the hourly cap keeps the table below its ceiling, a run that
never rests for an hour keeps its count, and a refused check leaves nothing behind that a
later one could tell. -/

namespace NearRewards.Agent
open SlidingWindow ActionLimiter
attribute [local irreducible] ActionLimiter.evict
variable {policy : ActionPolicy} {lag : ℤ} {runId : String}

/-- The actions the limiter has allowed to a run. -/
def acts (runId : String) (history : List (Turn × Option Verdict)) : List (Arrival String) :=
  (arrivals history).filter fun arrival => arrival.source = runId ∧ arrival.admitted

/-- No act comes more than an hour after the reading of the one before. -/
def Busy (acts : List (Arrival String)) : Prop :=
  acts.IsChain fun first next => next.entered ≤ first.read + cycleTtl

instance (acts : List (Arrival String)) : Decidable (Busy acts) := inferInstanceAs (Decidable (List.IsChain _ _))

/-- Below the ceiling, forgetting is a matter of age alone. -/
theorem evict_of_small {turns : List Turn} (prompt : Prompt lag turns) (short : 3 * lag < cycleTtl)
    (small : 2 * policy.maxActionsPerHour.toNat ≤ maxTrackedCycles) (now : Instant) :
    evict now ((limiter policy).after (limiter policy).init turns).cycleCounts =
      live now ((limiter policy).after (limiter policy).init turns).cycleCounts := by
  have few := counted_runs_le policy prompt short
  exact evict_live ((Dict.size_filter_le _).trans (few.trans small))

/-- What a run's counter still knows: it counts every act since the reset, unless some
turn came more than an hour after the last. -/
structure Counts (policy : ActionPolicy) (runId : String) (history : List (Turn × Option Verdict)) (state : ActionLimiter) :
    Prop where
  within_cap : (acts runId history).length ≤ policy.maxActionsPerCycle.toNat
  counter : ∀ last ∈ (acts runId history).getLast?,
    (∃ count, state.cycleCounts.get? runId = some (count, last.read) ∧ (acts runId history).length ≤ count) ∨
      ∃ arrival ∈ arrivals history, last.read + cycleTtl < arrival.entered

theorem acts_concat (runId : String) (history : List (Turn × Option Verdict)) (turn : Turn) (answer : Option Verdict) :
    acts runId (history ++ [(turn, answer)]) =
      acts runId history ++ (arrival? (turn, answer)).toList.filter fun arrival => arrival.source = runId ∧ arrival.admitted := by
  rw [acts, arrivals_concat, List.filter_append]
  rfl

namespace Counts
variable {history : List (Turn × Option Verdict)} {state : ActionLimiter}

/-- Either the counter survives the next reading or that reading's turn is the late one. -/
theorem prune (counts : Counts policy runId history state) {now : ℤ} (arrival : Arrival String)
    (aged : evict now state.cycleCounts = live now state.cycleCounts) (read : now ≤ arrival.entered) :
    ∀ last ∈ (acts runId history).getLast?,
      (∃ count, (state.prune now).cycleCounts.get? runId = some (count, last.read) ∧ (acts runId history).length ≤ count) ∨
        ∃ late ∈ arrivals history ++ [arrival], last.read + cycleTtl < late.entered := by
  intro last final
  rcases counts.counter last final with ⟨count, found, enough⟩ | ⟨late, member, order⟩
  · by_cases young : now - last.read ≤ cycleTtl
    · refine Or.inl ⟨count, ?_, enough⟩
      change (evict now state.cycleCounts).get? runId = _
      rw [aged]
      exact get?_live.mpr ⟨found, young⟩
    · exact Or.inr ⟨arrival, by simp, by omega⟩
  · exact Or.inr ⟨late, List.mem_append_left _ member, order⟩

theorem step (counts : Counts policy runId history state) {turn : Turn}
    (aged : ∀ now, evict now state.cycleCounts = live now state.cycleCounts)
    (ordered : ∀ arrival ∈ arrivals history, arrival.entered ≤ turn.entered)
    (read : ∀ now run kind, turn.operation = .check now run kind → now ≤ turn.entered)
    (unreset : turn.operation ≠ .resetCycle runId)
    (busy : Busy (acts runId (history ++ [(turn, ((limiter policy).step state turn).1)]))) :
    Counts policy runId (history ++ [(turn, ((limiter policy).step state turn).1)]) ((limiter policy).step state turn).2 := by
  have turned := turn_cases policy state turn
  have grown := arrivals_concat history turn ((limiter policy).step state turn).1
  have acted := acts_concat runId history turn ((limiter policy).step state turn).1
  generalize (limiter policy).step state turn = result at *
  generalize arrival? (turn, result.1) = seen at *
  cases turned with
  | @check entered now run kind result checks =>
    have prompt := read now run kind rfl
    have pruned := counts.prune ⟨run, entered, now, result.1.allowed⟩ (aged now) prompt
    rw [Option.toList_some] at grown acted
    by_cases act : run = runId ∧ result.1.allowed = true
    · obtain ⟨rfl, allowed⟩ := act
      have new : acts run (history ++ [(⟨entered, .check now run kind⟩, some result.1)]) =
          acts run history ++ [⟨run, entered, now, result.1.allowed⟩] := by
        rw [acted, List.filter_cons_of_pos (by simp [allowed]), List.filter_nil]
      cases checks with
      | suppressed => cases allowed
      | refused => cases allowed
      | allowed live hourly cycle =>
        -- the acts so far are all counted: the turn that would have aged the counter is later than this one
        have counted : (acts run history).length ≤ (state.prune now).used run := by
          cases final : (acts run history).getLast? with
          | none => simp [List.getLast?_eq_none_iff.mp final]
          | some last =>
            rw [new] at busy
            have soon := (List.isChain_append.mp busy).2.2 last final _ rfl
            rcases pruned last final with ⟨count, found, enough⟩ | ⟨late, member, order⟩
            · rwa [used, found]
            · rcases List.mem_append.mp member with earlier | this
              · have before := ordered late earlier
                dsimp only at soon before
                omega
              · cases List.mem_singleton.mp this
                dsimp only at soon order
                omega
        constructor
        · rw [new, List.length_append, List.length_singleton]
          omega
        · intro last final
          rw [new, List.getLast?_concat] at final
          cases final
          refine Or.inl ⟨(state.prune now).used run + 1, ?_, ?_⟩
          · rw [grant, Dict.get?_insert, if_pos rfl]
          · rw [new, List.length_append, List.length_singleton]
            omega
    · have same : acts runId (history ++ [(⟨entered, .check now run kind⟩, some result.1)]) = acts runId history := by
        rw [acted, List.filter_cons_of_neg (by simpa using act), List.filter_nil, List.append_nil]
      constructor
      · rw [same]
        exact counts.within_cap
      · intro last final
        rw [same] at final ⊢
        rw [grown]
        cases checks with
        | suppressed =>
          rcases counts.counter last final with found | ⟨late, member, order⟩
          · exact Or.inl found
          · exact Or.inr ⟨late, List.mem_append_left _ member, order⟩
        | refused => exact pruned last final
        | allowed =>
          rcases pruned last final with ⟨count, found, enough⟩ | late
          · refine Or.inl ⟨count, ?_, enough⟩
            rw [grant, Dict.get?_insert, if_neg, found]
            exact fun equal => act ⟨equal.symm, rfl⟩
          · exact Or.inr late
  | @reset entered run =>
    rw [Option.toList_none, List.append_nil] at grown
    rw [Option.toList_none, List.filter_nil, List.append_nil] at acted
    constructor
    · rw [acted]
      exact counts.within_cap
    · intro last final
      rw [acted] at final ⊢
      rw [grown]
      rcases counts.counter last final with ⟨count, found, enough⟩ | late
      · refine Or.inl ⟨count, ?_, enough⟩
        rw [resetCycle, Dict.get?_erase, if_neg, found]
        rintro rfl
        exact unreset rfl
      · exact Or.inr late

end Counts

theorem counts (policy : ActionPolicy) {before cycle : List Turn} (prompt : Prompt lag (before ++ cycle))
    (short : 3 * lag < cycleTtl) (small : 2 * policy.maxActionsPerHour.toNat ≤ maxTrackedCycles)
    (unreset : ∀ turn ∈ cycle, turn.operation ≠ .resetCycle runId)
    (busy : Busy (acts runId ((limiter policy).trace ((limiter policy).after (limiter policy).init before) cycle))) :
    Counts policy runId ((limiter policy).trace ((limiter policy).after (limiter policy).init before) cycle)
      ((limiter policy).after ((limiter policy).after (limiter policy).init before) cycle) := by
  induction cycle using List.reverseRecOn with
  | nil => exact ⟨Nat.zero_le _, fun _ last => by cases last⟩
  | append_singleton cycle turn ih =>
    rw [← List.append_assoc] at prompt
    have aged := evict_of_small prompt.init short small
    have ordered : ∀ earlier ∈ cycle, earlier.entered ≤ turn.entered := fun earlier member =>
      (List.pairwise_append.mp prompt.ordered).2.2 earlier (List.mem_append_right _ member) turn (List.mem_singleton.mpr rfl)
    have read := prompt.lagged turn (List.mem_append_right _ (List.mem_singleton.mpr rfl))
    rw [Machine.after_append] at aged
    have inputs := (limiter policy).trace_inputs ((limiter policy).after (limiter policy).init before) cycle
    rw [Machine.trace_concat] at busy ⊢
    rw [Machine.after_concat]
    generalize (limiter policy).after (limiter policy).init before = start at *
    have shorter : Busy (acts runId ((limiter policy).trace start cycle)) := by
      rw [acts_concat] at busy
      exact (List.isChain_append.mp busy).1
    have counts := ih prompt.init (fun earlier member => unreset earlier (List.mem_append_left _ member)) shorter
    refine counts.step aged ?_ (fun now run kind same => (read now run kind same).1) (unreset turn (by simp)) busy
    intro arrival member
    obtain ⟨⟨taken, answer⟩, traced, seen⟩ := List.mem_filterMap.mp member
    have early := ordered taken (inputs ▸ List.mem_map_of_mem traced)
    rwa [arrival?_entered seen]

/-- While the hourly cap keeps the table below half its ceiling and the readings lag by less than
twenty minutes, a run that acts at least once an hour and is not reset is allowed its cap of
actions and no more, however long it goes on and whatever the other threads do. -/
theorem cycle_cap (policy : ActionPolicy) {before cycle : List Turn} (prompt : Prompt lag (before ++ cycle))
    (short : 3 * lag < cycleTtl) (small : 2 * policy.maxActionsPerHour.toNat ≤ maxTrackedCycles)
    (unreset : ∀ turn ∈ cycle, turn.operation ≠ .resetCycle runId)
    (busy : Busy (acts runId ((limiter policy).trace ((limiter policy).after (limiter policy).init before) cycle))) :
    (acts runId ((limiter policy).trace ((limiter policy).after (limiter policy).init before) cycle)).length ≤
      policy.maxActionsPerCycle.toNat :=
  (counts policy prompt short small unreset busy).within_cap

theorem cycle_cap_morning :
    (acts "run-1" ((limiter ⟨false, 1, 3⟩).trace (limiter ⟨false, 1, 3⟩).init (morning second))).length ≤ 1 :=
  cycle_cap ⟨false, 1, 3⟩ (show Prompt second ([] ++ morning second) from prompt_morning (by decide)) (by decide)
    (by decide +kernel) (by decide +kernel) (by decide +kernel)

/-- From the last of these turns on, two limiters remember the same. -/
def Alike (turns : List Turn) (state other : ActionLimiter) : Prop :=
  ∀ now : ℤ, (∀ turn ∈ turns, turn.entered ≤ now) →
    fresh cycleTtl now state.recent = fresh cycleTtl now other.recent ∧ live now state.cycleCounts = live now other.cycleCounts

theorem live_live {now later : ℤ} (order : now ≤ later) (counts : Dict String (ℕ × Instant)) :
    live later (live now counts) = live later counts := by
  refine Dict.filter_filter_of_imp fun entry young => ?_
  simp only [decide_eq_true_eq] at young ⊢
  exact fun old => young (old.trans_le (Int.sub_le_sub_right order _))

/-- A live check looks at nothing but what it has pruned. -/
theorem check_prune {state other : ActionLimiter} {now : Instant} {kind : String} (wet : policy.dryRun = false)
    (same : state.prune now = other.prune now) : state.check policy now runId kind = other.check policy now runId kind := by
  have recent : (state.recent.filter fun time => now - time < cycleTtl) = other.recent.filter fun time => now - time < cycleTtl :=
    congrArg ActionLimiter.recent same
  have counts : evict now state.cycleCounts = evict now other.cycleCounts := congrArg ActionLimiter.cycleCounts same
  unfold check
  simp only [wet, Bool.false_eq_true, if_false, recent, counts]

theorem Prompt.sublist {turns fewer : List Turn} (prompt : Prompt lag turns) (sub : fewer.Sublist turns) : Prompt lag fewer :=
  ⟨prompt.ordered.sublist sub, fun turn member => prompt.lagged turn (sub.subset member)⟩

section Inert
variable {turns : List Turn} {turn : Turn} {state other : ActionLimiter}

theorem Alike.later (alike : Alike turns state other) : Alike (turns ++ [turn]) state other :=
  fun now reached => alike now fun earlier member => reached earlier (List.mem_append_left _ member)

theorem Alike.reset (alike : Alike turns state other) (runId : String) :
    Alike turns (state.resetCycle runId) (other.resetCycle runId) := by
  intro now reached
  obtain ⟨recent, counts⟩ := alike now reached
  refine ⟨recent, ?_⟩
  change (state.cycleCounts.erase runId).filter _ = (other.cycleCounts.erase runId).filter _
  rw [Dict.filter_erase, Dict.filter_erase]
  exact congrArg (Dict.erase · runId) counts

/-- Pruning by a reading of that moment is no difference. -/
theorem Alike.prune (alike : Alike turns state other) {now : ℤ} (aged : evict now state.cycleCounts = live now state.cycleCounts)
    (read : now = turn.entered) : Alike (turns ++ [turn]) (state.prune now) other := by
  intro later reached
  obtain ⟨recent, counts⟩ := alike later fun earlier member => reached earlier (List.mem_append_left _ member)
  have order : now ≤ later := read ▸ reached turn (by simp)
  refine ⟨(fresh_fresh order _).trans recent, ?_⟩
  change live later (evict now state.cycleCounts) = _
  rw [aged, live_live order]
  exact counts

/-- Both answer the next turn alike, and stay alike. -/
theorem Alike.step (alike : Alike turns state other) (aged : ∀ now, evict now state.cycleCounts = live now state.cycleCounts)
    (agedToo : ∀ now, evict now other.cycleCounts = live now other.cycleCounts)
    (ordered : ∀ earlier ∈ turns, earlier.entered ≤ turn.entered)
    (read : ∀ now run kind, turn.operation = .check now run kind → now = turn.entered) :
    ((limiter policy).step state turn).1 = ((limiter policy).step other turn).1 ∧
      Alike (turns ++ [turn]) ((limiter policy).step state turn).2 ((limiter policy).step other turn).2 := by
  obtain ⟨entered, ⟨now, run, kind⟩ | run⟩ := turn
  · obtain rfl : now = entered := read now run kind rfl
    change some (state.check policy now run kind).1 = some (other.check policy now run kind).1 ∧
      Alike _ (state.check policy now run kind).2 (other.check policy now run kind).2
    cases dry : policy.dryRun with
    | true =>
      have idle : ∀ limiter : ActionLimiter, limiter.check policy now run kind =
          (⟨false, "dry-run enabled; " ++ kind ++ " suppressed"⟩, limiter) := fun _ => if_pos dry
      rw [idle, idle]
      exact ⟨rfl, alike.later⟩
    | false =>
      have same : state.prune now = other.prune now := by
        obtain ⟨recent, counts⟩ := alike now ordered
        unfold ActionLimiter.prune
        rw [recent, aged, agedToo, counts]
      rw [check_prune dry same]
      exact ⟨rfl, fun _ _ => ⟨rfl, rfl⟩⟩
  · exact ⟨rfl, (alike.reset run).later⟩

/-- A refused check leaves its limiter like one that was never asked. -/
theorem Alike.refused (alike : Alike turns state other) (aged : ∀ now, evict now state.cycleCounts = live now state.cycleCounts)
    (read : ∀ now run kind, turn.operation = .check now run kind → now = turn.entered)
    (answer : ((limiter policy).step state turn).1.map Verdict.allowed = some false) :
    Alike (turns ++ [turn]) ((limiter policy).step state turn).2 other := by
  have turned := turn_cases policy state turn
  generalize (limiter policy).step state turn = result at *
  generalize arrival? (turn, result.1) = seen at *
  cases turned with
  | @check entered now run kind result checks =>
    have prompt : now = entered := read now run kind rfl
    cases checks with
    | suppressed => exact alike.later
    | refused => exact alike.prune (aged now) prompt
    | allowed => cases answer
  | reset => cases answer

/-- Refused checks are inert: leaving any of them out changes no other answer, neither now
nor later, provided the readings come in order and the hourly cap keeps the table below
half its ceiling. -/
theorem refused_inert (policy : ActionPolicy) (prompt : Prompt 0 turns)
    (small : 2 * policy.maxActionsPerHour.toNat ≤ maxTrackedCycles) {fewer : List (Turn × Option Verdict)}
    (thinned : Thinned (fun entry => entry.2.map Verdict.allowed = some false)
      ((limiter policy).trace (limiter policy).init turns) fewer) :
    (limiter policy).trace (limiter policy).init (fewer.map Prod.fst) = fewer := by
  suffices both : _ ∧ Alike turns ((limiter policy).after (limiter policy).init turns)
      ((limiter policy).after (limiter policy).init (fewer.map Prod.fst)) from both.1
  induction turns using List.reverseRecOn generalizing fewer with
  | nil =>
    obtain rfl : fewer = [] := List.sublist_nil.mp thinned.sublist
    exact ⟨rfl, fun _ _ => ⟨rfl, rfl⟩⟩
  | append_singleton turns turn ih =>
    have short : 3 * (0 : ℤ) < cycleTtl := by simp [cycleTtl, second]
    have aged := evict_of_small prompt.init short small
    have ordered : ∀ earlier ∈ turns, earlier.entered ≤ turn.entered := fun earlier member =>
      (List.pairwise_append.mp prompt.ordered).2.2 earlier member turn (List.mem_singleton.mpr rfl)
    have read : ∀ now run kind, turn.operation = .check now run kind → now = turn.entered := by
      intro now run kind taken
      obtain ⟨past, close⟩ := prompt.lagged turn (by simp) now run kind taken
      exact le_antisymm past (by simpa using close)
    rw [Machine.trace_concat] at thinned
    rw [Machine.after_concat]
    rcases thinned.concat_cases with ⟨few, rfl, rest⟩ | ⟨answer, rest⟩
    · obtain ⟨same, alike⟩ := ih prompt.init rest
      have sub : List.Sublist (few.map Prod.fst) turns := by
        have kept := rest.sublist.map Prod.fst
        rwa [Machine.trace_inputs] at kept
      have agedToo := evict_of_small (prompt.init.sublist sub) short small
      obtain ⟨answered, still⟩ : ((limiter policy).step _ turn).1 = ((limiter policy).step _ turn).1 ∧ _ :=
        alike.step aged agedToo ordered read
      rw [List.map_append, List.map_singleton, Machine.trace_concat, Machine.after_concat, same, ← answered]
      exact ⟨rfl, still⟩
    · obtain ⟨same, alike⟩ := ih prompt.init rest
      exact ⟨same, alike.refused aged read answer⟩

theorem refused_inert_morning :
    let history := (limiter ⟨false, 1, 3⟩).trace (limiter ⟨false, 1, 3⟩).init (morning 0)
    (limiter ⟨false, 1, 3⟩).trace (limiter ⟨false, 1, 3⟩).init
        ((history.filter fun entry => entry.2.map Verdict.allowed ≠ some false).map Prod.fst) =
      history.filter fun entry => entry.2.map Verdict.allowed ≠ some false :=
  refused_inert ⟨false, 1, 3⟩ (prompt_morning le_rfl) (by decide +kernel)
    (Thinned.filter _ fun _ _ left => not_not.mp (of_decide_eq_false left))

end Inert
end NearRewards.Agent
