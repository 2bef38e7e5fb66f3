import NearRewards.Guardrails
import NearRewards.Library.SlidingWindow

/-! What the limiter holds the agent to, whichever way the turns of its threads fall: so many
actions in an hour, so many in a cycle, and a table of cycles that stays small. -/

namespace NearRewards.Agent
open SlidingWindow

/-- A check as the window sees it. -/
def arrival? : Turn × Option Verdict → Option (Arrival String)
  | (⟨entered, .check now runId _⟩, some verdict) => some ⟨runId, entered, now, verdict.allowed⟩
  | _ => none

theorem arrival?_entered {turn : Turn} {answer : Option Verdict} {arrival : Arrival String}
    (seen : arrival? (turn, answer) = some arrival) : arrival.entered = turn.entered := by
  obtain ⟨entered, _ | _⟩ := turn <;> cases answer <;> cases seen
  rfl

def arrivals (history : List (Turn × Option Verdict)) : List (Arrival String) := history.filterMap arrival?

/-- Turns are taken in order, and a check's reading lags behind its turn by at most `lag`. -/
structure Prompt (lag : ℤ) (turns : List Turn) : Prop where
  ordered : turns.Pairwise fun first second => first.entered ≤ second.entered
  lagged : ∀ turn ∈ turns, ∀ now runId kind, turn.operation = .check now runId kind →
    now ≤ turn.entered ∧ turn.entered ≤ now + lag

namespace ActionLimiter
variable {policy : ActionPolicy} {now : Instant} {runId kind : String} {limiter : ActionLimiter}

/-- The counters that are not too old yet. -/
def live (now : Instant) (counts : Dict String (ℕ × Instant)) : Dict String (ℕ × Instant) :=
  counts.filter fun entry => ¬now - entry.2.2 > cycleTtl

theorem evict_eq (now : Instant) (counts : Dict String (ℕ × Instant)) :
    evict now counts =
      if (live now counts).size - maxTrackedCycles > 0 then
        (oldest (live now counts) ((live now counts).size - maxTrackedCycles)).foldl (fun counts entry => counts.erase entry.1)
          (live now counts)
      else live now counts := rfl

/-- While the table is not over its ceiling, only old counters go. -/
theorem evict_live {counts : Dict String (ℕ × Instant)} (few : (live now counts).size ≤ maxTrackedCycles) :
    evict now counts = live now counts := by
  rw [evict_eq, if_neg]
  omega

theorem get?_live {counts : Dict String (ℕ × Instant)} {count : ℕ} {seen : Instant} :
    (live now counts).get? runId = some (count, seen) ↔ counts.get? runId = some (count, seen) ∧ now - seen ≤ cycleTtl := by
  unfold live
  rw [Dict.get?_filter]
  simp

theorem get?_evict {counts : Dict String (ℕ × Instant)} {count : ℕ} {seen : Instant}
    (found : (evict now counts).get? runId = some (count, seen)) :
    counts.get? runId = some (count, seen) ∧ now - seen ≤ cycleTtl := by
  rw [evict_eq] at found
  split at found
  · rw [Dict.get?_eq_some, Dict.entries_foldl_erase] at found
    exact get?_live.mp (Dict.get?_eq_some.mpr (List.mem_filter.mp found).1)
  · exact get?_live.mp found

theorem size_evict (now : Instant) (counts : Dict String (ℕ × Instant)) : (evict now counts).size ≤ maxTrackedCycles := by
  rw [evict_eq]
  split
  next many =>
    set surplus := (live now counts).size - maxTrackedCycles
    -- sorted by age, the surplus comes first and is all that goes
    have sorted := List.perm_insertionSort (fun first second : String × ℕ × Instant => first.2.2 ≤ second.2.2)
      (live now counts).entries
    have length := sorted.length_eq
    rw [Dict.size, Dict.entries_foldl_erase, ← (sorted.filter _).length_eq,
      ← List.take_append_drop surplus (List.insertionSort _ _), List.filter_append, List.length_append]
    have gone : (List.take surplus (List.insertionSort (fun first second : String × ℕ × Instant => first.2.2 ≤ second.2.2)
        (live now counts).entries)).filter (fun entry => entry.1 ∉ (oldest (live now counts) surplus).map Prod.fst) = [] := by
      rw [List.filter_eq_nil_iff]
      intro entry member
      have erased : entry.1 ∈ (oldest (live now counts) surplus).map Prod.fst := List.mem_map_of_mem member
      simp [erased]
    rw [gone]
    refine (Nat.zero_add _).trans_le ((List.length_filter_le _ _).trans ?_)
    rw [List.length_drop, length]
    change (live now counts).size - surplus ≤ _
    omega
  next => omega

-- unfolding it in a unification counts the table's ceiling down
attribute [local irreducible] evict

/-- What a check forgets before it looks. -/
def prune (now : Instant) (limiter : ActionLimiter) : ActionLimiter :=
  ⟨fresh cycleTtl now limiter.recent, evict now limiter.cycleCounts⟩

/-- How often the run has acted, as far as its counter remembers. -/
def used (limiter : ActionLimiter) (runId : String) : ℕ := ((limiter.cycleCounts.get? runId).map Prod.fst).getD 0

def grant (now : Instant) (runId : String) (limiter : ActionLimiter) : ActionLimiter :=
  ⟨limiter.recent ++ [now], limiter.cycleCounts.insert runId (limiter.used runId + 1, now)⟩

/-- A check is suppressed, refused after pruning, or allowed and counted. -/
inductive Checks (policy : ActionPolicy) (now : Instant) (runId : String) (limiter : ActionLimiter) :
    Verdict × ActionLimiter → Prop where
  | suppressed {reason} (dry : policy.dryRun = true) : Checks policy now runId limiter (⟨false, reason⟩, limiter)
  | refused {reason} (live : policy.dryRun = false)
      (spent : ((limiter.prune now).recent.length : ℤ) ≥ policy.maxActionsPerHour ∨
        ((limiter.prune now).used runId : ℤ) ≥ policy.maxActionsPerCycle) :
      Checks policy now runId limiter (⟨false, reason⟩, limiter.prune now)
  | allowed {reason} (live : policy.dryRun = false) (hourly : ((limiter.prune now).recent.length : ℤ) < policy.maxActionsPerHour)
      (cycle : ((limiter.prune now).used runId : ℤ) < policy.maxActionsPerCycle) :
      Checks policy now runId limiter (⟨true, reason⟩, (limiter.prune now).grant now runId)

theorem check_checks (policy : ActionPolicy) (now : Instant) (runId kind : String) (limiter : ActionLimiter) :
    Checks policy now runId limiter (limiter.check policy now runId kind) := by
  have count : (((limiter.prune now).cycleCounts.get? runId).getD (0, now)).1 = (limiter.prune now).used runId := by
    unfold used
    cases (limiter.prune now).cycleCounts.get? runId <;> rfl
  have recent : limiter.recent.filter (fun time => now - time < cycleTtl) = (limiter.prune now).recent := rfl
  have counts : evict now limiter.cycleCounts = (limiter.prune now).cycleCounts := rfl
  unfold check
  dsimp only
  rw [recent, counts, count]
  split_ifs with dry hourly cycle
  · exact .suppressed dry
  · exact .refused (by simpa using dry) (Or.inl hourly)
  · exact .refused (by simpa using dry) (Or.inr cycle)
  · exact .allowed (by simpa using dry) (by omega) (by omega)

end ActionLimiter

section Runs
open ActionLimiter
attribute [local irreducible] ActionLimiter.evict
variable {policy : ActionPolicy} {lag : ℤ} {history : List (Turn × Option Verdict)} {state : ActionLimiter}

theorem arrivals_concat (history : List (Turn × Option Verdict)) (turn : Turn) (answer : Option Verdict) :
    arrivals (history ++ [(turn, answer)]) = arrivals history ++ (arrival? (turn, answer)).toList := by
  rw [arrivals, List.filterMap_append, List.filterMap_cons, List.filterMap_nil]
  cases arrival? (turn, answer) <;> rfl

/-- What a turn does, and how the window sees it. -/
inductive Turns (policy : ActionPolicy) (state : ActionLimiter) : Turn → Option Verdict × ActionLimiter → Option (Arrival String) → Prop where
  | check {entered now runId kind result} (checks : Checks policy now runId state result) :
      Turns policy state ⟨entered, .check now runId kind⟩ (some result.1, result.2)
        (some ⟨runId, entered, now, result.1.allowed⟩)
  | reset {entered runId} : Turns policy state ⟨entered, .resetCycle runId⟩ (none, state.resetCycle runId) none

theorem turn_cases (policy : ActionPolicy) (state : ActionLimiter) (turn : Turn) :
    Turns policy state turn ((limiter policy).step state turn) (arrival? (turn, ((limiter policy).step state turn).1)) := by
  obtain ⟨entered, operation⟩ := turn
  cases operation with
  | check now runId kind => exact .check (check_checks policy now runId kind state)
  | resetCycle runId => exact .reset

/-- What the limiter remembers of the turns so far: the marks of the window, and for every
counted run an action that was allowed. -/
structure Remembers (policy : ActionPolicy) (history : List (Turn × Option Verdict)) (state : ActionLimiter) : Prop where
  recent : state.recent = kept cycleTtl (arrivals history)
  capped : Capped cycleTtl policy.maxActionsPerHour.toNat (arrivals history)
  counted : ∀ runId count seen, state.cycleCounts.get? runId = some (count, seen) →
    ∃ arrival ∈ arrivals history, arrival.source = runId ∧ arrival.read = seen ∧ arrival.admitted = true
  idle : policy.dryRun = true → state.recent = [] ∧ ∀ arrival ∈ arrivals history, arrival.admitted = false

theorem Remembers.step (remembers : Remembers policy history state) (turn : Turn) :
    Remembers policy (history ++ [(turn, ((limiter policy).step state turn).1)]) ((limiter policy).step state turn).2 := by
  have turned := turn_cases policy state turn
  have grown := arrivals_concat history turn ((limiter policy).step state turn).1
  generalize (limiter policy).step state turn = result at turned grown ⊢
  generalize arrival? (turn, result.1) = seen at turned grown
  cases turned with
  | @check entered now runId kind result checks =>
    have kept_ : kept cycleTtl (arrivals (history ++ [(⟨entered, .check now runId kind⟩, some result.1)])) =
        SlidingWindow.turn cycleTtl state.recent ⟨runId, entered, now, result.1.allowed⟩ := by
      rw [grown, Option.toList_some, kept_concat, ← remembers.recent]
    have free : result.1.allowed = true → (fresh cycleTtl now state.recent).length < policy.maxActionsPerHour.toNat := by
      intro allowed
      cases checks with
      | suppressed => cases allowed
      | refused => cases allowed
      | allowed live hourly cycle =>
        change ((fresh cycleTtl now state.recent).length : ℤ) < _ at hourly
        omega
    have earlier : ∀ id count seen, (state.prune now).cycleCounts.get? id = some (count, seen) →
        ∃ arrival ∈ arrivals (history ++ [(⟨entered, .check now runId kind⟩, some result.1)]),
          arrival.source = id ∧ arrival.read = seen ∧ arrival.admitted = true := by
      intro id count seen found
      obtain ⟨arrival, member, facts⟩ := remembers.counted id count seen (get?_evict found).1
      exact ⟨arrival, grown ▸ List.mem_append_left _ member, facts⟩
    have capped : Capped cycleTtl policy.maxActionsPerHour.toNat
        (arrivals (history ++ [(⟨entered, .check now runId kind⟩, some result.1)])) := by
      rw [grown]
      refine capped_concat remembers.capped fun allowed => ?_
      rw [← remembers.recent]
      exact free allowed
    cases checks with
    | suppressed dry =>
      obtain ⟨nothing, silent⟩ := remembers.idle dry
      refine ⟨?_, capped, ?_, fun _ => ⟨nothing, ?_⟩⟩
      · rw [kept_, nothing]
        rfl
      · intro id count seen found
        obtain ⟨arrival, member, facts⟩ := remembers.counted id count seen found
        exact ⟨arrival, grown ▸ List.mem_append_left _ member, facts⟩
      · rw [grown]
        intro arrival member
        rcases List.mem_append.mp member with before | now
        · exact silent arrival before
        · cases List.mem_singleton.mp now
          rfl
    | refused live =>
      refine ⟨kept_.symm, capped, earlier, fun dry => ?_⟩
      cases dry.symm.trans live
    | allowed live =>
      refine ⟨kept_.symm, capped, ?_, fun dry => ?_⟩
      · intro id count seen found
        rw [grant, Dict.get?_insert] at found
        split at found
        next same =>
          cases found
          exact ⟨_, grown ▸ List.mem_append_right _ List.mem_cons_self, same.symm, rfl, rfl⟩
        next => exact earlier id count seen found
      · cases dry.symm.trans live
  | @reset entered runId =>
    rw [Option.toList_none, List.append_nil] at grown
    refine ⟨?_, ?_, ?_, ?_⟩
    all_goals rw [grown]
    · exact remembers.recent
    · exact remembers.capped
    · intro id count seen found
      rw [resetCycle, Dict.get?_erase] at found
      split at found
      next => cases found
      next => exact remembers.counted id count seen found
    · exact remembers.idle

theorem remembers (policy : ActionPolicy) (turns : List Turn) :
    Remembers policy ((limiter policy).trace (limiter policy).init turns) ((limiter policy).after (limiter policy).init turns) :=
  (limiter policy).history_invariant (P := Remembers policy)
    { recent := rfl
      capped := fun _ _ _ split => by simp [arrivals] at split
      counted := fun _ _ _ found => by cases found
      idle := fun _ => ⟨rfl, fun _ member => by cases member⟩ }
    (fun _ _ turn remembers => remembers.step turn) turns

theorem Prompt.init {turns : List Turn} {turn : Turn} (prompt : Prompt lag (turns ++ [turn])) : Prompt lag turns :=
  ⟨(List.pairwise_append.mp prompt.ordered).1, fun earlier member => prompt.lagged earlier (List.mem_append_left _ member)⟩

theorem Prompt.punctual {turns : List Turn} (prompt : Prompt lag turns) (state : ActionLimiter) :
    Punctual lag (arrivals ((limiter policy).trace state turns)) := by
  have inputs := (limiter policy).trace_inputs state turns
  refine ⟨?_, ?_⟩
  · have ordered := prompt.ordered
    rw [← inputs, List.pairwise_map] at ordered
    refine ordered.filterMap arrival? ?_
    rintro ⟨⟨first, _ | _⟩, _ | _⟩ ⟨⟨second, _ | _⟩, _ | _⟩ order _ ⟨⟩ _ ⟨⟩
    exact order
  · intro arrival member
    obtain ⟨⟨⟨entered, operation⟩, answer⟩, traced, seen⟩ := List.mem_filterMap.mp member
    have taken := List.mem_map_of_mem (f := Prod.fst) traced
    rw [inputs] at taken
    rcases operation with ⟨now, runId, kind⟩ | ⟨runId⟩ <;> rcases answer with _ | verdict <;> cases seen
    exact prompt.lagged _ taken now runId kind rfl

/-- However the turns of the threads fall, in no stretch of an hour less the lag of the clock
readings are more actions allowed than the hourly cap, and none at all on a dry run. -/
theorem hourly_cap (policy : ActionPolicy) {turns : List Turn} (prompt : Prompt lag turns) (start : Instant) :
    (within start (start + (cycleTtl - lag)) (arrivals ((limiter policy).trace (limiter policy).init turns))).length ≤
        policy.maxActionsPerHour.toNat ∧
      (policy.dryRun = true → ∀ stop, within start stop (arrivals ((limiter policy).trace (limiter policy).init turns)) = []) := by
  have remembered := remembers policy turns
  refine ⟨length_within_le (prompt.punctual _) remembered.capped start, fun dry stop => ?_⟩
  rw [within, List.filter_eq_nil_iff]
  intro arrival member admitted
  have refused := (remembered.idle dry).2 arrival member
  simp [refused] at admitted

/-- No counter is too old for a reading so far: an older one would have been dropped. -/
theorem counted_lately (policy : ActionPolicy) {turns : List Turn} (prompt : Prompt lag turns) (short : lag ≤ cycleTtl) :
    ∀ runId count seen, ((limiter policy).after (limiter policy).init turns).cycleCounts.get? runId = some (count, seen) →
      ∀ arrival ∈ arrivals ((limiter policy).trace (limiter policy).init turns), arrival.read - seen ≤ cycleTtl := by
  induction turns using List.reverseRecOn with
  | nil => exact fun _ _ _ found => by cases found
  | append_singleton turns turn ih =>
    have lately := ih prompt.init
    have remembered := remembers policy turns
    have punctual : Punctual lag (arrivals ((limiter policy).trace (limiter policy).init (turns ++ [turn]))) :=
      prompt.punctual _
    rw [Machine.trace_concat, Machine.after_concat] at *
    generalize (limiter policy).after (limiter policy).init turns = state at *
    generalize (limiter policy).trace (limiter policy).init turns = history at *
    have turned := turn_cases policy state turn
    rw [arrivals_concat] at punctual ⊢
    generalize (limiter policy).step state turn = result at *
    generalize arrival? (turn, result.1) = seen at *
    intro runId count mark found
    cases turned with
    | @check entered now run kind result checks =>
      have late := punctual.lagged _ (List.mem_append_right _ (List.mem_singleton.mpr rfl))
      -- what was counted before and survives is recent by the new reading too
      have survives : (evict now state.cycleCounts).get? runId = some (count, mark) →
          ∀ arrival ∈ arrivals history ++ [⟨run, entered, now, result.1.allowed⟩], arrival.read - mark ≤ cycleTtl := by
        intro found arrival member
        obtain ⟨before, young⟩ := get?_evict found
        rcases List.mem_append.mp member with earlier | new
        · exact lately runId count mark before arrival earlier
        · cases List.mem_singleton.mp new
          exact young
      cases checks with
      | suppressed dry =>
        obtain ⟨arrival, member, _, _, admitted⟩ := remembered.counted runId count mark found
        cases admitted.symm.trans ((remembered.idle dry).2 arrival member)
      | refused => exact survives found
      | allowed =>
        rw [grant, Dict.get?_insert] at found
        split at found
        next =>
          cases found
          intro arrival member
          rcases List.mem_append.mp member with earlier | new
          · have order := punctual.last arrival earlier
            have before := (punctual.lagged arrival member).1
            dsimp only at order late
            omega
          · cases List.mem_singleton.mp new
            simp [cycleTtl, second]
        next => exact survives found
    | reset =>
      rw [resetCycle, Dict.get?_erase] at found
      split at found
      next => cases found
      next =>
        rw [Option.toList_none, List.append_nil]
        exact lately runId count mark found

/-- Two checks of one run and a reset of another, and more than an hour later a third run's check. -/
def morning (lag : ℤ) : List Turn :=
  [⟨2 * second, .check (2 * second - lag) "run-1" "alert"⟩, ⟨3 * second, .check (3 * second - lag) "run-1" "ticket"⟩,
    ⟨3 * second, .resetCycle "run-2"⟩, ⟨3700 * second, .check (3700 * second - lag) "run-3" "alert"⟩]

theorem prompt_morning (forward : 0 ≤ lag) : Prompt lag (morning lag) := by
  refine ⟨?_, ?_⟩
  · simp [morning, second]
  · intro turn member now runId kind taken
    simp only [morning, List.mem_cons, List.not_mem_nil, or_false] at member
    rcases member with rfl | rfl | rfl | rfl <;> cases taken <;> exact ⟨Int.sub_le_self _ forward, (Int.sub_add_cancel _ _).ge⟩

theorem hourly_cap_morning :
    (within 0 (0 + (cycleTtl - second)) (arrivals ((limiter ⟨false, 2, 1⟩).trace (limiter ⟨false, 2, 1⟩).init (morning second)))).length ≤ 1 ∧
      within 0 (3700 * second) (arrivals ((limiter ⟨true, 2, 1⟩).trace (limiter ⟨true, 2, 1⟩).init (morning second))) = [] :=
  ⟨(hourly_cap ⟨false, 2, 1⟩ (prompt_morning (by decide)) 0).1,
    (hourly_cap ⟨true, 2, 1⟩ (prompt_morning (by decide)) 0).2 rfl (3700 * second)⟩

/-- Every counted run has acted within the last hour, so twice the hourly cap bounds their number. -/
theorem counted_runs_le (policy : ActionPolicy) {turns : List Turn} (prompt : Prompt lag turns) (short : 3 * lag < cycleTtl) :
    ((limiter policy).after (limiter policy).init turns).trackedCycles ≤ 2 * policy.maxActionsPerHour.toNat := by
  have remembered := remembers policy turns
  have punctual : Punctual lag (arrivals ((limiter policy).trace (limiter policy).init turns)) := prompt.punctual _
  have lately := counted_lately policy prompt
  generalize (limiter policy).after (limiter policy).init turns = state at *
  have capped := length_within_le punctual remembered.capped
  have counted := remembered.counted
  generalize arrivals ((limiter policy).trace (limiter policy).init turns) = seen at *
  rcases List.eq_nil_or_concat seen with rfl | ⟨before, last, rfl⟩
  · have nothing : state.cycleCounts.keys = [] := by
      apply List.eq_nil_iff_forall_not_mem.mpr
      intro runId member
      obtain ⟨⟨count, mark⟩, found⟩ := Dict.mem_keys.mp member
      obtain ⟨_, absent, _⟩ := counted runId count mark found
      cases absent
    have empty : state.trackedCycles = state.cycleCounts.keys.length := (List.length_map _).symm
    rw [empty, nothing]
    exact Nat.zero_le _
  · have final : last ∈ before.concat last := by simp
    have reading := punctual.lagged last final
    have reached : ∀ arrival ∈ before.concat last, arrival.entered ≤ last.entered := by
      intro arrival member
      rw [List.concat_eq_append] at member punctual
      rcases List.mem_append.mp member with earlier | new
      · exact punctual.last arrival earlier
      · cases List.mem_singleton.mp new
        exact le_refl _
    set span := cycleTtl - lag with spanned
    have sources : state.cycleCounts.keys ⊆
        (within (last.entered - span - span) last.entered (before.concat last)).map Arrival.source := by
      intro runId member
      obtain ⟨⟨count, mark⟩, found⟩ := Dict.mem_keys.mp member
      obtain ⟨arrival, present, rfl, rfl, admitted⟩ := counted runId count mark found
      have young := lately (by omega) _ count _ found last final
      have prior := punctual.lagged arrival present
      have order := reached arrival present
      refine List.mem_map_of_mem (List.mem_filter.mpr ⟨present, ?_⟩)
      rw [decide_eq_true_eq]
      exact ⟨admitted, by omega, order⟩
    have distinct := (List.subperm_of_subset state.cycleCounts.nodup sources).length_le
    have halves := length_within_add (last.entered - span - span) (last.entered - span) last.entered (before.concat last)
    have older := capped (last.entered - span - span)
    have newer := capped (last.entered - span)
    rw [Int.sub_add_cancel] at older newer
    rw [List.length_map, List.length_map] at distinct
    change state.cycleCounts.entries.length ≤ _
    omega

/-- The table never holds more than a cycle above its ceiling, however the turns fall, and
with readings that lag by less than twenty minutes never more than twice the hourly cap. -/
theorem tracked_cycles_le (policy : ActionPolicy) (turns : List Turn) :
    ((limiter policy).after (limiter policy).init turns).trackedCycles ≤ maxTrackedCycles + 1 ∧
      ∀ lag, Prompt lag turns → 3 * lag < cycleTtl →
        ((limiter policy).after (limiter policy).init turns).trackedCycles ≤ 2 * policy.maxActionsPerHour.toNat := by
  refine ⟨?_, fun lag prompt short => counted_runs_le policy prompt short⟩
  have reached : (limiter policy).Reachable ((limiter policy).after (limiter policy).init turns) := ⟨turns, rfl⟩
  refine reached.invariant (P := fun state => state.trackedCycles ≤ maxTrackedCycles + 1) (Nat.zero_le _) ?_
  intro state turn bounded
  have turned := turn_cases policy state turn
  generalize (limiter policy).step state turn = result at *
  generalize arrival? (turn, result.1) = seen at *
  cases turned with
  | check checks =>
    cases checks with
    | suppressed => exact bounded
    | refused => exact (size_evict _ _).trans (Nat.le_succ _)
    | allowed => exact (Dict.size_insert_le _ _).trans (Nat.succ_le_succ (size_evict _ _))
  | reset => exact (Dict.size_filter_le _).trans bounded

theorem tracked_cycles_le_morning :
    ((limiter ⟨false, 2, 3⟩).after (limiter ⟨false, 2, 3⟩).init (morning second)).trackedCycles ≤ 6 :=
  (tracked_cycles_le ⟨false, 2, 3⟩ (morning second)).2 second (prompt_morning (by decide)) (by decide)

end Runs
end NearRewards.Agent
