import Mathlib.Data.List.Sort
import NearRewards.Library.Dict
import NearRewards.Library.Machine

/-! The operator agent's limit on its outbound actions. One limiter serves every thread of
the process: a check reads the clock first and then takes its turn under the lock, so the
readings need not come in the order of the turns. -/

namespace NearRewards.Agent

/-- A clock reading, in units of 2⁻²² s: what a double resolves from 2004 to 2038. -/
abbrev Instant := ℤ

def second : ℤ := 4194304

structure ActionPolicy where
  dryRun : Bool
  maxActionsPerCycle : ℤ
  maxActionsPerHour : ℤ
  deriving DecidableEq, Repr

/-- What a check returns: whether the action is allowed, and why. -/
structure Verdict where
  allowed : Bool
  reason : String
  deriving DecidableEq, Repr

structure ActionLimiter where
  recent : List Instant := []
  /-- How often a run has acted, and when it last did. -/
  cycleCounts : Dict String (ℕ × Instant) := ∅

namespace ActionLimiter
variable (policy : ActionPolicy)

/-- `CYCLE_TTL_SECONDS`; the hourly window is as long. -/
def cycleTtl : ℤ := 3600 * second

/-- `MAX_TRACKED_CYCLES`. -/
def maxTrackedCycles : ℕ := 1024

/-- The counters of the runs that acted longest ago, `overflow` of them. -/
def oldest (counts : Dict String (ℕ × Instant)) (overflow : ℕ) : List (String × ℕ × Instant) :=
  (counts.entries.insertionSort fun first second => first.2.2 ≤ second.2.2).take overflow

/-- `_evict`. -/
def evict (now : Instant) (counts : Dict String (ℕ × Instant)) : Dict String (ℕ × Instant) :=
  let live := counts.filter fun (_, _, seen) => ¬now - seen > cycleTtl
  let overflow := live.size - maxTrackedCycles
  if overflow > 0 then (oldest live overflow).foldl (fun counts entry => counts.erase entry.1) live else live

def check (now : Instant) (runId kind : String) (limiter : ActionLimiter) : Verdict × ActionLimiter :=
  if policy.dryRun then
    (⟨false, "dry-run enabled; " ++ kind ++ " suppressed"⟩, limiter)
  else
    let recent := limiter.recent.filter fun time => now - time < cycleTtl
    let counts := evict now limiter.cycleCounts
    if recent.length ≥ policy.maxActionsPerHour then
      (⟨false, "hourly action cap reached (" ++ toString policy.maxActionsPerHour ++ "/h)"⟩, ⟨recent, counts⟩)
    else
      let used := ((counts.get? runId).getD (0, now)).1
      if used ≥ policy.maxActionsPerCycle then
        (⟨false, "per-cycle action cap reached (" ++ toString policy.maxActionsPerCycle ++ "/cycle)"⟩, ⟨recent, counts⟩)
      else
        (⟨true, "allowed (" ++ toString (used + 1) ++ "/" ++ toString policy.maxActionsPerCycle ++ " this cycle)"⟩,
          ⟨recent ++ [now], counts.insert runId (used + 1, now)⟩)

def trackedCycles (limiter : ActionLimiter) : ℕ := limiter.cycleCounts.size

def resetCycle (runId : String) (limiter : ActionLimiter) : ActionLimiter :=
  { limiter with cycleCounts := limiter.cycleCounts.erase runId }

end ActionLimiter

/-- What a thread does with the limiter. -/
inductive Operation where
  | check (now : Instant) (runId kind : String)
  | resetCycle (runId : String)
  deriving DecidableEq, Repr

/-- A thread's turn: when it gets the lock, and what it does there. -/
structure Turn where
  entered : Instant
  operation : Operation
  deriving DecidableEq, Repr

/-- The limiter under its lock, turn after turn. -/
def limiter (policy : ActionPolicy) : Machine ActionLimiter Turn (Option Verdict) where
  init := {}
  step state turn :=
    match turn.operation with
    | .check now runId kind =>
      let (verdict, state) := state.check policy now runId kind
      (some verdict, state)
    | .resetCycle runId => (none, state.resetCycle runId)

end NearRewards.Agent
