import NearRewards.Library.Machine
import NearRewards.Values

/-! The agent's memory of its runs. A run is a document; findings, actions and guardrail
decisions are appended to it by whatever thread is at work on the run. -/

namespace NearRewards.Agent

/-- What `mutate` is given: the document it makes of one, or nothing to leave it untouched. -/
abbrev Mutator := Doc → Except Exception (Option Doc)

/-- `_InMemoryBackend`: every method has the backend's lock from its first line to its last. -/
abbrev InMemoryBackend := Dict String Doc

namespace InMemoryBackend

def set (runId : String) (doc : Doc) (runs : InMemoryBackend) : InMemoryBackend := runs.insert runId doc

/-- An empty document reads as none. -/
def get (runId : String) (runs : InMemoryBackend) : Option Doc :=
  match runs.get? runId with
  | some doc => if doc.size = 0 then none else some doc
  | none => none

def mutate (runId : String) (mutator : Mutator) (runs : InMemoryBackend) : Except Exception (Option Doc) × InMemoryBackend :=
  match runs.get? runId with
  | none => (.ok none, runs)
  | some doc =>
    match mutator doc with
    | .error raised => (.error raised, runs)
    | .ok none => (.ok none, runs)
    | .ok (some updated) => (.ok (some updated), runs.insert runId updated)

end InMemoryBackend

/-- What is done with the store. The clock readings, as they are stored, and the id of a new
run are part of it. -/
inductive RunCall where
  | startRun (runId now : String) (trigger : Doc) (status : String)
  | get (runId : String)
  | update (runId : String) (fields : List (String × Value)) (now : String)
  | setData (runId key : String) (value : Value) (now : String)
  | append (runId key : String) (item : Value) (now : String)

namespace RunCall

def setStatus (runId status : String) (fields : List (String × Value)) (now : String) : RunCall :=
  .update runId (("status", .str status) :: fields) now

/-- The decision carries a reading of its own, taken before the run's. -/
def recordGuardrail (runId name outcome detail read now : String) : RunCall :=
  .append runId "guardrails"
    (.dict [("name", .str name), ("outcome", .str outcome), ("detail", .str detail), ("at", .str read)]) now

def fail (runId error now : String) : RunCall := .update runId [("status", .str "error"), ("error", .str error)] now

end RunCall

/-- What `start_run` sets. -/
def newRun (runId now : String) (trigger : Doc) (status : String) : Doc :=
  Dict.ofList [("run_id", .str runId), ("status", .str status), ("started_at", .str now), ("updated_at", .str now),
    ("trigger", .dict trigger.entries), ("guardrails", .list []), ("signature", .none), ("recurrence", .none),
    ("error", .none), ("data", .dict [])]

/-- The `_apply` of `update`. -/
def applyUpdate (fields : List (String × Value)) (now : String) : Mutator := fun doc =>
  let doc := fields.foldl (fun doc field => doc.insert field.1 field.2) doc
  .ok (some (doc.insert "updated_at" (.str now)))

/-- The `_apply` of `set_data`. -/
def applySetData (key : String) (value : Value) (now : String) : Mutator := fun doc => do
  let data ← ((Doc.get doc "data").or (.dict [])).toDict
  let data := data.insert key value
  let doc := doc.insert "data" (.dict data.entries)
  return some (doc.insert "updated_at" (.str now))

/-- The `_apply` of `append`. -/
def applyAppend (key : String) (item : Value) (now : String) : Mutator := fun doc => do
  let lst ← ((Doc.get doc key).or (.list [])).toList
  let doc := doc.insert key (.list (lst ++ [item]))
  return some (doc.insert "updated_at" (.str now))

/-- The run an operation mutates, and how. -/
def RunCall.mutation? : RunCall → Option (String × Mutator)
  | .startRun _ _ _ _ => none
  | .get _ => none
  | .update runId fields now => some (runId, applyUpdate fields now)
  | .setData runId key value now => some (runId, applySetData key value now)
  | .append runId key item now => some (runId, applyAppend key item now)

/-- What an operation returns, if it does not raise. -/
inductive Returned where
  | runId (runId : String)
  | doc (doc : Option Doc)
  | nothing

abbrev Answer := Except Exception Returned

/-- A mutation returns nothing, whatever the backend has returned. -/
def mutated (result : Except Exception (Option Doc)) : Answer := result.map fun _ => .nothing

/-- `StateStore` over a backend that mutates by itself. -/
def transact (runs : InMemoryBackend) : RunCall → Answer × InMemoryBackend
  | .startRun runId now trigger status => (.ok (.runId runId), runs.set runId (newRun runId now trigger status))
  | .get runId => (.ok (.doc (runs.get runId)), runs)
  | .update runId fields now =>
    let (result, runs) := runs.mutate runId (applyUpdate fields now)
    (mutated result, runs)
  | .setData runId key value now =>
    let (result, runs) := runs.mutate runId (applySetData key value now)
    (mutated result, runs)
  | .append runId key item now =>
    let (result, runs) := runs.mutate runId (applyAppend key item now)
    (mutated result, runs)

def store : Machine InMemoryBackend RunCall Answer where
  init := ∅
  step := transact

/-- The first half of `_mutate` over a backend without `mutate`, under the fallback lock: the
document is read, and either there is nothing to write or this is what to write. -/
def loadMutation (runs : InMemoryBackend) (operation : RunCall) : Answer ⊕ (String × Doc) :=
  match operation.mutation? with
  | none => .inl (.ok .nothing)
  | some (runId, mutator) =>
    match runs.get runId with
    | none => .inl (.ok .nothing)
    | some doc =>
      match mutator doc with
      | .error raised => .inl (.error raised)
      | .ok none => .inl (.ok .nothing)
      | .ok (some updated) => .inr (runId, updated)

/-- The second half. -/
def storeMutation (runs : InMemoryBackend) (written : String × Doc) : Answer × InMemoryBackend :=
  (.ok .nothing, runs.set written.1 written.2)

end NearRewards.Agent
