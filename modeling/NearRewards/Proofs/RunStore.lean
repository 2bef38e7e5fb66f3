import NearRewards.Library.Mutex
import NearRewards.RunStore

/-! Concurrent writers of the run documents. Over a backend that can only read and write,
mutations under the fallback lock are the backend's own atomic ones, and nothing that was
appended to a run is lost. -/

namespace NearRewards.Agent
open Mutex (share commits)

section Documents
variable {doc updated : Doc} {key : String}

/-- What `append` takes the list to be. -/
def Doc.items (doc : Doc) (key : String) : Except Exception (List Value) := ((Doc.get doc key).or (.list [])).toList

theorem Doc.get_insert (doc : Doc) (key other : String) (value : Value) :
    Doc.get (doc.insert key value) other = if other = key then value else Doc.get doc other := by
  unfold Doc.get
  rw [Dict.get?_insert]
  split <;> rfl

theorem Doc.items_insert_of_ne {other : String} (value : Value) (different : other ≠ key) :
    Doc.items (doc.insert key value) other = Doc.items doc other := by
  unfold Doc.items
  rw [Doc.get_insert, if_neg different]

theorem size_insert (doc : Doc) (key : String) (value : Value) : (doc.insert key value).size ≠ 0 :=
  Dict.size_ne_zero ((Dict.get?_insert key key value).trans (if_pos rfl))

theorem newRun_guardrails (runId now : String) (trigger : Doc) (status : String) :
    (newRun runId now trigger status).get? "guardrails" = some (.list []) := by
  rw [newRun, Dict.get?_ofList]
  simp [List.lookup_cons]

/-- A new run's list fields are empty. -/
theorem items_newRun (runId now : String) (trigger : Doc) (status : String) :
    Doc.items (newRun runId now trigger status) "guardrails" = .ok [] := by
  rw [Doc.items, Doc.get, newRun_guardrails]
  rfl

end Documents

/-- What one operation does. -/
inductive Transacts (runs : InMemoryBackend) : RunCall → Answer × InMemoryBackend → Prop where
  | start (runId now : String) (trigger : Doc) (status : String) :
      Transacts runs (.startRun runId now trigger status)
        (.ok (.runId runId), runs.insert runId (newRun runId now trigger status))
  | read (runId : String) : Transacts runs (.get runId) (.ok (.doc (runs.get runId)), runs)
  | absent {operation runId mutator} (mutates : operation.mutation? = some (runId, mutator))
      (missing : runs.get? runId = none) : Transacts runs operation (.ok .nothing, runs)
  | raised {operation runId mutator doc raised} (mutates : operation.mutation? = some (runId, mutator))
      (found : runs.get? runId = some doc) (ran : mutator doc = .error raised) :
      Transacts runs operation (.error raised, runs)
  | written {operation runId mutator doc updated} (mutates : operation.mutation? = some (runId, mutator))
      (found : runs.get? runId = some doc) (ran : mutator doc = .ok (some updated)) :
      Transacts runs operation (.ok .nothing, runs.insert runId updated)

section Mutations
variable {runs : InMemoryBackend} {operation : RunCall} {runId : String} {mutator : Mutator} {doc : Doc}

theorem transact_mutation (mutates : operation.mutation? = some (runId, mutator)) (runs : InMemoryBackend) :
    transact runs operation = (mutated (runs.mutate runId mutator).1, (runs.mutate runId mutator).2) := by
  cases operation <;> cases mutates <;> rfl

/-- A mutation that does not raise stamps the document it leaves. -/
theorem mutator_stamps {result : Option Doc} (mutates : operation.mutation? = some (runId, mutator))
    (ran : mutator doc = .ok result) : ∃ before : Doc, ∃ now, result = some (before.insert "updated_at" (.str now)) := by
  cases operation with
  | startRun _ _ _ _ => cases mutates
  | get _ => cases mutates
  | update _ fields now =>
    cases mutates
    cases ran
    exact ⟨_, now, rfl⟩
  | setData _ key value now =>
    cases mutates
    unfold applySetData at ran
    cases data : ((Doc.get doc "data").or (.dict [])).toDict with
    | error _ => rw [data] at ran; cases ran
    | ok _ =>
      rw [data] at ran
      cases ran
      exact ⟨_, now, rfl⟩
  | append _ key item now =>
    cases mutates
    unfold applyAppend at ran
    cases lst : ((Doc.get doc key).or (.list [])).toList with
    | error _ => rw [lst] at ran; cases ran
    | ok _ =>
      rw [lst] at ran
      cases ran
      exact ⟨_, now, rfl⟩

theorem transact_mutates (mutates : operation.mutation? = some (runId, mutator)) (runs : InMemoryBackend) :
    Transacts runs operation (transact runs operation) := by
  rw [transact_mutation mutates, InMemoryBackend.mutate]
  cases found : runs.get? runId with
  | none => exact .absent mutates found
  | some doc =>
    dsimp only
    cases ran : mutator doc with
    | error _ => exact .raised mutates found ran
    | ok result =>
      obtain ⟨_, _, rfl⟩ := mutator_stamps mutates ran
      exact .written mutates found ran

theorem transact_cases (runs : InMemoryBackend) (operation : RunCall) :
    Transacts runs operation (transact runs operation) := by
  cases operation with
  | startRun runId now trigger status => exact .start runId now trigger status
  | get runId => exact .read runId
  | update _ _ _ => exact transact_mutates rfl runs
  | setData _ _ _ _ => exact transact_mutates rfl runs
  | append _ _ _ _ => exact transact_mutates rfl runs

/-- No document is empty. -/
def Filled (runs : InMemoryBackend) : Prop := ∀ runId doc, runs.get? runId = some doc → doc.size ≠ 0

theorem Filled.insert (filled : Filled runs) (nonempty : doc.size ≠ 0) : Filled (runs.insert runId doc) := by
  intro other held found
  rw [Dict.get?_insert] at found
  split at found
  · cases found
    exact nonempty
  · exact filled other held found

theorem Filled.step (filled : Filled runs) (operation : RunCall) : Filled (transact runs operation).2 := by
  have done := transact_cases runs operation
  generalize transact runs operation = result at done
  cases done with
  | start runId now trigger status =>
    apply filled.insert
    exact Dict.size_ne_zero (newRun_guardrails runId now trigger status)
  | read _ => exact filled
  | absent _ _ => exact filled
  | raised _ _ _ => exact filled
  | written mutates found ran =>
    obtain ⟨_, _, same⟩ := mutator_stamps mutates ran
    cases same
    exact filled.insert (size_insert _ _ _)

theorem reachable_filled (reachable : store.Reachable runs) : Filled runs :=
  reachable.invariant (fun _ _ found => by cases found) fun _ operation filled => filled.step operation

/-- A stored document is what a read gives. -/
theorem Filled.get (filled : Filled runs) (runId : String) : runs.get runId = runs.get? runId := by
  unfold InMemoryBackend.get
  cases found : runs.get? runId with
  | none => rfl
  | some doc => exact if_neg (filled runId doc found)

/-- What the read of a mutation finds in a filled store. -/
theorem Filled.load (filled : Filled runs) (mutates : operation.mutation? = some (runId, mutator)) :
    loadMutation runs operation =
      match runs.get? runId with
      | none => .inl (.ok .nothing)
      | some doc =>
        match mutator doc with
        | .error raised => .inl (.error raised)
        | .ok none => .inl (.ok .nothing)
        | .ok (some updated) => .inr (runId, updated) := by
  rw [loadMutation, mutates]
  dsimp only
  exact filled.get runId ▸ rfl

end Mutations

/-- `StateStore` over a backend without `mutate`. -/
def fallback : Mutex.Guarded InMemoryBackend RunCall Answer (String × Doc) where
  machine := store
  guarded operation := operation.mutation?.isSome
  load := loadMutation
  store runs _ written := storeMutation runs written
  answers := by
    intro runs operation answer reachable locked loads
    obtain ⟨⟨runId, mutator⟩, mutates⟩ := Option.isSome_iff_exists.mp locked
    rw [(reachable_filled reachable).load mutates] at loads
    change transact runs operation = _
    rw [transact_mutation mutates, InMemoryBackend.mutate]
    cases found : runs.get? runId with
    | none =>
      rw [found] at loads
      cases loads
      rfl
    | some doc =>
      rw [found] at loads
      dsimp only at loads ⊢
      cases ran : mutator doc with
      | error raised =>
        rw [ran] at loads
        cases loads
        rfl
      | ok result =>
        rw [ran] at loads
        cases result <;> cases loads
        rfl
  writes := by
    intro runs operation written reachable locked loads
    obtain ⟨⟨runId, mutator⟩, mutates⟩ := Option.isSome_iff_exists.mp locked
    rw [(reachable_filled reachable).load mutates] at loads
    change transact runs operation = _
    rw [transact_mutation mutates, InMemoryBackend.mutate]
    cases found : runs.get? runId with
    | none => rw [found] at loads; cases loads
    | some doc =>
      rw [found] at loads
      dsimp only at loads ⊢
      cases ran : mutator doc with
      | error raised => rw [ran] at loads; cases loads
      | ok result =>
        rw [ran] at loads
        cases result <;> cases loads
        rfl

/-- A run is started under an id of its own. -/
def FreshStart (runs : InMemoryBackend) (operation : RunCall) : Prop :=
  ∀ runId now trigger status, operation = .startRun runId now trigger status → runs.get? runId = none

instance (runs : InMemoryBackend) : ∀ operation, Decidable (FreshStart runs operation)
  | .startRun runId now trigger status => decidable_of_iff (runs.get? runId = none)
      ⟨fun missing _ _ _ _ equal => by cases equal; exact missing, fun fresh => fresh runId now trigger status rfl⟩
  | .get _ | .update _ _ _ | .setData _ _ _ _ | .append _ _ _ _ => isTrue fun _ _ _ _ equal => by cases equal

/-- A run that is started touches no document another thread is about to write. -/
theorem fallback_undisturbed : Mutex.Undisturbed fallback FreshStart := by
  intro runs direct operation written unlocked fresh locked loads
  change loadMutation (transact runs direct).2 operation = _
  change loadMutation runs operation = _ at loads
  cases direct with
  | get _ => exact loads
  | update _ _ _ => cases unlocked
  | setData _ _ _ _ => cases unlocked
  | append _ _ _ _ => cases unlocked
  | startRun started now trigger status =>
    obtain ⟨⟨runId, mutator⟩, mutates⟩ := Option.isSome_iff_exists.mp locked
    have missing := fresh started now trigger status rfl
    -- what is loaded is there, and is therefore not the run that is started
    have other : runId ≠ started := by
      rintro rfl
      rw [loadMutation, mutates] at loads
      dsimp only at loads
      rw [InMemoryBackend.get, missing] at loads
      cases loads
    have stored : (transact runs (.startRun started now trigger status)).2.get? runId = runs.get? runId :=
      (Dict.get?_insert _ _ _).trans (if_neg other)
    have same : (transact runs (.startRun started now trigger status)).2.get runId = runs.get runId := by
      unfold InMemoryBackend.get
      rw [stored]
    rw [loadMutation, mutates] at loads ⊢
    dsimp only at loads ⊢
    rw [same]
    exact loads

section Trail
variable {runs : InMemoryBackend} {runId key : String} {doc : Doc}

/-- What an operation makes of the list of a run: nothing is appended before the run has started. -/
def trailStep (runId key : String) (trail : Option (List Value)) : RunCall → Option (List Value)
  | .startRun started _ _ _ => if started = runId then some [] else trail
  | .append target field item _ => if target = runId ∧ field = key then trail.map (· ++ [item]) else trail
  | _ => trail

/-- What has been appended to a list of a run since the run started. -/
def trail (runId key : String) (operations : List RunCall) : Option (List Value) :=
  operations.foldl (trailStep runId key) none

theorem trail_concat (runId key : String) (operations : List RunCall) (operation : RunCall) :
    trail runId key (operations ++ [operation]) = trailStep runId key (trail runId key operations) operation := by
  rw [trail, List.foldl_append]
  rfl

/-- A list the application appends to: no field of a new run but its guardrails. -/
def Appendable (key : String) : Prop :=
  key ∉ ["run_id", "status", "started_at", "updated_at", "trigger", "signature", "recurrence", "error", "data"]

instance (key : String) : Decidable (Appendable key) := inferInstanceAs (Decidable (key ∉ _))

/-- The operation does not overwrite the field. -/
def Spares (key : String) (operation : RunCall) : Prop :=
  ∀ runId fields now, operation = .update runId fields now → key ∉ fields.map Prod.fst

instance (key : String) : ∀ operation, Decidable (Spares key operation)
  | .update runId fields now => decidable_of_iff (key ∉ fields.map Prod.fst)
      ⟨fun spared _ _ _ equal => by cases equal; exact spared, fun spares => spares runId fields now rfl⟩
  | .startRun _ _ _ _ | .get _ | .setData _ _ _ _ | .append _ _ _ _ => isTrue fun _ _ _ equal => by cases equal

theorem Appendable.ne {other : String} (appendable : Appendable key)
    (reserved : other ∈ ["run_id", "status", "started_at", "updated_at", "trigger", "signature", "recurrence", "error", "data"]) :
    key ≠ other := by
  rintro rfl
  exact appendable reserved

theorem items_start (appendable : Appendable key) (runId now : String) (trigger : Doc) (status : String) :
    Doc.items (newRun runId now trigger status) key = .ok [] := by
  by_cases guardrails : key = "guardrails"
  · subst guardrails
    exact items_newRun runId now trigger status
  · have absent : (newRun runId now trigger status).get? key = none := by
      rw [newRun, Dict.get?_ofList, List.lookup_eq_none_iff]
      simp only [Appendable, List.mem_cons, List.not_mem_nil, or_false, not_or] at appendable
      simp [appendable, guardrails]
    rw [Doc.items, Doc.get, absent]
    rfl

theorem items_insert_list (doc : Doc) (key : String) (items : List Value) :
    Doc.items (doc.insert key (.list items)) key = .ok items := by
  rw [Doc.items, Doc.get_insert, if_pos rfl]
  cases items <;> rfl

theorem items_update {fields : List (String × Value)} (spared : key ∉ fields.map Prod.fst) (doc : Doc) :
    Doc.items (fields.foldl (fun doc field => doc.insert field.1 field.2) doc) key = Doc.items doc key := by
  induction fields generalizing doc with
  | nil => rfl
  | cons field fields ih =>
    rw [List.map_cons, List.mem_cons, not_or] at spared
    rw [List.foldl_cons, ih spared.2, Doc.items_insert_of_ne _ spared.1]

/-- A mutation that spares the list leaves it alone or appends to it. -/
theorem mutator_items {operation : RunCall} {target : String} {mutator : Mutator} {updated : Doc} {items : List Value}
    (appendable : Appendable key) (spares : Spares key operation) (mutates : operation.mutation? = some (target, mutator))
    (held : Doc.items doc key = .ok items) (ran : mutator doc = .ok (some updated)) :
    ∃ later, Doc.items updated key = .ok later ∧ trailStep target key (some items) operation = some later := by
  have stamp := appendable.ne (show "updated_at" ∈ _ by decide)
  cases operation with
  | startRun _ _ _ _ => cases mutates
  | get _ => cases mutates
  | update _ fields now =>
    cases mutates
    cases ran
    refine ⟨items, ?_, rfl⟩
    rw [Doc.items_insert_of_ne _ stamp, items_update (spares _ fields now rfl), held]
  | setData _ field value now =>
    cases mutates
    unfold applySetData at ran
    cases data : ((Doc.get doc "data").or (.dict [])).toDict with
    | error _ => rw [data] at ran; cases ran
    | ok _ =>
      rw [data] at ran
      cases ran
      refine ⟨items, ?_, rfl⟩
      rw [Doc.items_insert_of_ne _ stamp, Doc.items_insert_of_ne _ (appendable.ne (by decide)), held]
  | append _ field item now =>
    cases mutates
    unfold applyAppend at ran
    cases lst : ((Doc.get doc field).or (.list [])).toList with
    | error _ => rw [lst] at ran; cases ran
    | ok found =>
      rw [lst] at ran
      cases ran
      rw [Doc.items_insert_of_ne _ stamp]
      by_cases own : field = key
      · subst own
        cases lst.symm.trans held
        exact ⟨items ++ [item], items_insert_list _ _ _, if_pos ⟨rfl, rfl⟩⟩
      · refine ⟨items, ?_, if_neg fun both => own both.2⟩
        rw [Doc.items_insert_of_ne _ (Ne.symm own), held]

/-- What raises appends nothing: an append to a list does not raise. -/
theorem trailStep_raised {operation : RunCall} {target : String} {mutator : Mutator} {items : List Value}
    {raised : Exception} (mutates : operation.mutation? = some (target, mutator)) (held : Doc.items doc key = .ok items)
    (ran : mutator doc = .error raised) : trailStep target key (some items) operation = some items := by
  cases operation with
  | startRun _ _ _ _ => cases mutates
  | get _ => rfl
  | update _ _ _ => rfl
  | setData _ _ _ _ => rfl
  | append _ field item now =>
    cases mutates
    apply if_neg
    rintro ⟨_, rfl⟩
    unfold applyAppend at ran
    rw [show ((Doc.get doc field).or (.list [])).toList = .ok items from held] at ran
    cases ran

/-- The stored lists are what has been appended. -/
def Trails (key : String) (operations : List RunCall) (runs : InMemoryBackend) : Prop :=
  ∀ runId, match runs.get? runId with
    | none => trail runId key operations = none
    | some doc => ∃ items, trail runId key operations = some items ∧ Doc.items doc key = .ok items

theorem trailStep_other {operation : RunCall} {target : String} {mutator : Mutator}
    (mutates : operation.mutation? = some (target, mutator)) (other : runId ≠ target) (trail : Option (List Value)) :
    trailStep runId key trail operation = trail := by
  cases operation with
  | startRun _ _ _ _ => cases mutates
  | get _ => rfl
  | update _ _ _ => rfl
  | setData _ _ _ _ => rfl
  | append _ _ _ _ =>
    cases mutates
    exact if_neg fun both => other both.1.symm

theorem trailStep_none {operation : RunCall} {target : String} {mutator : Mutator}
    (mutates : operation.mutation? = some (target, mutator)) : trailStep runId key none operation = none := by
  cases operation with
  | startRun _ _ _ _ => cases mutates
  | get _ => rfl
  | update _ _ _ => rfl
  | setData _ _ _ _ => rfl
  | append _ _ _ _ => exact ite_self _

theorem Trails.step {operations : List RunCall} {operation : RunCall} (trails : Trails key operations runs)
    (appendable : Appendable key) (spares : Spares key operation) :
    Trails key (operations ++ [operation]) (transact runs operation).2 := by
  have done := transact_cases runs operation
  generalize transact runs operation = result at done
  intro runId
  have before := trails runId
  rw [trail_concat]
  cases done with
  | start started now trigger status =>
    dsimp only
    rw [Dict.get?_insert]
    by_cases own : runId = started
    · subst own
      rw [if_pos rfl]
      exact ⟨[], if_pos rfl, items_start appendable runId now trigger status⟩
    · rw [if_neg own, trailStep, if_neg (Ne.symm own)]
      exact before
  | read _ => exact before
  | @absent operation target mutator mutates missing =>
    dsimp only
    by_cases own : runId = target
    · subst own
      rw [missing] at before ⊢
      rw [before]
      exact trailStep_none mutates
    · rw [trailStep_other mutates own]
      exact before
  | @raised operation target mutator doc raised mutates found ran =>
    dsimp only
    by_cases own : runId = target
    · subst own
      rw [found] at before ⊢
      obtain ⟨items, told, held⟩ := before
      exact ⟨items, told ▸ trailStep_raised mutates held ran, held⟩
    · rw [trailStep_other mutates own]
      exact before
  | @written operation target mutator doc updated mutates found ran =>
    dsimp only
    rw [Dict.get?_insert]
    by_cases own : runId = target
    · subst own
      rw [found] at before
      obtain ⟨items, told, held⟩ := before
      rw [if_pos rfl, told]
      obtain ⟨later, holds, appended⟩ := mutator_items appendable spares mutates held ran
      exact ⟨later, appended, holds⟩
    · rw [if_neg own, trailStep_other mutates own]
      exact before

theorem trails_run {operations : List RunCall} (appendable : Appendable key)
    (spares : ∀ operation ∈ operations, Spares key operation) : Trails key operations (store.after store.init operations) := by
  induction operations using List.reverseRecOn with
  | nil => exact fun _ => rfl
  | append_singleton operations operation ih =>
    rw [Machine.after_concat]
    apply (ih fun earlier member => spares earlier (List.mem_append_left _ member)).step appendable
    exact spares operation (List.mem_append_right _ List.mem_cons_self)

end Trail

section Threads
variable {τ : Type*} [DecidableEq τ] {moves : List (Mutex.Move τ RunCall)} {key : String}

/-- The operations threads have carried out, and their answers, in the order of their effect. -/
def carriedOut (τ : Type*) [DecidableEq τ] (moves : List (Mutex.Move τ RunCall)) : List (RunCall × Answer) :=
  commits ((share τ fallback).answers (share τ fallback).init moves)

/-- Every run the threads start is new where it takes effect. -/
def FreshRuns (moves : List (Mutex.Move τ RunCall)) : Prop :=
  (share τ fallback).Along (Mutex.Calm fallback FreshStart) (share τ fallback).init moves

instance (moves : List (Mutex.Move τ RunCall)) : Decidable (FreshRuns moves) :=
  inferInstanceAs (Decidable (Machine.Along _ _ _ _))

/-- The fallback path is the atomic one. However the reads, writes and lock acquisitions of
any number of threads interleave, they have got the answers and left the documents that the
backend's own atomic mutations would give, in the order in which the writes took effect; and
each thread's calls have taken effect once each and in its own order. -/
theorem fallback_atomic (fresh : FreshRuns moves) :
    store.trace store.init ((carriedOut τ moves).map Prod.fst) = carriedOut τ moves ∧
      store.after store.init ((carriedOut τ moves).map Prod.fst) =
        ((share τ fallback).after (share τ fallback).init moves).shared ∧
      ∀ thread, Mutex.Orderly thread ((share τ fallback).answers (share τ fallback).init moves)
        (((share τ fallback).after (share τ fallback).init moves).place thread) := by
  obtain ⟨_, serial⟩ := Mutex.serial_run fallback_undisturbed fresh
  exact ⟨serial.trace, serial.after, Mutex.orderly_run fallback moves⟩

/-- Two threads write to one run: one has read it when the other wants the lock. -/
def auditMoves : List (Mutex.Move Bool RunCall) :=
  [.call true (.startRun "run-1" "09:00" ∅ "started"), .go true, .go true,
    .call true (.recordGuardrail "run-1" "ACTION_LIMITER" "allowed" "alert" "09:01" "09:01"),
    .call false (.recordGuardrail "run-1" "ACTION_LIMITER" "blocked" "ticket" "09:01" "09:02"),
    .go true, .go true, .go false, .go true, .go true, .go false, .go true, .go false, .go false, .go false, .go false]

theorem fallback_atomic_audit :
    store.after store.init ((carriedOut Bool auditMoves).map Prod.fst) =
      ((share Bool fallback).after (share Bool fallback).init auditMoves).shared :=
  (fallback_atomic (show FreshRuns auditMoves from by decide +kernel)).2.1

/-- Concurrent writers do not lose writes. Whatever the interleaving, a list of a run holds
exactly what the threads have appended to it since the run was started, in the order in which
the appends took effect, as long as no update overwrites the list. -/
theorem no_lost_appends (fresh : FreshRuns moves) (appendable : Appendable key)
    (spares : ∀ entry ∈ carriedOut τ moves, Spares key entry.1) (runId : String) :
    match ((share τ fallback).after (share τ fallback).init moves).shared.get? runId with
    | none => trail runId key ((carriedOut τ moves).map Prod.fst) = none
    | some doc => ∃ items, trail runId key ((carriedOut τ moves).map Prod.fst) = some items ∧
        Doc.items doc key = .ok items := by
  obtain ⟨_, serial⟩ := Mutex.serial_run fallback_undisturbed fresh
  have same := serial.after
  rw [← same]
  apply trails_run appendable
  intro operation member
  obtain ⟨entry, found, rfl⟩ := List.mem_map.mp member
  exact spares entry found

theorem no_lost_appends_audit :
    match ((share Bool fallback).after (share Bool fallback).init auditMoves).shared.get? "run-1" with
    | none => trail "run-1" "guardrails" ((carriedOut Bool auditMoves).map Prod.fst) = none
    | some doc => ∃ items, trail "run-1" "guardrails" ((carriedOut Bool auditMoves).map Prod.fst) = some items ∧
        Doc.items doc "guardrails" = .ok items :=
  no_lost_appends (show FreshRuns auditMoves from by decide +kernel) (by decide +kernel) (by decide +kernel) "run-1"

end Threads
end NearRewards.Agent
