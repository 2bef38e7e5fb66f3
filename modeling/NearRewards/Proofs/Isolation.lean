import NearRewards.Library.VectorMap
import NearRewards.Proofs.FlatRefinement

/-! Events do not interfere through the flat storage: a call on one changes nothing of
another, calls on two of them can be swapped, and a new event starts on untouched keys. -/

namespace NearRewards.Contract
open EStateM (Simulates)

variable {map : UnorderedMap U64} {Holds : map.Handle → Storage → Ledger U64 Bytes → Prop}
  {cell : map.Handle → Storage → U64 → Bytes} {storage : Storage} {events : map.Handle} {records : Ledger U64 Bytes}
  {state : State} {eventId : U64} {e : Event}

/-- An account's entries in the maps of an event, read as the methods read them. -/
def entriesOf {Store : Type} {Map : Type → Type} [Collections Store Map] (eventId : U64) (account : AccountId) :
    Method Store (U128 × U128 × Bool) := do
  let e ← expect (← getEvent eventId) "UnknownEvent"
  let yes ← mapGet e.yesStake account
  let no ← mapGet e.noStake account
  let claimed ← mapGet e.claimed account
  return (yes.getD 0, no.getD 0, claimed.getD false)

/-- Every view of an event shows the same. -/
structure SameViews (map : UnorderedMap U64) (storage after : Storage) (eventId : U64) : Prop where
  getEvent : flatView map (getEventView eventId) after = flatView map (getEventView eventId) storage
  liabilityOf : flatView map (liabilityOf eventId) after = flatView map (liabilityOf eventId) storage
  isVoidable : ∀ env, flatView map (isVoidable env eventId) after = flatView map (isVoidable env eventId) storage
  payoutOf : ∀ account, flatView map (payoutOf eventId account) after = flatView map (payoutOf eventId account) storage

/-- The event exists. -/
def Present (map : UnorderedMap U64) (storage : Storage) (eventId : U64) : Prop :=
  ∃ shown, flatView map (getEventView eventId) storage = .ok shown

section Views
variable (represents : Represents map Holds storage events records state) (lawful : map.Lawful eventsPrefix Holds cell)
include represents lawful

theorem flatView_eq {α : Type} {method : Method (Flat map) α} {method' : Method Events α}
    (alike : Simulates Failed (Alike (Fresh storage events state)) method method' (fun a b _ _ => a = b)) :
    flatView map method storage = view method' state := by
  unfold flatView
  rw [represents.load_eq lawful]
  dsimp only
  unfold view
  obtain ⟨value, _, world, world', ran, ran', rfl⟩ | ⟨abort, world, world', ran, ran', _⟩ :=
    (alike { contract := ⟨state.nextEventId, { storage, events }⟩ } { contract := state } ⟨⟨rfl, rfl⟩, rfl, rfl⟩).cases
  · rw [ran, ran']
  · rw [ran, ran']

theorem entriesOf_alike (account : AccountId) :
    Simulates Failed (Alike (Fresh storage events state)) (entriesOf eventId account) (entriesOf eventId account)
      (fun a b _ _ => a = b) := by
  refine event_alike represents lawful (fun e _ => ?_)
  refine mapGet_alike (fun _ => trivial) .yesStake account rfl ?_
  refine mapGet_alike (fun _ => trivial) .noStake account rfl ?_
  refine mapGet_alike (fun _ => trivial) .claimed account rfl ?_
  exact .pure (fun _ _ _ => rfl)

theorem present_iff : Present map storage eventId ↔ ∃ e, state.events.lookup eventId = some e := by
  unfold Present
  rw [flatView_eq represents lawful (getEventView_alike represents lawful), view_getEventView]
  cases state.events.lookup eventId with
  | none => simp
  | some e => simp

end Views

/-- The views of an event depend on the event alone. -/
theorem sameViews {after : Storage} {events' : map.Handle} {records' : Ledger U64 Bytes} {final : State}
    (lawful : map.Lawful eventsPrefix Holds cell) (represents : Represents map Holds storage events records state)
    (represents' : Represents map Holds after events' records' final)
    (same : final.events.lookup eventId = state.events.lookup eventId) : SameViews map storage after eventId := by
  constructor
  · rw [flatView_eq represents lawful (getEventView_alike represents lawful),
      flatView_eq represents' lawful (getEventView_alike represents' lawful), view_getEventView, view_getEventView, same]
  · rw [flatView_eq represents lawful (liabilityOf_alike represents lawful),
      flatView_eq represents' lawful (liabilityOf_alike represents' lawful), view_liabilityOf, view_liabilityOf, same]
  · intro env
    rw [flatView_eq represents lawful (isVoidable_alike represents lawful env),
      flatView_eq represents' lawful (isVoidable_alike represents' lawful env), view_isVoidable, view_isVoidable, same]
  · intro account
    rw [flatView_eq represents lawful (payoutOf_alike represents lawful account),
      flatView_eq represents' lawful (payoutOf_alike represents' lawful account), view_payoutOf, view_payoutOf, same]

/-- How a transaction ends that acts on one event. -/
def perform (state : State) (eventId : U64) : Except Abort (Effect Value) → Receipt × State
  | .error abort => (⟨.error abort, [], []⟩, state)
  | .ok effect =>
    (⟨.ok effect.value, effect.records, effect.transfers⟩, { state with events := state.events.insert eventId effect.event })

theorem conclude_perform {α : Type} (value : α → Value) (act : Event → Except Abort (Effect α))
    (found : state.events.lookup eventId = some e) :
    conclude state eventId value act = perform state eventId ((act e).map (Effect.map value)) := by
  unfold conclude
  rw [found]
  dsimp only
  cases act e <;> rfl

/-- What a call does to the event it is about depends on that event alone. -/
theorem transact_local {call : Call} (about : call.target = some eventId) (env : Env) :
    ∃ act : Event → Except Abort (Effect Value), ∀ (state : State) (e : Event), state.events.lookup eventId = some e →
      transact state (env, call) = perform state eventId (act e) := by
  by_cases accepted : Accepts env call
  · cases call with
    | createEvent resolver closesAt => cases about
    | takePosition target side =>
      cases about
      refine ⟨fun e => (stakeAct env eventId side e).map (Effect.map fun _ => .nothing), fun state e found => ?_⟩
      rw [transact_takePosition, conclude_perform _ _ found]
    | resolve target outcome =>
      cases about
      refine ⟨fun e => (resolveAct env eventId outcome e).map (Effect.map fun _ => .nothing), fun state e found => ?_⟩
      rw [transact_resolve, if_neg, conclude_perform _ _ found]
      simpa [Accepts, Call.payable] using accepted
    | voidEvent target =>
      cases about
      refine ⟨fun e => (voidAct env eventId e).map (Effect.map fun _ => .nothing), fun state e found => ?_⟩
      rw [transact_voidEvent, if_neg, conclude_perform _ _ found]
      simpa [Accepts, Call.payable] using accepted
    | settle target account =>
      cases about
      refine ⟨fun e => (settleAct eventId account e).map (Effect.map .payout), fun state e found => ?_⟩
      rw [transact_settle, if_neg, conclude_perform _ _ found]
      simpa [Accepts, Call.payable] using accepted
  · exact ⟨fun _ => .error (refusal call), fun state e _ => transact_refused state env accepted⟩

/-- Elsewhere a call leaves the events as they are. -/
theorem transact_other {call : Call} {other : U64} (about : call.target = some eventId) (apart : other ≠ eventId) (env : Env) :
    (transact state (env, call)).2.events.lookup other = state.events.lookup other := by
  obtain ⟨abort, ran⟩ | ⟨resolver, closesAt, next, rfl, _, _, _, ran⟩ | ⟨target, e, effect, found, acted, ran⟩ :=
    step_cases state env call
  · rw [show transact state (env, call) = _ from ran]
  · cases about
  · rw [show transact state (env, call) = _ from ran]
    have same : target = eventId := Option.some.inj (acted.target.symm.trans about)
    dsimp only
    rw [Ledger.lookup_insert, if_neg (same ▸ apart)]

/-- The storage an action on an event leads to: as it was, or with the event written. -/
inductive Lands (map : UnorderedMap U64) (Holds : map.Handle → Storage → Ledger U64 Bytes → Prop)
    (cell : map.Handle → Storage → U64 → Bytes) (storage : Storage) (events : map.Handle) (records : Ledger U64 Bytes)
    (state : State) (eventId : U64) : Except Abort (Effect Value) → Storage → Prop where
  | aborted {abort} : Lands map Holds cell storage events records state eventId (.error abort) storage
  | written {effect after}
      (overlaid : Storage.Overlaid (Written (cell events storage eventId) eventId effect.event) storage after)
      (represents : Represents map Holds after events (records.insert eventId (Borsh.encode (effect.event.stored eventId)))
        { state with events := state.events.insert eventId effect.event }) :
      Lands map Holds cell storage events records state eventId (.ok effect) after

namespace Lands
variable {after : Storage} {act : Except Abort (Effect Value)}

theorem kept {abort : Abort} (lands : Lands map Holds cell storage events records state eventId (.error abort) after) :
    after = storage := by
  cases lands
  rfl

theorem overlaid {effect : Effect Value} (lands : Lands map Holds cell storage events records state eventId (.ok effect) after) :
    Storage.Overlaid (Written (cell events storage eventId) eventId effect.event) storage after := by
  cases lands
  assumption

/-- The storage holds the state the action leads to. -/
theorem represents (lands : Lands map Holds cell storage events records state eventId act after)
    (before : Represents map Holds storage events records state) :
    ∃ records', Represents map Holds after events records' (perform state eventId act).2 := by
  cases lands with
  | aborted => exact ⟨records, before⟩
  | written overlaid represents => exact ⟨_, represents⟩

end Lands

theorem perform_other {act : Except Abort (Effect Value)} {other : U64} (apart : other ≠ eventId) :
    (perform state eventId act).2.events.lookup other = state.events.lookup other := by
  cases act with
  | error abort => rfl
  | ok effect => exact (Ledger.lookup_insert _ _ _ _).trans (if_neg apart)

theorem perform_receipt (state state' : State) (act : Except Abort (Effect Value)) :
    (perform state eventId act).1 = (perform state' eventId act).1 := by
  cases act <;> rfl

section Calls
variable (lawful : map.Lawful eventsPrefix Holds cell) (represents : Represents map Holds storage events records state)
  {env : Env} {call : Call}
include lawful represents

/-- A call that aborts leaves the storage, and one that succeeds writes its event there. -/
theorem flatTransact_lands (found : state.events.lookup eventId = some e) (about : call.target = some eventId)
    {act : Except Abort (Effect Value)} (acts : transact state (env, call) = perform state eventId act) :
    (flatTransact map storage (env, call)).1 = (perform state eventId act).1 ∧
      Lands map Holds cell storage events records state eventId act (flatTransact map storage (env, call)).2 := by
  have valid : (transact state (env, call)).2.Valid := represents.valid.step (env, call)
  obtain ⟨answer, ⟨same, -, abort, failed⟩ | ⟨⟨value, returned⟩, contract, saved, leaves⟩⟩ :=
    flatTransact_alike represents lawful (env, call)
  · rw [answer, same, acts]
    rw [acts] at failed
    cases act with
    | error abort => exact ⟨rfl, .aborted⟩
    | ok effect => cases failed
  · rw [answer, saved, acts]
    rw [acts] at leaves returned valid
    cases act with
    | error abort => cases returned
    | ok effect =>
      refine ⟨rfl, ?_⟩
      cases leaves with
      | created => cases about
      | @stored _ target kept final _ _ about' found' resolver stored =>
        have sameEvent : target = eventId := Option.some.inj (about'.symm.trans about)
        subst sameEvent
        have becomes := congrArg (fun state : State => state.events.lookup target) stored.state
        have sameFinal : effect.event = final := by simpa [perform, Ledger.lookup_insert] using becomes
        subst sameFinal
        rw [represents.save_stored lawful found stored]
        exact .written stored.written (represents.insert lawful found' resolver valid stored.written)

/-- Writing one event does not move the record of another. -/
theorem cell_kept {other : U64} {kept : Event} {effect : Effect Value} {after : Storage} {state' : State}
    {records' : Ledger U64 Bytes} (found : state.events.lookup eventId = some e) (found' : state.events.lookup other = some kept)
    (stays : state'.events.lookup other = some kept)
    (overlaid : Storage.Overlaid (Written (cell events storage eventId) eventId effect.event) storage after)
    (represents' : Represents map Holds after events records' state') : cell events after other = cell events storage other := by
  rw [← lawful.cell_kept represents.held eventId (represents.record_mem found) other (represents.record_mem found')
    (Borsh.encode (effect.event.stored eventId))]
  exact (lawful.cell_reads (written_agree overlaid).symm represents'.held other (represents'.record_mem stays)).symm

/-- The entries of two events have no key in common. -/
theorem written_disjoint {other : U64} {kept : Event} {final final' : Event} (apart : eventId ≠ other)
    (found : state.events.lookup eventId = some e) (found' : state.events.lookup other = some kept) (location : Bytes)
    (old new : Option Bytes) (writes : Written (cell events storage eventId) eventId final location old) :
    ¬Written (cell events storage other) other final' location new := by
  have member := represents.record_mem found
  have member' := represents.record_mem found'
  have tagged := lawful.cell_tagged represents.held eventId member
  have tagged' := lawful.cell_tagged represents.held other member'
  rintro (⟨same', _⟩ | entry')
  · rcases writes with ⟨same, _⟩ | entry
    · exact apart (lawful.cell_distinct represents.held eventId member other member' (same.symm.trans same'))
    · exact entry.untagged (same' ▸ tagged')
  · rcases writes with ⟨same, _⟩ | ⟨accounts, account, rfl, _⟩
    · exact entry'.untagged (same ▸ tagged)
    · exact apart entry'.id

end Calls

section Swaps
variable (lawful : map.Lawful eventsPrefix Holds cell) (represents : Represents map Holds storage events records state)
include lawful represents

/-- Two calls on different events can be swapped. -/
theorem calls_commute {first second : Env × Call} {other : U64} {kept : Event} (apart : eventId ≠ other)
    (found : state.events.lookup eventId = some e) (found' : state.events.lookup other = some kept)
    (about : first.2.target = some eventId) (about' : second.2.target = some other) :
    (flatTransact map (flatTransact map storage first).2 second).1 = (flatTransact map storage second).1 ∧
      (flatTransact map (flatTransact map storage second).2 first).1 = (flatTransact map storage first).1 ∧
      (flatTransact map (flatTransact map storage first).2 second).2 =
        (flatTransact map (flatTransact map storage second).2 first).2 := by
  obtain ⟨env, call⟩ := first
  obtain ⟨env', call'⟩ := second
  obtain ⟨act, acts⟩ := transact_local about env
  obtain ⟨act', acts'⟩ := transact_local about' env'
  obtain ⟨answer, lands⟩ := flatTransact_lands lawful represents found about (acts state e found)
  obtain ⟨answer', lands'⟩ := flatTransact_lands lawful represents found' about' (acts' state kept found')
  obtain ⟨records₁, represents₁⟩ := lands.represents represents
  obtain ⟨records₂, represents₂⟩ := lands'.represents represents
  have found₁ : (perform state eventId (act e)).2.events.lookup other = some kept := (perform_other apart.symm).trans found'
  have found₂ : (perform state other (act' kept)).2.events.lookup eventId = some e := (perform_other apart).trans found
  obtain ⟨answer₁, lands₁⟩ := flatTransact_lands lawful represents₁ found₁ about' (acts' _ kept found₁)
  obtain ⟨answer₂, lands₂⟩ := flatTransact_lands lawful represents₂ found₂ about (acts _ e found₂)
  refine ⟨?_, ?_, ?_⟩
  · rw [answer₁, answer', perform_receipt _ state]
  · rw [answer₂, answer, perform_receipt _ state]
  · cases one : act e with
    | error abort =>
      rw [one] at lands lands₂
      rw [lands₂.kept, lands.kept]
    | ok effect =>
      rw [one] at lands lands₂ represents₁ found₁ lands₁
      cases two : act' kept with
      | error abort =>
        rw [two] at lands' lands₁
        rw [lands₁.kept, lands'.kept]
      | ok effect' =>
        rw [two] at lands' lands₁ represents₂ found₂ lands₂
        have overlaid₁ := lands₁.overlaid
        rw [cell_kept lawful represents found found' found₁ lands.overlaid represents₁] at overlaid₁
        have overlaid₂ := lands₂.overlaid
        rw [cell_kept lawful represents found' found found₂ lands'.overlaid represents₂] at overlaid₂
        exact lands.overlaid.commute (written_disjoint lawful represents apart found found') overlaid₁ lands'.overlaid overlaid₂

end Swaps

section Creation
variable (represents : Represents map Holds storage events records state)
include represents

/-- Where no account has an entry, no key is taken at all. -/
theorem nothing_under (accounts : AccountMap)
    (empty : ∀ account, (state.events.lookup eventId).bind (fun e => e.contents accounts account) = none) (rest : Bytes) :
    storage (key accounts.prefixByte eventId ++ rest) = none := by
  by_cases encoded : ∃ account : AccountId, rest = Borsh.encode account
  · obtain ⟨account, rfl⟩ := encoded
    exact (represents.accounts accounts eventId account).trans (empty account)
  · apply represents.nothing_else _ (key_untagged _ _ _) (key_ne_state _ _ _)
    intro other id account same
    exact encoded ⟨account, (key_injective same).2.2⟩

variable (lawful : map.Lawful eventsPrefix Holds cell)
include lawful

/-- Creating an event, or failing to, leaves the events there are. -/
theorem create_frame {env : Env} {resolver : AccountId} {closesAt : U64} (short : Borsh.Fits resolver)
    (found : state.events.lookup eventId = some e) :
    SameViews map storage (flatTransact map storage (env, .createEvent resolver closesAt)).2 eventId := by
  obtain ⟨-, events', records', represents'⟩ := represents.step lawful (env, .createEvent resolver closesAt) short
  refine sameViews lawful represents represents' ?_
  obtain ⟨abort, ran⟩ | ⟨_, _, next, _, _, _, _, ran⟩ | ⟨_, _, _, _, acted, _⟩ :=
    step_cases state env (.createEvent resolver closesAt)
  · rw [show transact state _ = _ from ran]
  · rw [show transact state _ = _ from ran]
    have other : eventId ≠ state.nextEventId := by
      rintro rfl
      cases represents.valid.fresh.symm.trans found
    exact (Ledger.lookup_insert _ _ _ _).trans (if_neg other)
  · cases acted

/-- A new event starts with no entries, on keys that nothing was stored under. -/
theorem create_fresh {env : Env} {resolver : AccountId} {closesAt : U64} (short : Borsh.Fits resolver)
    (returned : (flatTransact map storage (env, .createEvent resolver closesAt)).1.result = .ok (.eventId eventId)) :
    (∀ account, flatView map (entriesOf eventId account) (flatTransact map storage (env, .createEvent resolver closesAt)).2 =
        .ok (0, 0, false)) ∧
      ∀ (accounts : AccountMap) rest, storage (key accounts.prefixByte eventId ++ rest) = none ∧
        (flatTransact map storage (env, .createEvent resolver closesAt)).2 (key accounts.prefixByte eventId ++ rest) = none := by
  obtain ⟨answer, events', records', represents'⟩ := represents.step lawful (env, .createEvent resolver closesAt) short
  rw [answer] at returned
  obtain ⟨abort, ran⟩ | ⟨resolver', closesAt', next, _, _, _, _, ran⟩ | ⟨_, _, _, _, acted, _⟩ :=
    step_cases state env (.createEvent resolver closesAt)
  · rw [show transact state _ = _ from ran] at returned
    cases returned
  · rw [show transact state _ = _ from ran] at returned represents'
    cases returned
    have found : (state.create resolver' closesAt' next).events.lookup state.nextEventId =
        some (EventContract.opened resolver' closesAt') := (Ledger.lookup_insert _ _ _ _).trans (if_pos rfl)
    refine ⟨fun account => ?_, fun accounts rest => ⟨?_, ?_⟩⟩
    · rw [flatView_eq represents' lawful (entriesOf_alike represents' lawful account)]
      unfold view entriesOf
      rw [found_bind _ found]
      rfl
    · refine nothing_under represents accounts (fun account => ?_) rest
      rw [represents.valid.fresh]
      rfl
    · refine nothing_under represents' accounts (fun account => ?_) rest
      dsimp only
      rw [found]
      cases accounts <;> rfl
  · cases acted

end Creation

/-- After every run, a call on one event changes no view of another; two calls on different
events give the same answers and the same storage in either order; and creating an event
changes no view of the events there are, and takes keys nothing was stored under. -/
theorem isolation (lawful : map.Lawful eventsPrefix Holds cell) {inputs : List (Env × Call)}
    (wellformed : ∀ input ∈ inputs, input.2.Wellformed)
    (reached : (flatMachine map).after (flatMachine map).init inputs = storage) :
    (∀ env call eventId other, call.target = some eventId → other ≠ eventId →
        SameViews map storage ((flatMachine map).step storage (env, call)).2 other) ∧
      (∀ first second eventId other, first.2.target = some eventId → second.2.target = some other → eventId ≠ other →
        Present map storage eventId → Present map storage other →
          (flatMachine map).answers storage [first, second] = ((flatMachine map).answers storage [second, first]).reverse ∧
            (flatMachine map).after storage [first, second] = (flatMachine map).after storage [second, first]) ∧
      ∀ env resolver closesAt, Borsh.Fits resolver →
        (∀ other, Present map storage other →
            SameViews map storage ((flatMachine map).step storage (env, .createEvent resolver closesAt)).2 other) ∧
          ∀ eventId, ((flatMachine map).step storage (env, .createEvent resolver closesAt)).1.result = .ok (.eventId eventId) →
            (∀ account, flatView map (entriesOf eventId account)
                ((flatMachine map).step storage (env, .createEvent resolver closesAt)).2 = .ok (0, 0, false)) ∧
              ∀ (accounts : AccountMap) rest, storage (key accounts.prefixByte eventId ++ rest) = none ∧
                ((flatMachine map).step storage (env, .createEvent resolver closesAt)).2
                  (key accounts.prefixByte eventId ++ rest) = none := by
  obtain ⟨-, events, records, represents⟩ := flat_run lawful wellformed
  rw [reached] at represents
  refine ⟨?_, ?_, ?_⟩
  · intro env call eventId other about apart
    have wellformed : call.Wellformed := by
      cases call with
      | createEvent => cases about
      | takePosition | resolve | voidEvent | settle => trivial
    obtain ⟨-, events', records', represents'⟩ := represents.step lawful (env, call) wellformed
    exact sameViews lawful represents represents' (transact_other about apart env)
  · intro first second eventId other about about' apart present present'
    obtain ⟨e, found⟩ := (present_iff represents lawful).mp present
    obtain ⟨kept, found'⟩ := (present_iff represents lawful).mp present'
    obtain ⟨last, first_, storages⟩ := calls_commute lawful represents apart found found' about about'
    refine ⟨?_, storages⟩
    change [(flatTransact map storage first).1, (flatTransact map (flatTransact map storage first).2 second).1] =
      [(flatTransact map (flatTransact map storage second).2 first).1, (flatTransact map storage second).1]
    rw [last, first_]
  · intro env resolver closesAt short
    refine ⟨?_, fun eventId returned => create_fresh represents lawful short returned⟩
    intro other present
    obtain ⟨e, found⟩ := (present_iff represents lawful).mp present
    exact create_frame represents lawful short found

private def twoEvents : List (Env × Call) :=
  [(⟨"creator.testnet", 0, 9⟩, .createEvent "resolver.testnet" 10), (⟨"creator.testnet", 0, 9⟩, .createEvent "resolver.testnet" 20)]

private theorem twoEvents_wellformed : ∀ input ∈ twoEvents, input.2.Wellformed := by
  have short : Borsh.Fits "resolver.testnet" := (by decide +kernel : (Borsh.utf8 "resolver.testnet").length < 256 ^ 4)
  intro input member
  simp only [twoEvents, List.mem_cons, List.not_mem_nil, or_false] at member
  rcases member with rfl | rfl
  · exact short
  · exact short

private def eventMap : UnorderedMap U64 := VectorMap.map U64

private theorem eventMap_lawful : eventMap.Lawful eventsPrefix (VectorMap.Holds eventsPrefix) VectorMap.cell :=
  VectorMap.lawful (fun _ _ same => encode_eventId_injective same) eventsPrefix

private theorem twoEvents_present {eventId : U64}
    (found : ((machine.after machine.init twoEvents).events.lookup eventId).isSome) :
    Present eventMap ((flatMachine eventMap).after (flatMachine eventMap).init twoEvents) eventId := by
  obtain ⟨-, events, records, represents⟩ := flat_run eventMap_lawful twoEvents_wellformed
  exact (present_iff represents eventMap_lawful).mpr (Option.isSome_iff_exists.mp found)

/-- A stake on one event and a stake on another, in the SDK's own layout. -/
theorem isolation_twoStakes :
    SameViews eventMap ((flatMachine eventMap).after (flatMachine eventMap).init twoEvents)
        ((flatMachine eventMap).step ((flatMachine eventMap).after (flatMachine eventMap).init twoEvents)
          (⟨"alice.testnet", 2, 9⟩, .takePosition 0 .yes)).2 1 ∧
      (flatMachine eventMap).after ((flatMachine eventMap).after (flatMachine eventMap).init twoEvents)
          [(⟨"alice.testnet", 2, 9⟩, .takePosition 0 .yes), (⟨"bob.testnet", 3, 9⟩, .takePosition 1 .no)] =
        (flatMachine eventMap).after ((flatMachine eventMap).after (flatMachine eventMap).init twoEvents)
          [(⟨"bob.testnet", 3, 9⟩, .takePosition 1 .no), (⟨"alice.testnet", 2, 9⟩, .takePosition 0 .yes)] := by
  obtain ⟨frame, swap, -⟩ := isolation eventMap_lawful twoEvents_wellformed rfl
  refine ⟨frame _ _ 0 1 rfl (by decide), ?_⟩
  exact (swap _ _ 0 1 rfl rfl (by decide) (twoEvents_present (by decide)) (twoEvents_present (by decide))).2

end NearRewards.Contract
