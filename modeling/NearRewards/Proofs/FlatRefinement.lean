import NearRewards.Proofs.FlatMethods
import NearRewards.Proofs.Lifecycle

/-! The contract over its flat storage refines the contract over maps as values: every call
answers the same, and leaves a storage that holds the state the other one leaves. -/

namespace NearRewards.Contract
open EStateM (Simulates EndAlike)

variable {map : UnorderedMap U64} {Holds : map.Handle → Storage → Ledger U64 Bytes → Prop}
  {cell : map.Handle → Storage → U64 → Bytes} {storage : Storage} {events : map.Handle} {records : Ledger U64 Bytes}
  {state : State} {eventId : U64} {e : Event}

/-- What a successful call leaves before the root is saved. -/
inductive Leaves (cell : map.Handle → Storage → U64 → Bytes) (storage : Storage) (events : map.Handle) (state : State) :
    Call → Settlemint (Flat map) → State → Prop where
  | stored {call eventId e final contract contract'} (about : call.target = some eventId)
      (found : state.events.lookup eventId = some e) (resolver : final.resolver = e.resolver)
      (stored : Stored cell storage events state eventId final contract contract') :
      Leaves cell storage events state call contract contract'
  | created {resolver closesAt nextEventId contract contract'} (next : Checked.add state.nextEventId 1 = some nextEventId)
      (created : Created storage events state resolver closesAt nextEventId contract contract') :
      Leaves cell storage events state (.createEvent resolver closesAt) contract contract'

theorem Finished.leaves {α β : Type} {call : Call} (about : call.target = some eventId) (f : α → β) {a b : α}
    {world : World (Flat map)} {world' : World Events} (finished : Finished cell storage events state eventId a b world world') :
    f a = f b ∧ Alike (Leaves cell storage events state call) world world' := by
  obtain ⟨rfl, e, final, found, alike, resolver⟩ := finished
  exact ⟨rfl, .stored about found resolver alike.contract, alike.logs, alike.promises⟩

section Steps
variable (represents : Represents map Holds storage events records state) (lawful : map.Lawful eventsPrefix Holds cell)
include represents lawful

theorem execute_alike (env : Env) (call : Call) :
    Simulates Failed (Alike (Fresh storage events state)) (call.execute env) (call.execute env)
      (fun a b world world' => a = b ∧ Alike (Leaves cell storage events state call) world world') := by
  cases call with
  | createEvent resolver closesAt =>
    refine (createEvent_alike env resolver closesAt).map ?_
    rintro _ _ _ _ ⟨rfl, rfl, nextEventId, next, alike⟩
    exact ⟨rfl, .created next alike.contract, alike.logs, alike.promises⟩
  | takePosition eventId side =>
    exact (takePosition_alike represents lawful env side).map (fun _ _ _ _ finished => finished.leaves rfl (fun _ => Value.nothing))
  | resolve eventId outcome =>
    exact (resolve_alike represents lawful env outcome).map (fun _ _ _ _ finished => finished.leaves rfl (fun _ => Value.nothing))
  | voidEvent eventId =>
    exact (voidEvent_alike represents lawful env).map (fun _ _ _ _ finished => finished.leaves rfl (fun _ => Value.nothing))
  | settle eventId account =>
    exact (settle_alike represents lawful account).map (fun _ _ _ _ finished => finished.leaves rfl Value.payout)

/-- A call answers the same in both, and it leaves nothing or what it has stored. -/
theorem flatTransact_alike (input : Env × Call) :
    (flatTransact map storage input).1 = (transact state input).1 ∧
      ((flatTransact map storage input).2 = storage ∧ (transact state input).2 = state ∧
          (∃ abort, (transact state input).1.result = .error abort) ∨
        (∃ value, (transact state input).1.result = .ok value) ∧
          ∃ contract, (flatTransact map storage input).2 = save map contract ∧
            Leaves cell storage events state input.2 contract (transact state input).2) := by
  have entered : Simulates Failed (Alike (Fresh storage events state)) (input.2.enter input.1) (input.2.enter input.1)
      (fun a b world world' => a = b ∧ Alike (Leaves cell storage events state input.2) world world') :=
    require_alike _ _ (fun _ => execute_alike represents lawful input.1 input.2)
  unfold flatTransact
  rw [represents.load_eq lawful]
  dsimp only
  unfold transact
  obtain ⟨value, _, world, world', ran, ran', rfl, alike⟩ | ⟨abort, world, world', ran, ran', logs⟩ :=
    (entered { contract := ⟨state.nextEventId, { storage, events }⟩ } { contract := state } ⟨⟨rfl, rfl⟩, rfl, rfl⟩).cases
  · rw [ran, ran']
    dsimp only
    exact ⟨by rw [alike.logs, alike.promises], Or.inr ⟨⟨value, rfl⟩, _, rfl, alike.contract⟩⟩
  · rw [ran, ran']
    dsimp only
    exact ⟨by rw [show world.logs = world'.logs from logs], Or.inl ⟨rfl, rfl, abort, rfl⟩⟩

end Steps

section Stores
variable {after : Storage} {eventCell : Bytes}

/-- On the map's own keys, storing the event again is one write. -/
theorem written_agree (overlaid : Storage.Overlaid (Written eventCell eventId e) storage after) :
    Storage.Agree eventsPrefix (storage.set eventCell (Borsh.encode (e.stored eventId))) after := by
  intro location tagged
  by_cases same : location = eventCell
  · subst same
    rw [Storage.set_same, overlaid.inside location _ (Or.inl ⟨rfl, rfl⟩)]
  · rw [Storage.set_other same]
    refine (overlaid.outside location ?_).symm
    rintro value (⟨own, _⟩ | entry)
    · exact same own
    · exact entry.untagged tagged

theorem stateKey_unwritten (tagged : Storage.Tagged eventsPrefix eventCell) (value : Option Bytes) :
    ¬Written eventCell eventId e stateKey value := by
  rintro (⟨own, _⟩ | ⟨accounts, account, same, _⟩)
  · exact stateKey_untagged (own ▸ tagged)
  · exact key_ne_state accounts eventId _ same.symm

variable (represents : Represents map Holds storage events records state) (lawful : map.Lawful eventsPrefix Holds cell)
include represents lawful

/-- Saving the root after a call on an event writes what is there already. -/
theorem Represents.save_stored (found : state.events.lookup eventId = some e) {final : Event}
    {contract : Settlemint (Flat map)} {contract' : State}
    (stored : Stored cell storage events state eventId final contract contract') : save map contract = contract.events.storage := by
  have tagged := lawful.cell_tagged represents.held eventId (represents.record_mem found)
  refine Storage.set_held ?_
  rw [stored.written.outside _ (stateKey_unwritten tagged), represents.root, stored.counter, stored.handle]

/-- Storing an event again keeps the storage in step with the state. -/
theorem Represents.insert (found : state.events.lookup eventId = some e) {final : Event} (resolver : final.resolver = e.resolver)
    (valid : ({ state with events := state.events.insert eventId final } : State).Valid)
    (written : Storage.Overlaid (Written (cell events storage eventId) eventId final) storage after) :
    Represents map Holds after events (records.insert eventId (Borsh.encode (final.stored eventId)))
      { state with events := state.events.insert eventId final } := by
  have member := represents.record_mem found
  have tagged := lawful.cell_tagged represents.held eventId member
  have keys : (records.insert eventId (Borsh.encode (final.stored eventId))).keys = records.keys := by
    rw [Ledger.keys_insert, Finset.insert_eq_of_mem (Finmap.mem_keys.mpr member)]
  have few : (records.insert eventId (Borsh.encode (final.stored eventId))).keys.card < 2 ^ 64 := by
    rw [keys]
    exact Nat.lt_of_le_of_lt represents.card_le state.nextEventId.isLt
  have held := lawful.insert represents.held eventId (Borsh.encode (final.stored eventId)) few
  rw [lawful.overwrite represents.held eventId member] at held
  have short : Borsh.Fits final.resolver := resolver ▸ represents.resolvers eventId e found
  refine ⟨valid, ?_, lawful.reads (written_agree written) held, represents.records_insert eventId final, ?_,
    represents.resolvers_insert short, ?_⟩
  · rw [written.outside _ (stateKey_unwritten tagged), represents.root]
  · intro accounts other account
    dsimp only
    rw [Ledger.lookup_insert]
    by_cases same : other = eventId
    · rw [if_pos same, same]
      exact written.inside _ _ (Or.inr ⟨accounts, account, rfl, rfl⟩)
    · rw [if_neg same, written.outside, represents.accounts]
      rintro value (⟨own, _⟩ | entry)
      · exact key_untagged accounts other _ (own ▸ tagged)
      · exact same entry.id
  · intro location untagged notRoot foreign
    rw [written.outside, represents.nothing_else location untagged notRoot foreign]
    rintro value (⟨own, _⟩ | ⟨accounts, account, own, _⟩)
    · exact untagged (own ▸ tagged)
    · exact foreign accounts eventId account own

theorem Represents.create {resolver : AccountId} {closesAt nextEventId : U64} (short : Borsh.Fits resolver)
    (next : Checked.add state.nextEventId 1 = some nextEventId) (valid : (state.create resolver closesAt nextEventId).Valid)
    {contract : Settlemint (Flat map)} {contract' : State}
    (created : Created storage events state resolver closesAt nextEventId contract contract') :
    ∃ events' records', Represents map Holds (save map contract) events' records' (state.create resolver closesAt nextEventId) := by
  obtain ⟨rfl, -⟩ := created
  let record := Borsh.encode ((EventContract.opened resolver closesAt).stored state.nextEventId)
  have count := (Checked.add_eq_some.mp next)
  have few : (records.insert state.nextEventId record).keys.card < 2 ^ 64 := by
    rw [Ledger.keys_insert]
    have bound := Finset.card_insert_le state.nextEventId records.keys
    have sofar := represents.card_le
    have limit := nextEventId.isLt
    have one : (1 : U64).toNat = 1 := rfl
    omega
  have held := lawful.insert represents.held state.nextEventId record few
  refine ⟨_, records.insert state.nextEventId record, valid, Storage.set_same _ _ _, lawful.reads ?_ held,
    represents.records_insert state.nextEventId (EventContract.opened resolver closesAt), ?_, represents.resolvers_insert short, ?_⟩
  · intro location tagged
    refine (Storage.set_other ?_).symm
    rintro rfl
    exact stateKey_untagged tagged
  · intro accounts other account
    change _ = ((state.events.insert state.nextEventId (EventContract.opened resolver closesAt)).lookup other).bind _
    have untouched : save map ⟨nextEventId, Collections.insertEvent { storage, events } state.nextEventId
        ((EventContract.opened resolver closesAt).stored state.nextEventId)⟩ (accountKey accounts other account) =
        storage (accountKey accounts other account) :=
      (Storage.set_other (key_ne_state accounts other _)).trans (lawful.writes represents.held _ _ _ (key_untagged accounts other _))
    rw [untouched, represents.accounts, Ledger.lookup_insert]
    by_cases same : other = state.nextEventId
    · rw [if_pos same, same, represents.valid.fresh]
      cases accounts <;> rfl
    · rw [if_neg same]
  · intro location untagged notRoot foreign
    exact ((Storage.set_other notRoot).trans (lawful.writes represents.held _ _ _ untagged)).trans
      (represents.nothing_else location untagged notRoot foreign)

/-- One call keeps the storage in step with the state. -/
theorem Represents.step (input : Env × Call) (wellformed : input.2.Wellformed) :
    (flatTransact map storage input).1 = (transact state input).1 ∧
      ∃ events' records', Represents map Holds (flatTransact map storage input).2 events' records' (transact state input).2 := by
  obtain ⟨answer, ⟨same, same', _⟩ | ⟨_, contract, saved, leaves⟩⟩ := flatTransact_alike represents lawful input
  · rw [same, same']
    exact ⟨answer, events, records, represents⟩
  have valid : (transact state input).2.Valid := represents.valid.step input
  refine ⟨answer, ?_⟩
  rw [saved]
  obtain ⟨env, call⟩ := input
  generalize (transact state (env, call)).2 = contract' at valid leaves
  cases leaves with
  | stored about found resolver stored =>
    rw [represents.save_stored lawful found stored]
    obtain ⟨-, -, written, rfl⟩ := stored
    exact ⟨_, _, represents.insert lawful found resolver valid written⟩
  | created next created =>
    have becomes := created.2
    subst becomes
    exact represents.create lawful wellformed next valid created

end Stores

theorem init_represents (lawful : map.Lawful eventsPrefix Holds cell) :
    Represents map Holds (flatMachine map).init (map.new [eventsPrefix]) ∅ machine.init := by
  have empty : Holds (map.new [eventsPrefix]) (fun _ => none) ∅ := lawful.new (fun _ _ => rfl)
  have initial : (flatMachine map).init =
      Storage.set (fun _ => none) stateKey (Borsh.encode ((0 : U64), map.new [eventsPrefix])) := rfl
  rw [initial]
  refine ⟨reachable_valid .init, Storage.set_same _ _ _, lawful.reads ?_ empty, ?_, ?_, ?_, ?_⟩
  · intro location tagged
    have different : location ≠ stateKey := by
      rintro rfl
      exact stateKey_untagged tagged
    rw [Storage.set_other different]
  · intro eventId
    rfl
  · intro accounts eventId account
    exact Storage.set_other (key_ne_state accounts eventId _)
  · intro eventId e found
    cases found
  · intro location _ notRoot _
    exact Storage.set_other notRoot

/-- A run over the flat storage answers as the run over maps as values does, and ends in a
storage that holds its state. -/
theorem flat_run (lawful : map.Lawful eventsPrefix Holds cell) {inputs : List (Env × Call)}
    (wellformed : ∀ input ∈ inputs, input.2.Wellformed) :
    (flatMachine map).answers (flatMachine map).init inputs = machine.answers machine.init inputs ∧
      ∃ events records, Represents map Holds ((flatMachine map).after (flatMachine map).init inputs) events records
        (machine.after machine.init inputs) := by
  have along : (flatMachine map).Along (fun _ input => input.2.Wellformed) (flatMachine map).init inputs := by
    rw [Machine.along_iff]
    intro before input after split
    exact wellformed input (split ▸ List.mem_append_right _ List.mem_cons_self)
  let related : Storage → State → Prop := fun storage state => ∃ events records, Represents map Holds storage events records state
  have matched : ∀ storage state input, related storage state → input.2.Wellformed →
      ((flatMachine map).step storage input).1 = (machine.step state input).1 ∧
        related ((flatMachine map).step storage input).2 (machine.step state input).2 :=
    fun storage state input ⟨_, _, represents⟩ wellformed => represents.step lawful input wellformed
  have run := @Machine.run_alike _ _ _ (flatMachine map) _ _ _ machine id (fun _ input => input.2.Wellformed) related Eq
    matched inputs _ _ ⟨_, _, init_represents lawful⟩ along
  rw [List.map_id, List.forall₂_eq_eq_eq] at run
  exact run

end NearRewards.Contract
