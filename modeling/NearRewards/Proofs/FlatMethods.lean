import NearRewards.Library.Relational
import NearRewards.Proofs.FlatStorage

/-! The methods run over the flat storage as they run over maps as values. The two runs of a
method are followed side by side: until the event is stored again, the storage differs from
the one the call started on only in that event's account entries. -/

namespace NearRewards.Contract
open EStateM (Simulates EndAlike)

variable {map : UnorderedMap U64} {Holds : map.Handle → Storage → Ledger U64 Bytes → Prop}
  {cell : map.Handle → Storage → U64 → Bytes}

/-- Two worlds whose contracts are related, and which have emitted the same. -/
structure Alike (related : Settlemint (Flat map) → State → Prop) (world : World (Flat map)) (world' : World Events) : Prop where
  contract : related world.contract world'.contract
  logs : world.logs = world'.logs
  promises : world.promises = world'.promises

/-- A call that fails keeps only its log lines. -/
def Failed (world : World (Flat map)) (world' : World Events) : Prop := world.logs = world'.logs

section Rules
variable {α β γ : Type} {related : Settlemint (Flat map) → State → Prop} {post : α → β → World (Flat map) → World Events → Prop}

theorem require_alike (condition : Prop) [Decidable condition] (message : String) {next : Unit → Method (Flat map) α}
    {next' : Unit → Method Events β} (continues : condition → Simulates Failed (Alike related) (next ()) (next' ()) post) :
    Simulates Failed (Alike related) (require condition message >>= next) (require condition message >>= next') post := by
  unfold require
  by_cases holds : condition
  · rw [if_pos holds, if_pos holds]
    exact continues holds
  · rw [if_neg holds, if_neg holds]
    exact .throw _ (fun _ _ alike => alike.logs)

theorem checked_alike (value : Option γ) {next : γ → Method (Flat map) α} {next' : γ → Method Events β}
    (continues : ∀ result, value = some result → Simulates Failed (Alike related) (next result) (next' result) post) :
    Simulates Failed (Alike related) (checked value >>= next) (checked value >>= next') post := by
  cases value with
  | none => exact .throw _ (fun _ _ alike => alike.logs)
  | some result => exact continues result rfl

theorem expect_alike (value : Option γ) (message : String) {next : γ → Method (Flat map) α} {next' : γ → Method Events β}
    (continues : ∀ result, value = some result → Simulates Failed (Alike related) (next result) (next' result) post) :
    Simulates Failed (Alike related) (expect value message >>= next) (expect value message >>= next') post := by
  cases value with
  | none => exact .throw _ (fun _ _ alike => alike.logs)
  | some result => exact continues result rfl

theorem pure_alike (value : γ) :
    Simulates Failed (Alike related) (pure value : Method (Flat map) γ) (pure value : Method Events γ)
      (fun a b world world' => a = b ∧ Alike related world world') :=
  .pure (fun _ _ alike => ⟨rfl, alike⟩)

theorem checked_returns (value : Option γ) :
    Simulates Failed (Alike related) (checked value : Method (Flat map) γ) (checked value : Method Events γ)
      (fun a b world world' => a = b ∧ Alike related world world') := by
  cases value with
  | none => exact .throw _ (fun _ _ alike => alike.logs)
  | some result => exact pure_alike result

theorem logStr_alike (record : Record) :
    Simulates Failed (Alike related) (logStr record : Method (Flat map) Unit) (logStr record) (fun _ _ => Alike related) := by
  intro world world' alike
  refine .ok ⟨alike.contract, ?_, alike.promises⟩
  change world.logs ++ _ = world'.logs ++ _
  rw [alike.logs]

theorem transfer_alike (account : AccountId) (amount : U128) :
    Simulates Failed (Alike related) (transfer account amount : Method (Flat map) Unit) (transfer account amount)
      (fun _ _ => Alike related) := by
  intro world world' alike
  refine .ok ⟨alike.contract, alike.logs, ?_⟩
  change world.promises ++ _ = world'.promises ++ _
  rw [alike.promises]

end Rules

/-- Nothing has been written yet. -/
def Fresh (storage : Storage) (events : map.Handle) (state : State) (contract : Settlemint (Flat map)) (contract' : State) : Prop :=
  contract = { nextEventId := state.nextEventId, events := { storage, events } } ∧ contract' = state

/-- Only account entries of this event have been written, and they are as in `e`. -/
structure Working (storage : Storage) (events : map.Handle) (state : State) (eventId : U64) (e : Event)
    (contract : Settlemint (Flat map)) (contract' : State) : Prop where
  counter : contract.nextEventId = state.nextEventId
  handle : contract.events.events = events
  accounts : Storage.Overlaid (Accounts eventId e) storage contract.events.storage
  state : contract' = state

/-- The event has been stored again, as `e`. -/
structure Stored (cell : map.Handle → Storage → U64 → Bytes) (storage : Storage) (events : map.Handle) (state : State)
    (eventId : U64) (e : Event) (contract : Settlemint (Flat map)) (contract' : State) : Prop where
  counter : contract.nextEventId = state.nextEventId
  handle : contract.events.events = events
  written : Storage.Overlaid (Written (cell events storage eventId) eventId e) storage contract.events.storage
  state : contract' = { state with events := state.events.insert eventId e }

/-- An event as it is created. -/
def EventContract.opened (resolver : AccountId) (closesAt : U64) : Event :=
  { resolver, closesAt, phase := .opened, outcome := .unresolved, poolYes := 0, poolNo := 0, escrow := 0, unclaimedWinStake := 0
    yesStake := ∅, noStake := ∅, claimed := ∅ }

/-- A new event has been stored under the next id. -/
def Created (storage : Storage) (events : map.Handle) (state : State) (resolver : AccountId) (closesAt nextEventId : U64)
    (contract : Settlemint (Flat map)) (contract' : State) : Prop :=
  contract = ⟨nextEventId, Collections.insertEvent { storage, events } state.nextEventId
      ((EventContract.opened resolver closesAt).stored state.nextEventId)⟩ ∧
    contract' = state.create resolver closesAt nextEventId

section Accesses
variable {α β : Type} {storage : Storage} {events : map.Handle} {records : Ledger U64 Bytes} {state : State} {eventId : U64}
  {e : Event} {post : α → β → World (Flat map) → World Events → Prop}

theorem Working.agree {contract : Settlemint (Flat map)} {contract' : State}
    (working : Working storage events state eventId e contract contract') :
    Storage.Agree eventsPrefix storage contract.events.storage :=
  fun location tagged =>
    (working.accounts.outside location (fun _ entry => entry.untagged tagged)).symm

theorem fetch_ok {Store : Type} {reading : Store → Except Abort α} {world : World Store} {value : α}
    (read : reading world.contract.events = .ok value) : fetch reading world = .ok value world := by
  unfold fetch
  rw [EStateM.bind_apply, EStateM.get_apply]
  dsimp only
  rw [read]
  rfl

theorem deserialize_encode {V : Type} [Borsh V] {found : Option V} (fits : ∀ value, found = some value → Borsh.Fits value) :
    deserialize (found.map Borsh.encode) = .ok found := by
  cases found with
  | none => rfl
  | some value => rw [Option.map_some, deserialize, Borsh.decode_encode (fits value rfl)]

/-- Reading an account's entry of the event at hand. -/
theorem mapGet_alike {V : Type} [Borsh V] (fits : ∀ value : V, Borsh.Fits value) (accounts : AccountMap)
    {stakes : Ledger AccountId V} (account : AccountId)
    (shown : e.contents accounts account = (stakes.lookup account).map Borsh.encode)
    {next : Option V → Method (Flat map) α} {next' : Option V → Method Events β}
    (continues : Simulates Failed (Alike (Working storage events state eventId e)) (next (stakes.lookup account))
      (next' (stakes.lookup account)) post) :
    Simulates Failed (Alike (Working storage events state eventId e))
      (@mapGet (Flat map) (fun _ => Bytes) _ V _ (key accounts.prefixByte eventId) account >>= next) (mapGet stakes account >>= next') post := by
  refine .step (c := stakes.lookup account) (d := stakes.lookup account) ?_ continues
  intro world world' alike
  have held : world.contract.events.storage (accountKey accounts eventId account) = (stakes.lookup account).map Borsh.encode :=
    (alike.contract.accounts.inside _ _ ⟨accounts, account, rfl, rfl⟩).trans shown
  have got : deserialize (world.contract.events.storage (accountKey accounts eventId account)) = .ok (stakes.lookup account) := by
    rw [held, deserialize_encode (fun value _ => fits value)]
  have read : @mapGet (Flat map) (fun _ => Bytes) _ V _ (key accounts.prefixByte eventId) account world =
      .ok (stakes.lookup account) world :=
    fetch_ok got
  rw [read]
  exact .ok ⟨rfl, rfl, alike⟩

/-- Writing an account's entry of the event at hand. -/
theorem mapInsert_alike {V : Type} [Borsh V] (accounts : AccountMap) {stakes : Ledger AccountId V} (account : AccountId) (value : V)
    {e' : Event} (changed : ∀ other name, e'.contents other name =
      if other = accounts ∧ name = account then some (Borsh.encode value) else e.contents other name)
    {next : Bytes → Method (Flat map) α} {next' : Ledger AccountId V → Method Events β}
    (continues : Simulates Failed (Alike (Working storage events state eventId e')) (next (key accounts.prefixByte eventId))
      (next' (stakes.insert account value)) post) :
    Simulates Failed (Alike (Working storage events state eventId e))
      (@mapInsert (Flat map) (fun _ => Bytes) _ V _ (key accounts.prefixByte eventId) account value >>= next)
      (mapInsert stakes account value >>= next') post := by
  refine .step (c := key accounts.prefixByte eventId) (d := stakes.insert account value) ?_ continues
  intro world world' alike
  obtain ⟨counter, handle, overlaid, same⟩ := alike.contract
  exact .ok ⟨rfl, rfl, ⟨counter, handle, accounts_set overlaid changed, same⟩, alike.logs, alike.promises⟩

variable (represents : Represents map Holds storage events records state)
include represents

theorem fresh_working (found : state.events.lookup eventId = some e) {contract : Settlemint (Flat map)} {contract' : State}
    (fresh : Fresh storage events state contract contract') : Working storage events state eventId e contract contract' := by
  obtain ⟨rfl, rfl⟩ := fresh
  refine ⟨rfl, rfl, .refl ?_, rfl⟩
  rintro _ _ ⟨accounts, account, rfl, rfl⟩
  rw [represents.accounts, found]
  rfl

variable (lawful : map.Lawful eventsPrefix Holds cell)
include lawful

theorem getEvent_apply {world : World (Flat map)} {contract' : State} (fresh : Fresh storage events state world.contract contract')
    (eventId : U64) :
    (getEvent eventId : Method (Flat map) (Option StoredEvent)) world =
      .ok ((state.events.lookup eventId).map fun e => e.stored eventId) world := by
  have short : ∀ e, (state.events.lookup eventId).map (fun e => e.stored eventId) = some e → Borsh.Fits e := by
    intro stored stands
    obtain ⟨e, found, rfl⟩ := Option.map_eq_some_iff.mp stands
    exact EventContract.fits_stored eventId (represents.resolvers eventId e found)
  refine fetch_ok ?_
  rw [fresh.1]
  have record : map.get events storage eventId =
      ((state.events.lookup eventId).map fun e => e.stored eventId).map Borsh.encode := by
    rw [lawful.get represents.held, represents.records, Option.map_map]
    rfl
  change deserialize (map.get events storage eventId) = _
  rw [record, deserialize_encode short]

theorem getEvent_alike {next : Option StoredEvent → Method (Flat map) α} {next' : Option Event → Method Events β}
    (continues : Simulates Failed (Alike (Fresh storage events state))
      (next ((state.events.lookup eventId).map fun e => e.stored eventId)) (next' (state.events.lookup eventId)) post) :
    Simulates Failed (Alike (Fresh storage events state)) (getEvent eventId >>= next)
      (getEvent eventId >>= next') post := by
  refine .step (c := (state.events.lookup eventId).map fun e => e.stored eventId) (d := state.events.lookup eventId) ?_ continues
  intro world world' alike
  have theirs : (getEvent eventId : Method Events (Option Event)) world' = .ok (state.events.lookup eventId) world' := by
    rw [← alike.contract.2]
    rfl
  rw [getEvent_apply represents lawful alike.contract, theirs]
  exact .ok ⟨rfl, rfl, alike⟩

/-- A method that looks its event up first: it fails in both runs, or goes on with the
event as it is stored and with the event itself. -/
theorem event_alike {next : StoredEvent → Method (Flat map) α} {next' : Event → Method Events β}
    (continues : ∀ e, state.events.lookup eventId = some e →
      Simulates Failed (Alike (Working storage events state eventId e)) (next (e.stored eventId)) (next' e) post) :
    Simulates Failed (Alike (Fresh storage events state))
      (getEvent eventId >>= fun found => expect found "UnknownEvent" >>= next)
      (getEvent eventId >>= fun found => expect found "UnknownEvent" >>= next') post := by
  refine getEvent_alike represents lawful ?_
  cases found : state.events.lookup eventId with
  | none => exact .throw _ (fun _ _ alike => alike.logs)
  | some e =>
    refine (continues e found).weaken ?_ (fun _ _ _ _ holds => holds)
    exact fun _ _ alike => ⟨fresh_working represents found alike.contract, alike.logs, alike.promises⟩

/-- Storing the event again, with its account maps as they have become. -/
theorem insertEvent_alike (found : (state.events.lookup eventId).isSome) (e' : Event) (same : e'.contents = e.contents)
    {next : Unit → Method (Flat map) α} {next' : Unit → Method Events β}
    (continues : Simulates Failed (Alike (Stored cell storage events state eventId e')) (next ()) (next' ()) post) :
    Simulates Failed (Alike (Working storage events state eventId e)) (insertEvent eventId (e'.stored eventId) >>= next)
      (insertEvent eventId e' >>= next') post := by
  obtain ⟨old, present⟩ := Option.isSome_iff_exists.mp found
  have member := represents.record_mem present
  refine .step (c := ()) (d := ()) ?_ continues
  intro world world' alike
  have agree := alike.contract.agree
  obtain ⟨⟨counter, handle, overlaid, unchanged⟩, logs, promises⟩ := alike
  have held := lawful.reads agree represents.held
  have inserted := lawful.overwrite held eventId member (Borsh.encode (e'.stored eventId))
  rw [lawful.cell_reads agree represents.held eventId member] at inserted
  have tagged := lawful.cell_tagged represents.held eventId member
  refine .ok ⟨rfl, rfl, ⟨counter, ?_, ?_, ?_⟩, logs, promises⟩
  · change (map.insert world.contract.events.events _ _ _).2 = events
    rw [handle, inserted]
  · change Storage.Overlaid _ storage (map.insert world.contract.events.events _ _ _).1
    rw [handle, inserted]
    refine overlaid.set (Or.inl ⟨rfl, rfl⟩) ?_ ?_
    · rintro new (⟨_, rfl⟩ | entry)
      · rfl
      · exact absurd tagged entry.untagged
    · intro location different old
      unfold Written Accounts
      rw [same]
      simp [different]
  · change { world'.contract with events := world'.contract.events.insert eventId e' } = _
    rw [unchanged]

end Accesses

section Methods
variable {storage : Storage} {events : map.Handle} {records : Ledger U64 Bytes} {state : State} {eventId : U64} {e : Event}

/-- What a method leaves when it has stored its event again. -/
def Finished {α : Type} (cell : map.Handle → Storage → U64 → Bytes) (storage : Storage) (events : map.Handle) (state : State)
    (eventId : U64) (a b : α) (world : World (Flat map)) (world' : World Events) : Prop :=
  a = b ∧ ∃ e final, state.events.lookup eventId = some e ∧
    Alike (Stored cell storage events state eventId final) world world' ∧ final.resolver = e.resolver

/-- Paying out only reads the account maps. -/
theorem payoutInner_alike (account : AccountId) :
    Simulates Failed (Alike (Working storage events state eventId e)) (payoutInner (e.stored eventId) account)
      (payoutInner e account) (fun a b world world' => a = b ∧ Alike (Working storage events state eventId e) world world') := by
  unfold payoutInner
  refine .ite _ (fun _ => pure_alike _) (fun _ => ?_)
  refine mapGet_alike (fun _ => trivial) .claimed account rfl ?_
  refine .ite _ (fun _ => pure_alike _) (fun _ => ?_)
  refine mapGet_alike (fun _ => trivial) .yesStake account rfl ?_
  refine mapGet_alike (fun _ => trivial) .noStake account rfl ?_
  refine .ite _ (fun _ => checked_returns _) (fun _ => ?_)
  refine .ite _ (fun _ => checked_returns _) (fun _ => ?_)
  refine .ite _ (fun _ => pure_alike _) (fun _ => ?_)
  refine .ite _ (fun _ => pure_alike _) (fun _ => ?_)
  refine checked_alike _ (fun total _ => ?_)
  exact expect_alike _ _ (fun numerator _ => pure_alike _)

variable (represents : Represents map Holds storage events records state) (lawful : map.Lawful eventsPrefix Holds cell)
include represents lawful

theorem takePosition_alike (env : Env) (side : Outcome) :
    Simulates Failed (Alike (Fresh storage events state)) (takePosition env eventId side) (takePosition env eventId side)
      (Finished cell storage events state eventId) := by
  refine event_alike represents lawful (fun e found => ?_)
  refine require_alike _ _ (fun _ => ?_)
  refine require_alike _ _ (fun _ => ?_)
  refine require_alike _ _ (fun _ => ?_)
  cases side with
  | unresolved => exact .throw _ (fun _ _ alike => alike.logs)
  | yes =>
    refine mapGet_alike (fun _ => trivial) .yesStake _ rfl ?_
    refine checked_alike _ (fun stake _ => ?_)
    refine mapInsert_alike .yesStake _ stake (e.contents_yesStake _ stake) ?_
    refine checked_alike _ (fun poolYes _ => ?_)
    refine .step (.pure (fun _ _ alike => ⟨rfl, rfl, alike⟩)) ?_
    refine checked_alike _ (fun escrow _ => ?_)
    refine insertEvent_alike represents lawful (Option.isSome_iff_exists.mpr ⟨e, found⟩)
      { e with yesStake := e.yesStake.insert env.predecessorAccountId stake, poolYes, escrow } (by rfl) ?_
    exact (logStr_alike _).weaken (fun _ _ alike => alike) (fun _ _ _ _ alike => ⟨rfl, e, _, found, alike, rfl⟩)
  | no =>
    refine mapGet_alike (fun _ => trivial) .noStake _ rfl ?_
    refine checked_alike _ (fun stake _ => ?_)
    refine mapInsert_alike .noStake _ stake (e.contents_noStake _ stake) ?_
    refine checked_alike _ (fun poolNo _ => ?_)
    refine .step (.pure (fun _ _ alike => ⟨rfl, rfl, alike⟩)) ?_
    refine checked_alike _ (fun escrow _ => ?_)
    refine insertEvent_alike represents lawful (Option.isSome_iff_exists.mpr ⟨e, found⟩)
      { e with noStake := e.noStake.insert env.predecessorAccountId stake, poolNo, escrow } (by rfl) ?_
    exact (logStr_alike _).weaken (fun _ _ alike => alike) (fun _ _ _ _ alike => ⟨rfl, e, _, found, alike, rfl⟩)

theorem resolve_alike (env : Env) (outcome : Outcome) :
    Simulates Failed (Alike (Fresh storage events state)) (resolve env eventId outcome) (resolve env eventId outcome)
      (Finished cell storage events state eventId) := by
  refine event_alike represents lawful (fun e found => ?_)
  refine require_alike _ _ (fun _ => ?_)
  refine require_alike _ _ (fun _ => ?_)
  refine require_alike _ _ (fun _ => ?_)
  refine require_alike _ _ (fun _ => ?_)
  refine require_alike _ _ (fun _ => ?_)
  refine insertEvent_alike represents lawful (Option.isSome_iff_exists.mpr ⟨e, found⟩) (e.record outcome) (by rfl) ?_
  exact (logStr_alike _).weaken (fun _ _ alike => alike) (fun _ _ _ _ alike => ⟨rfl, e, _, found, alike, rfl⟩)

theorem voidEvent_alike (env : Env) :
    Simulates Failed (Alike (Fresh storage events state)) (voidEvent env eventId) (voidEvent env eventId)
      (Finished cell storage events state eventId) := by
  refine event_alike represents lawful (fun e found => ?_)
  refine require_alike _ _ (fun _ => ?_)
  refine checked_alike _ (fun voidableAt _ => ?_)
  refine require_alike _ _ (fun _ => ?_)
  refine insertEvent_alike represents lawful (Option.isSome_iff_exists.mpr ⟨e, found⟩) { e with phase := .voided } (by rfl) ?_
  exact (logStr_alike _).weaken (fun _ _ alike => alike) (fun _ _ _ _ alike => ⟨rfl, e, _, found, alike, rfl⟩)

/-- The end of `settle`, once the stake is taken off the unclaimed. -/
private def settlement {Store : Type} {Map : Type → Type} [Collections Store Map] (eventId : U64) (account : AccountId)
    (payout : U128) (e : EventContract Map) (claimed : Map Bool) (unclaimedWinStake : U128) : Method Store U128 := do
  let escrow ← checked (Checked.sub e.escrow payout)
  let finalized := escrow = 0 ∧ e.phase = .resolved
  let phase := if finalized then .settled else e.phase
  insertEvent eventId { e with claimed, unclaimedWinStake, escrow, phase }
  transfer account payout
  logStr (.settled eventId account payout)
  if finalized then
    logStr (.eventFinalized eventId)
  return payout

private theorem settlement_alike (found : state.events.lookup eventId = some e) (account : AccountId) (payout unclaimed : U128) :
    Simulates Failed (Alike (Working storage events state eventId { e with claimed := e.claimed.insert account true }))
      (settlement eventId account payout (e.stored eventId) (key AccountMap.claimed.prefixByte eventId) unclaimed)
      (settlement eventId account payout e (e.claimed.insert account true) unclaimed)
      (Finished cell storage events state eventId) := by
  refine checked_alike _ (fun escrow _ => ?_)
  refine insertEvent_alike represents lawful (Option.isSome_iff_exists.mpr ⟨e, found⟩)
    { e with
      claimed := e.claimed.insert account true, unclaimedWinStake := unclaimed, escrow
      phase := if escrow = 0 ∧ e.phase = .resolved then .settled else e.phase } (by rfl) ?_
  refine .bind (transfer_alike _ _) (fun _ _ => ?_)
  refine .bind (logStr_alike _) (fun _ _ => ?_)
  refine .ite _ (fun _ => ?_) (fun _ => ?_)
  · refine .bind (logStr_alike _) (fun _ _ => ?_)
    exact .pure (fun _ _ alike => ⟨rfl, e, _, found, alike, rfl⟩)
  · exact .pure (fun _ _ alike => ⟨rfl, e, _, found, alike, rfl⟩)

theorem settle_alike (account : AccountId) :
    Simulates Failed (Alike (Fresh storage events state)) (settle eventId account) (settle eventId account)
      (Finished cell storage events state eventId) := by
  refine event_alike represents lawful (fun e found => ?_)
  refine require_alike _ _ (fun _ => ?_)
  refine mapGet_alike (fun _ => trivial) .claimed account rfl ?_
  refine require_alike _ _ (fun _ => ?_)
  refine .bind_same (payoutInner_alike account) (fun payout => ?_)
  refine require_alike _ _ (fun _ => ?_)
  refine mapInsert_alike .claimed account true (e.contents_claimed account true) ?_
  refine .ite _ (fun _ => ?_) (fun _ => settlement_alike represents lawful found account payout e.unclaimedWinStake)
  refine .ite _ (fun _ => ?_) (fun _ => ?_)
  · refine mapGet_alike (fun _ => trivial) .yesStake account rfl ?_
    exact checked_alike _ (fun unclaimed _ => settlement_alike represents lawful found account payout unclaimed)
  · refine mapGet_alike (fun _ => trivial) .noStake account rfl ?_
    exact checked_alike _ (fun unclaimed _ => settlement_alike represents lawful found account payout unclaimed)

omit represents lawful in
/-- Creating an event only stores its record. -/
theorem createEvent_alike (env : Env) (resolver : AccountId) (closesAt : U64) :
    Simulates Failed (Alike (Fresh storage events state)) (createEvent env resolver closesAt) (createEvent env resolver closesAt)
      (fun a b world world' => a = b ∧ a = state.nextEventId ∧ ∃ nextEventId, Checked.add state.nextEventId 1 = some nextEventId ∧
        Alike (Created storage events state resolver closesAt nextEventId) world world') := by
  refine require_alike _ _ (fun _ => ?_)
  rintro ⟨contract, logs, promises⟩ ⟨contract', logs', promises'⟩ ⟨⟨fresh, same⟩, told, scheduled⟩
  cases fresh
  cases same
  rw [EStateM.bind_apply, EStateM.bind_apply, EStateM.get_apply, EStateM.get_apply]
  dsimp only
  cases next : Checked.add contract'.nextEventId 1 with
  | none => exact .error (by exact told)
  | some nextEventId =>
    refine .ok ⟨rfl, rfl, nextEventId, rfl, ⟨rfl, rfl⟩, ?_, scheduled⟩
    change logs ++ _ = logs' ++ _
    rw [show logs = logs' from told]

variable {α : Type}

theorem getEventView_alike :
    Simulates Failed (Alike (Fresh storage events state)) (getEventView eventId) (getEventView eventId) (fun a b _ _ => a = b) :=
  event_alike represents lawful (fun _ _ => .pure (fun _ _ _ => rfl))

theorem liabilityOf_alike :
    Simulates Failed (Alike (Fresh storage events state)) (liabilityOf eventId) (liabilityOf eventId) (fun a b _ _ => a = b) :=
  event_alike represents lawful (fun _ _ => .pure (fun _ _ _ => rfl))

theorem payoutOf_alike (account : AccountId) :
    Simulates Failed (Alike (Fresh storage events state)) (payoutOf eventId account) (payoutOf eventId account)
      (fun a b _ _ => a = b) :=
  event_alike represents lawful (fun _ _ =>
    (payoutInner_alike account).weaken (fun _ _ alike => alike) (fun _ _ _ _ holds => holds.1))

theorem isVoidable_alike (env : Env) :
    Simulates Failed (Alike (Fresh storage events state)) (isVoidable env eventId) (isVoidable env eventId) (fun a b _ _ => a = b) := by
  refine getEvent_alike represents lawful ?_
  cases state.events.lookup eventId with
  | none => exact .pure (fun _ _ _ => rfl)
  | some e =>
    refine .ite _ (fun _ => ?_) (fun _ => .pure (fun _ _ _ => rfl))
    exact checked_alike _ (fun voidableAt _ => .pure (fun _ _ _ => rfl))

end Methods
end NearRewards.Contract
