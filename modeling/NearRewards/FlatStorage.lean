import NearRewards.Library.Storage
import NearRewards.Runtime

/-! The contract over its flat storage. The root state is one entry; an event is a value of
the map of events, where each of its account maps is only the prefix of the map's keys. Every
call loads the root, runs on handles read back from the storage, and saves the root. -/

namespace NearRewards.Contract

instance : Borsh Outcome :=
  Borsh.enumeration
    (fun
      | .unresolved => 0
      | .yes => 1
      | .no => 2)
    (fun
      | 0 => some .unresolved
      | 1 => some .yes
      | 2 => some .no
      | _ => none)
    (fun outcome => by cases outcome <;> rfl)

instance : Borsh Phase :=
  Borsh.enumeration
    (fun
      | .opened => 0
      | .resolved => 1
      | .settled => 2
      | .voided => 3)
    (fun
      | 0 => some .opened
      | 1 => some .resolved
      | 2 => some .settled
      | 3 => some .voided
      | _ => none)
    (fun phase => by cases phase <;> rfl)

/-- An event as it is stored. -/
abbrev StoredEvent := EventContract fun _ => Bytes

instance : Borsh StoredEvent :=
  Borsh.record
    (fun e => (e.resolver, e.closesAt, e.phase, e.outcome, e.poolYes, e.poolNo, e.escrow, e.unclaimedWinStake, e.yesStake,
      e.noStake, e.claimed))
    (fun (resolver, closesAt, phase, outcome, poolYes, poolNo, escrow, unclaimedWinStake, yesStake, noStake, claimed) =>
      { resolver, closesAt, phase, outcome, poolYes, poolNo, escrow, unclaimedWinStake, yesStake, noStake, claimed })
    (fun _ => rfl)

/-- The storage, and the handle of the map of events the running call has loaded. -/
structure Flat (map : UnorderedMap U64) where
  storage : Storage
  events : map.Handle

def deserialize {α : Type} [Borsh α] : Option Bytes → Except Abort (Option α)
  | none => .ok none
  | some bytes =>
    match Borsh.decode bytes with
    | some value => .ok (some value)
    | none => .error (.panicked "Cannot deserialize value with Borsh")

variable (map : UnorderedMap U64)

instance : Collections (Flat map) (fun _ => Bytes) where
  getEvent store eventId := deserialize (map.get store.events store.storage eventId)
  insertEvent store eventId e :=
    let (storage, events) := map.insert store.events store.storage eventId (Borsh.encode e)
    { storage, events }
  openMap keyPrefix := keyPrefix
  get store keyPrefix account := deserialize (store.storage (keyPrefix ++ Borsh.encode account))
  insert store keyPrefix account value :=
    ({ store with storage := store.storage.set (keyPrefix ++ Borsh.encode account) (Borsh.encode value) }, keyPrefix)

/-- `STATE`. -/
def stateKey : Bytes := [0x53, 0x54, 0x41, 0x54, 0x45]

/-- The prefix of the map of events, `e`. -/
def eventsPrefix : UInt8 := 0x65

def load (storage : Storage) : Except Abort (Settlemint (Flat map)) :=
  match storage stateKey with
  | none => .error (.panicked "The contract is not initialized")
  | some bytes =>
    match (Borsh.decode bytes : Option (U64 × map.Handle)) with
    | none => .error (.panicked "Cannot deserialize the contract state.")
    | some (nextEventId, events) => .ok { nextEventId, events := { storage, events } }

def save (contract : Settlemint (Flat map)) : Storage :=
  contract.events.storage.set stateKey (Borsh.encode (contract.nextEventId, contract.events.events))

/-- The storage keeps nothing of a call that aborts. -/
def flatTransact (storage : Storage) (input : Env × Call) : Receipt × Storage :=
  match load map storage with
  | .error abort => (⟨.error abort, [], []⟩, storage)
  | .ok contract =>
    let (receipt, contract) := transact contract input
    match receipt.result with
    | .ok _ => (receipt, save map contract)
    | .error _ => (receipt, storage)

def flatView {α : Type} (method : Method (Flat map) α) (storage : Storage) : Except Abort α :=
  match load map storage with
  | .error abort => .error abort
  | .ok contract => view method contract

/-- `new`, on an empty storage. -/
def flatInit : Storage :=
  save map { nextEventId := 0, events := { storage := fun _ => none, events := map.new [eventsPrefix] } }

def flatMachine : Machine Storage (Env × Call) Receipt where
  init := flatInit map
  step := flatTransact map

/-- An account id is short, so its length can be written in front of it. -/
def Call.Wellformed : Call → Prop
  | .createEvent resolver _ => Borsh.Fits resolver
  | _ => True

end NearRewards.Contract
