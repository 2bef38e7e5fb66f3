import NearRewards.Contract
import NearRewards.Library.Ledger
import NearRewards.Library.Machine

/-! Running the contract: one call at a time, each with its own environment. An aborted
call leaves the state it started from. -/

namespace NearRewards.Contract

/-- The mutating calls, with the arguments each one takes. -/
inductive Call where
  | createEvent (resolver : AccountId) (closesAt : U64)
  | takePosition (eventId : U64) (side : Outcome)
  | resolve (eventId : U64) (outcome : Outcome)
  | voidEvent (eventId : U64)
  | settle (eventId : U64) (account : AccountId)
  deriving DecidableEq, Repr

inductive Value where
  | nothing
  | eventId (id : U64)
  | payout (amount : U128)
  deriving DecidableEq, Repr

def Call.name : Call → String
  | .createEvent _ _ => "create_event"
  | .takePosition _ _ => "take_position"
  | .resolve _ _ => "resolve"
  | .voidEvent _ => "void_event"
  | .settle _ _ => "settle"

/-- `#[payable]`: every other method refuses an attached deposit. -/
def Call.payable : Call → Bool
  | .takePosition _ _ => true
  | _ => false

structure Receipt where
  result : Except Abort Value
  logs : List Record
  promises : List Transfer

section Transact
variable {Store : Type} {Map : Type → Type} [Collections Store Map]

def Call.execute (env : Env) : Call → Method Store Value
  | .createEvent resolver closesAt => Value.eventId <$> Contract.createEvent env resolver closesAt
  | .takePosition eventId side => (fun _ => Value.nothing) <$> Contract.takePosition env eventId side
  | .resolve eventId outcome => (fun _ => Value.nothing) <$> Contract.resolve env eventId outcome
  | .voidEvent eventId => (fun _ => Value.nothing) <$> Contract.voidEvent env eventId
  | .settle eventId account => Value.payout <$> Contract.settle eventId account

def Call.enter (env : Env) (call : Call) : Method Store Value := do
  require (call.payable ∨ env.attachedDeposit = 0) ("Method " ++ call.name ++ " doesn't accept deposit")
  call.execute env

/-- An aborted call writes nothing and schedules nothing. Its log lines are kept, as far as
it got. -/
def transact (contract : Settlemint Store) (input : Env × Call) : Receipt × Settlemint Store :=
  match input.2.enter input.1 { contract } with
  | .ok value world => (⟨.ok value, world.logs, world.promises⟩, world.contract)
  | .error abort world => (⟨.error abort, world.logs, []⟩, contract)

/-- A view reads the contract and changes nothing. -/
def view {α : Type} (method : Method Store α) (contract : Settlemint Store) : Except Abort α :=
  match method { contract } with
  | .ok value _ => .ok value
  | .error abort _ => .error abort

end Transact

abbrev Event := EventContract (Ledger AccountId)

abbrev Events := Ledger U64 Event

abbrev State := Settlemint Events

/-- Persistent maps as values: an event holds its own maps, and nothing fails to
deserialize. -/
instance : Collections Events (Ledger AccountId) where
  getEvent events eventId := .ok (events.lookup eventId)
  insertEvent events eventId e := events.insert eventId e
  openMap _ := ∅
  get _ map account := .ok (map.lookup account)
  insert events map account value := (events, map.insert account value)

/-- `new`. -/
def Settlemint.new : State := { nextEventId := 0, events := ∅ }

def machine : Machine State (Env × Call) Receipt where
  init := .new
  step := transact

end NearRewards.Contract
