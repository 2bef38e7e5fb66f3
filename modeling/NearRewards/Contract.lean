import NearRewards.Library.Borsh
import NearRewards.Library.Checked
import NearRewards.Vocabulary

/-! The on-chain settlement core. A method reads and writes the contract, writes log lines
and schedules transfers; it either returns or aborts, and the runtime discards what an
aborted method wrote. The methods are written once, over whatever implements the
persistent collections they use. -/

namespace NearRewards.Contract

abbrev U64 := BitVec 64
abbrev U128 := BitVec 128

/-- `VOID_GRACE_NS`, as the `u64` the contract adds to a close time. -/
def voidGrace : U64 := BitVec.ofNat 64 voidGraceNs

/-- A failed `require!`, `expect` or `panic_str` carries its message. Integer operators
abort when they overflow, as the release profile sets. -/
inductive Abort where
  | panicked (message : String)
  | overflow
  deriving DecidableEq, Repr

/-- What `env` reports about the call being executed. -/
structure Env where
  predecessorAccountId : AccountId
  attachedDeposit : U128
  blockTimestamp : U64
  deriving DecidableEq, Repr

/-- The log lines, with the values each one prints. -/
inductive Record where
  | eventCreated (id : U64) (resolver : AccountId) (closesAt : U64)
  | positionTaken (id : U64) (account : AccountId) (side : Outcome) (amount : U128)
  | eventResolved (id : U64) (outcome : Outcome) (poolYes poolNo : U128)
  | eventVoided (id : U64) (escrow : U128)
  | settled (id : U64) (account : AccountId) (payout : U128)
  | eventFinalized (id : U64)
  deriving DecidableEq, Repr

structure Transfer where
  account : AccountId
  amount : U128
  deriving DecidableEq, Repr

structure EventContract (Map : Type → Type) where
  resolver : AccountId
  closesAt : U64
  phase : Phase
  outcome : Outcome
  poolYes : U128
  poolNo : U128
  escrow : U128
  unclaimedWinStake : U128
  yesStake : Map U128
  noStake : Map U128
  claimed : Map Bool

structure EventView where
  resolver : AccountId
  closesAt : U64
  phase : Phase
  outcome : Outcome
  poolYes : U128
  poolNo : U128
  escrow : U128
  unclaimedWinStake : U128
  deriving DecidableEq, Repr

/-- The contract's persistent collections: the map of events, and the maps of accounts
each event opens by prefix. Reading fails when a stored value does not deserialize. -/
class Collections (Store : Type) (Map : outParam (Type → Type)) where
  getEvent : Store → U64 → Except Abort (Option (EventContract Map))
  insertEvent : Store → U64 → EventContract Map → Store
  openMap : {V : Type} → Bytes → Map V
  get : {V : Type} → [Borsh V] → Store → Map V → AccountId → Except Abort (Option V)
  insert : {V : Type} → [Borsh V] → Store → Map V → AccountId → V → Store × Map V

structure Settlemint (Store : Type) where
  nextEventId : U64
  events : Store

/-- The contract a method works on, and the effects it has had so far. -/
structure World (Store : Type) where
  contract : Settlemint Store
  logs : List Record := []
  promises : List Transfer := []

abbrev Method (Store : Type) := EStateM Abort (World Store)

section Primitives
variable {Store : Type} {α : Type}

def require (condition : Prop) [Decidable condition] (message : String) : Method Store Unit :=
  if condition then pure () else throw (.panicked message)

def expect (value : Option α) (message : String) : Method Store α :=
  match value with
  | some found => pure found
  | none => throw (.panicked message)

/-- The result of an integer operator, which aborts when it overflows. -/
def checked (value : Option α) : Method Store α :=
  match value with
  | some result => pure result
  | none => throw .overflow

def logStr (record : Record) : Method Store Unit :=
  modify fun world => { world with logs := world.logs ++ [record] }

def transfer (account : AccountId) (amount : U128) : Method Store Unit :=
  modify fun world => { world with promises := world.promises ++ [⟨account, amount⟩] }

variable {Map : Type → Type} [Collections Store Map] {V : Type} [Borsh V]

def fetch (reading : Store → Except Abort α) : Method Store α := do
  match reading (← get).contract.events with
  | .ok value => pure value
  | .error abort => throw abort

def getEvent (eventId : U64) : Method Store (Option (EventContract Map)) :=
  fetch fun store => Collections.getEvent store eventId

def insertEvent (eventId : U64) (e : EventContract Map) : Method Store Unit :=
  modify fun world =>
    { world with contract := { world.contract with events := Collections.insertEvent world.contract.events eventId e } }

def mapGet (map : Map V) (account : AccountId) : Method Store (Option V) :=
  fetch fun store => Collections.get store map account

def mapInsert (map : Map V) (account : AccountId) (value : V) : Method Store (Map V) :=
  modifyGet fun world =>
    let (events, map) := Collections.insert world.contract.events map account value
    (map, { world with contract := { world.contract with events } })

end Primitives

/-- `key`: a prefix byte and the event id's bytes, so two events share no subtree. -/
def key (prefixByte : UInt8) (eventId : U64) : Bytes := prefixByte :: Borsh.encode eventId

section Methods
variable {Store : Type} {Map : Type → Type} [Collections Store Map] (env : Env)

def createEvent (resolver : AccountId) (closesAt : U64) : Method Store U64 := do
  require (closesAt > env.blockTimestamp) "ClosesInPast"
  let eventId := (← get).contract.nextEventId
  let nextEventId ← checked (Checked.add eventId 1)
  modify fun world => { world with contract := { world.contract with nextEventId } }
  let e : EventContract Map :=
    { resolver, closesAt, phase := .opened, outcome := .unresolved, poolYes := 0, poolNo := 0, escrow := 0,
      unclaimedWinStake := 0,
      yesStake := Collections.openMap Store (key 0x79 eventId)
      noStake := Collections.openMap Store (key 0x6e eventId)
      claimed := Collections.openMap Store (key 0x63 eventId) }
  insertEvent eventId e
  logStr (.eventCreated eventId resolver closesAt)
  return eventId

def takePosition (eventId : U64) (side : Outcome) : Method Store Unit := do
  let e ← expect (← getEvent eventId) "UnknownEvent"
  require (e.phase = .opened) "NotOpen"
  require (env.blockTimestamp < e.closesAt) "MarketClosed"
  let amount := env.attachedDeposit
  require (amount > 0) "ZeroStake"
  let account := env.predecessorAccountId
  let e ← match side with
    | .yes => do
      let prev := (← mapGet e.yesStake account).getD 0
      let yesStake ← mapInsert e.yesStake account (← checked (Checked.add prev amount))
      let poolYes ← checked (Checked.add e.poolYes amount)
      pure { e with yesStake, poolYes }
    | .no => do
      let prev := (← mapGet e.noStake account).getD 0
      let noStake ← mapInsert e.noStake account (← checked (Checked.add prev amount))
      let poolNo ← checked (Checked.add e.poolNo amount)
      pure { e with noStake, poolNo }
    | .unresolved => throw (.panicked "InvalidSide")
  let escrow ← checked (Checked.add e.escrow amount)
  insertEvent eventId { e with escrow }
  logStr (.positionTaken eventId account side amount)

def resolve (eventId : U64) (outcome : Outcome) : Method Store Unit := do
  let e ← expect (← getEvent eventId) "UnknownEvent"
  require (env.predecessorAccountId = e.resolver) "NotResolver"
  require (outcome = .yes ∨ outcome = .no) "InvalidSide"
  require (e.phase ≠ .voided) "MarketVoided"
  require (e.phase = .opened) "AlreadyResolved"
  require (env.blockTimestamp ≥ e.closesAt) "MarketStillOpen"
  let e := { e with phase := .resolved, outcome
                    unclaimedWinStake := if outcome = .yes then e.poolYes else e.poolNo }
  insertEvent eventId e
  logStr (.eventResolved eventId outcome e.poolYes e.poolNo)

def voidEvent (eventId : U64) : Method Store Unit := do
  let e ← expect (← getEvent eventId) "UnknownEvent"
  require (e.phase = .opened) "NotOpen"
  let voidableAt ← checked (Checked.add e.closesAt voidGrace)
  require (env.blockTimestamp ≥ voidableAt) "VoidTooEarly"
  insertEvent eventId { e with phase := .voided }
  logStr (.eventVoided eventId e.escrow)

def payoutInner (e : EventContract Map) (account : AccountId) : Method Store U128 := do
  if e.phase = .opened then
    pure 0
  else if (← mapGet e.claimed account).getD false then
    pure 0
  else
    let yes := (← mapGet e.yesStake account).getD 0
    let no := (← mapGet e.noStake account).getD 0
    if e.phase = .voided then
      checked (Checked.add yes no)
    else
      let winPool := if e.outcome = .yes then e.poolYes else e.poolNo
      if winPool = 0 then
        checked (Checked.add yes no)
      else
        let mine := if e.outcome = .yes then yes else no
        if mine = 0 then
          pure 0
        else if mine ≥ e.unclaimedWinStake then
          pure e.escrow
        else
          let total ← checked (Checked.add e.poolYes e.poolNo)
          let numerator ← expect (Checked.mul total mine) "PayoutOverflow"
          pure (numerator / winPool)

def payoutOf (eventId : U64) (account : AccountId) : Method Store U128 := do
  let e ← expect (← getEvent eventId) "UnknownEvent"
  payoutInner e account

def settle (eventId : U64) (account : AccountId) : Method Store U128 := do
  let e ← expect (← getEvent eventId) "UnknownEvent"
  require (e.phase ≠ .opened) "NotResolved"
  require (¬(← mapGet e.claimed account).getD false) "AlreadyClaimed"
  let payout ← payoutInner e account
  require (payout > 0) "NothingToClaim"
  let claimed ← mapInsert e.claimed account true
  let unclaimedWinStake ←
    if e.phase = .resolved then do
      let mine ← if e.outcome = .yes then mapGet e.yesStake account else mapGet e.noStake account
      let mine := mine.getD 0
      let mine := if mine > e.unclaimedWinStake then e.unclaimedWinStake else mine
      checked (Checked.sub e.unclaimedWinStake mine)
    else pure e.unclaimedWinStake
  let escrow ← checked (Checked.sub e.escrow payout)
  let finalized := escrow = 0 ∧ e.phase = .resolved
  let phase := if finalized then .settled else e.phase
  insertEvent eventId { e with claimed, unclaimedWinStake, escrow, phase }
  transfer account payout
  logStr (.settled eventId account payout)
  if finalized then
    logStr (.eventFinalized eventId)
  return payout

def getEventView (eventId : U64) : Method Store EventView := do
  let e ← expect (← getEvent eventId) "UnknownEvent"
  return { resolver := e.resolver, closesAt := e.closesAt, phase := e.phase, outcome := e.outcome, poolYes := e.poolYes,
           poolNo := e.poolNo, escrow := e.escrow, unclaimedWinStake := e.unclaimedWinStake }

def liabilityOf (eventId : U64) : Method Store (U128 × U128) := do
  let e ← expect (← getEvent eventId) "UnknownEvent"
  return (e.escrow, e.unclaimedWinStake)

def isVoidable (eventId : U64) : Method Store Bool := do
  match ← getEvent eventId with
  | none => return false
  | some e =>
    if e.phase = .opened then do
      let voidableAt ← checked (Checked.add e.closesAt voidGrace)
      return env.blockTimestamp ≥ voidableAt
    else
      return false

end Methods
end NearRewards.Contract
