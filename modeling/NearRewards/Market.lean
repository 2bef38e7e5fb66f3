import NearRewards.Library.Ledger
import NearRewards.Library.Machine
import NearRewards.Vocabulary

/-! The off-chain mirror of the settlement core: `EventMarket`, on unbounded integers.
A method runs on the market in place. Raising does not undo anything, so what a failed
call leaves behind is whatever it had written before. -/

namespace NearRewards.Market

structure SettlementError where
  message : String
  deriving DecidableEq, Repr

structure Event where
  resolver : AccountId
  closesAt : ℤ
  phase : Phase := .opened
  outcome : Outcome := .unresolved
  poolYes : ℤ := 0
  poolNo : ℤ := 0
  escrow : ℤ := 0
  unclaimedWinStake : ℤ := 0
  yesStake : Ledger AccountId ℤ := ∅
  noStake : Ledger AccountId ℤ := ∅
  claimed : Ledger AccountId Bool := ∅

structure EventMarket where
  nextId : ℤ := 0
  events : Ledger ℤ Event := ∅

abbrev Method := EStateM SettlementError EventMarket

def raise {α : Type} (message : String) : Method α := throw ⟨message⟩

/-- `if condition: raise SettlementError(message)`. -/
def raiseIf (condition : Prop) [Decidable condition] (message : String) : Method Unit :=
  if condition then raise message else pure ()

/-- `_require`. -/
def require (eventId : ℤ) : Method Event := do
  match (← get).events.lookup eventId with
  | none => raise "UnknownEvent"
  | some e => pure e

/-- An assignment to a field of the event object: the market holds the object itself. -/
def assign (eventId : ℤ) (change : Event → Event) : Method Unit :=
  modify fun market =>
    match market.events.lookup eventId with
    | none => market
    | some e => { market with events := market.events.insert eventId (change e) }

def createEvent (resolver : AccountId) (closesAt nowNs : ℤ) : Method ℤ := do
  raiseIf (closesAt ≤ nowNs) "ClosesInPast"
  let eventId := (← get).nextId
  modify fun market => { market with nextId := market.nextId + 1 }
  modify fun market => { market with events := market.events.insert eventId { resolver, closesAt } }
  return eventId

def takePosition (eventId : ℤ) (account : AccountId) (side : Outcome) (amount nowNs : ℤ) : Method Unit := do
  let e ← require eventId
  raiseIf (e.phase ≠ .opened) "NotOpen"
  raiseIf (nowNs ≥ e.closesAt) "MarketClosed"
  raiseIf (amount ≤ 0) "ZeroStake"
  match side with
  | .yes =>
    assign eventId fun e => { e with yesStake := e.yesStake.insert account ((e.yesStake.lookup account).getD 0 + amount) }
    assign eventId fun e => { e with poolYes := e.poolYes + amount }
  | .no =>
    assign eventId fun e => { e with noStake := e.noStake.insert account ((e.noStake.lookup account).getD 0 + amount) }
    assign eventId fun e => { e with poolNo := e.poolNo + amount }
  | .unresolved => raise "InvalidSide"
  assign eventId fun e => { e with escrow := e.escrow + amount }

def resolve (eventId : ℤ) (caller : AccountId) (outcome : Outcome) (nowNs : ℤ) : Method Unit := do
  let e ← require eventId
  raiseIf (caller ≠ e.resolver) "NotResolver"
  raiseIf (¬(outcome = .yes ∨ outcome = .no)) "InvalidSide"
  raiseIf (e.phase = .voided) "MarketVoided"
  raiseIf (e.phase ≠ .opened) "AlreadyResolved"
  raiseIf (nowNs < e.closesAt) "MarketStillOpen"
  assign eventId fun e => { e with phase := .resolved }
  assign eventId fun e => { e with outcome }
  assign eventId fun e => { e with unclaimedWinStake := if outcome = .yes then e.poolYes else e.poolNo }

def voidEvent (eventId nowNs : ℤ) : Method Unit := do
  let e ← require eventId
  raiseIf (e.phase ≠ .opened) "NotOpen"
  raiseIf (nowNs < e.closesAt + voidGraceNs) "VoidTooEarly"
  assign eventId fun e => { e with phase := .voided }

def payoutInner (e : Event) (account : AccountId) : ℤ :=
  if e.phase = .opened then
    0
  else if (e.claimed.lookup account).getD false then
    0
  else
    let yes := (e.yesStake.lookup account).getD 0
    let no := (e.noStake.lookup account).getD 0
    if e.phase = .voided then
      yes + no
    else
      let winPool := if e.outcome = .yes then e.poolYes else e.poolNo
      if winPool = 0 then
        yes + no
      else
        let mine := if e.outcome = .yes then yes else no
        if mine = 0 then
          0
        else if mine ≥ e.unclaimedWinStake then
          e.escrow
        else
          let total := e.poolYes + e.poolNo
          (total * mine).fdiv winPool

def payoutOf (eventId : ℤ) (account : AccountId) : Method ℤ := do
  return payoutInner (← require eventId) account

def settle (eventId : ℤ) (account : AccountId) : Method ℤ := do
  let e ← require eventId
  raiseIf (e.phase = .opened) "NotResolved"
  raiseIf ((e.claimed.lookup account).getD false) "AlreadyClaimed"
  let payout := payoutInner e account
  raiseIf (payout = 0) "NothingToClaim"
  assign eventId fun e => { e with claimed := e.claimed.insert account true }
  if e.phase = .resolved then
    let mine := if e.outcome = .yes then (e.yesStake.lookup account).getD 0 else (e.noStake.lookup account).getD 0
    let mine := if mine > e.unclaimedWinStake then e.unclaimedWinStake else mine
    assign eventId fun e => { e with unclaimedWinStake := e.unclaimedWinStake - mine }
  assign eventId fun e => { e with escrow := e.escrow - payout }
  assign eventId fun e => if e.escrow = 0 ∧ e.phase = .resolved then { e with phase := .settled } else e
  return payout

structure EventView where
  resolver : AccountId
  closesAt : ℤ
  phase : String
  outcome : String
  poolYes : ℤ
  poolNo : ℤ
  escrow : ℤ
  unclaimedWinStake : ℤ
  deriving DecidableEq, Repr

def getEvent (eventId : ℤ) : Method EventView := do
  let e ← require eventId
  return { resolver := e.resolver, closesAt := e.closesAt, phase := e.phase.value, outcome := e.outcome.value,
           poolYes := e.poolYes, poolNo := e.poolNo, escrow := e.escrow, unclaimedWinStake := e.unclaimedWinStake }

def liabilityOf (eventId : ℤ) : Method (ℤ × ℤ) := do
  let e ← require eventId
  return (e.escrow, e.unclaimedWinStake)

def isVoidable (eventId nowNs : ℤ) : Method Bool := do
  match (← get).events.lookup eventId with
  | none => return false
  | some e => return e.phase = .opened ∧ nowNs ≥ e.closesAt + voidGraceNs

def view {α : Type} (method : Method α) (market : EventMarket) : Except SettlementError α :=
  match method market with
  | .ok value _ => .ok value
  | .error error _ => .error error

/-- The mutating calls, with the arguments each one takes. -/
inductive Call where
  | createEvent (resolver : AccountId) (closesAt nowNs : ℤ)
  | takePosition (eventId : ℤ) (account : AccountId) (side : Outcome) (amount nowNs : ℤ)
  | resolve (eventId : ℤ) (caller : AccountId) (outcome : Outcome) (nowNs : ℤ)
  | voidEvent (eventId nowNs : ℤ)
  | settle (eventId : ℤ) (account : AccountId)
  deriving DecidableEq, Repr

/-- A call returns a number or nothing. -/
def Call.execute : Call → Method (Option ℤ)
  | .createEvent resolver closesAt nowNs => some <$> Market.createEvent resolver closesAt nowNs
  | .takePosition eventId account side amount nowNs => (fun _ => none) <$> Market.takePosition eventId account side amount nowNs
  | .resolve eventId caller outcome nowNs => (fun _ => none) <$> Market.resolve eventId caller outcome nowNs
  | .voidEvent eventId nowNs => (fun _ => none) <$> Market.voidEvent eventId nowNs
  | .settle eventId account => some <$> Market.settle eventId account

abbrev Answer := Except SettlementError (Option ℤ)

/-- The market, called in sequence. A call that raises leaves its writes in place. -/
def machine : Machine EventMarket Call Answer where
  init := {}
  step market call :=
    match call.execute market with
    | .ok value final => (.ok value, final)
    | .error error final => (.error error, final)

end NearRewards.Market
