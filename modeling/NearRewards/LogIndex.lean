import NearRewards.Runtime

/-! An indexer that only sees the contract's log lines. It folds them, one by one, into its
own account of every event. -/

namespace NearRewards.Contract

/-- What the log tells about one event. -/
structure Indexed where
  resolver : AccountId
  closesAt : U64
  phase : Phase := .opened
  outcome : Outcome := .unresolved
  poolYes : ℤ := 0
  poolNo : ℤ := 0
  escrow : ℤ := 0
  unclaimedWinStake : ℤ := 0
  yesStake : Ledger AccountId ℤ := ∅
  noStake : Ledger AccountId ℤ := ∅
  claimed : Finset AccountId := ∅

abbrev LogIndex := Ledger U64 Indexed

namespace Indexed
variable (i : Indexed)

def yesOf (account : AccountId) : ℤ := (i.yesStake.lookup account).getD 0

def noOf (account : AccountId) : ℤ := (i.noStake.lookup account).getD 0

def winOf (account : AccountId) : ℤ := if i.outcome = .yes then i.yesOf account else i.noOf account

def take (account : AccountId) (side : Outcome) (amount : ℤ) : Indexed :=
  match side with
  | .yes => { i with yesStake := i.yesStake.insert account (i.yesOf account + amount)
                     poolYes := i.poolYes + amount, escrow := i.escrow + amount }
  | .no => { i with noStake := i.noStake.insert account (i.noOf account + amount)
                    poolNo := i.poolNo + amount, escrow := i.escrow + amount }
  | .unresolved => i

/-- The winning pool becomes the unclaimed stake. -/
def resolve (outcome : Outcome) : Indexed :=
  { i with phase := .resolved, outcome, unclaimedWinStake := if outcome = .yes then i.poolYes else i.poolNo }

def settle (account : AccountId) (payout : ℤ) : Indexed :=
  { i with claimed := insert account i.claimed, escrow := i.escrow - payout
           unclaimedWinStake := if i.phase = .resolved then i.unclaimedWinStake - i.winOf account else i.unclaimedWinStake }

end Indexed

namespace LogIndex

def adjust (index : LogIndex) (eventId : U64) (change : Indexed → Indexed) : LogIndex :=
  match index.lookup eventId with
  | none => index
  | some i => index.insert eventId (change i)

def tell (index : LogIndex) : Record → LogIndex
  | .eventCreated eventId resolver closesAt => index.insert eventId { resolver, closesAt }
  | .positionTaken eventId account side amount => adjust index eventId (·.take account side amount.toNat)
  | .eventResolved eventId outcome _ _ => adjust index eventId (·.resolve outcome)
  | .eventVoided eventId _ => adjust index eventId ({ · with phase := .voided })
  | .settled eventId account payout => adjust index eventId (·.settle account payout.toNat)
  | .eventFinalized eventId => adjust index eventId ({ · with phase := .settled })

/-- The index of a whole log. -/
def retell (records : List Record) : LogIndex := records.foldl tell ∅

end LogIndex

/-- The log of a run, in order. -/
def logged (inputs : List (Env × Call)) : List Record := (machine.answers machine.init inputs).flatMap Receipt.logs

/-- The text of a log line. -/
def Record.line : Record → String
  | .eventCreated id resolver closesAt =>
    "EventCreated id=" ++ toString id.toNat ++ " resolver=" ++ resolver ++ " closes_at=" ++ toString closesAt.toNat
  | .positionTaken id account side amount =>
    "PositionTaken id=" ++ toString id.toNat ++ " account=" ++ account ++ " side=" ++ side.value ++
      " amount=" ++ toString amount.toNat
  | .eventResolved id outcome poolYes poolNo =>
    "EventResolved id=" ++ toString id.toNat ++ " outcome=" ++ outcome.value ++
      " pool_yes=" ++ toString poolYes.toNat ++ " pool_no=" ++ toString poolNo.toNat
  | .eventVoided id escrow => "EventVoided id=" ++ toString id.toNat ++ " escrow=" ++ toString escrow.toNat
  | .settled id account payout =>
    "Settled id=" ++ toString id.toNat ++ " account=" ++ account ++ " payout=" ++ toString payout.toNat
  | .eventFinalized id => "EventFinalized id=" ++ toString id.toNat

/-- The log of a run as it is printed. -/
def printed (inputs : List (Env × Call)) : List String := (logged inputs).map Record.line

end NearRewards.Contract
