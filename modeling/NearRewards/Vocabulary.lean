/-! The words the contract and its off-chain mirror share. -/

namespace NearRewards

abbrev AccountId := String

/-- `unresolved` is the default, so a fresh event starts unresolved. -/
inductive Outcome where
  | unresolved
  | yes
  | no
  deriving DecidableEq, Repr, Inhabited

/-- `Open` is a keyword here, hence `opened`. -/
inductive Phase where
  | opened
  | resolved
  | settled
  | voided
  deriving DecidableEq, Repr, Inhabited

/-- The name a value has outside the program: the mirror's enum values, and the contract's
serialized variants. -/
def Outcome.value : Outcome → String
  | .unresolved => "Unresolved"
  | .yes => "Yes"
  | .no => "No"

def Phase.value : Phase → String
  | .opened => "Open"
  | .resolved => "Resolved"
  | .settled => "Settled"
  | .voided => "Voided"

/-- Seven days, in nanoseconds. -/
def voidGraceNs : Nat := 7 * 24 * 60 * 60 * 1000000000

end NearRewards
