import NearRewards.Market

/-! The operator's offline client: it drives the market and records every call that went
through. A client method also runs in place, and what it prints into a note can raise after
the market has changed. -/

namespace NearRewards.Client

/-- What a recorded argument can be. -/
inductive Arg where
  | int (n : ℤ)
  | text (s : String)
  deriving DecidableEq, Repr

structure RunStep where
  method : String
  args : List (String × Arg)
  caller : AccountId
  result : Option ℤ
  note : String
  deriving DecidableEq, Repr

structure OfflineNearClient where
  market : Market.EventMarket := {}
  steps : List RunStep := []

/-- A call raises the market's error, or the interpreter's own `ValueError`. -/
inductive Error where
  | settlement (error : Market.SettlementError)
  | value (message : String)
  deriving DecidableEq, Repr

abbrev Method := EStateM Error OfflineNearClient

section Primitives
variable {α : Type}

def onMarket (method : Market.Method α) : Method α := fun client =>
  match method client.market with
  | .ok value market => .ok value { client with market }
  | .error error market => .error (.settlement error) { client with market }

/-- More decimal digits than the interpreter converts to a string; a limit of zero is none. -/
def TooLong (limit : ℕ) (n : ℤ) : Prop := limit ≠ 0 ∧ 10 ^ limit ≤ n.natAbs

instance (limit : ℕ) (n : ℤ) : Decidable (TooLong limit n) := inferInstanceAs (Decidable (_ ∧ _))

/-- The limit an interpreter starts with. -/
def defaultLimit : ℕ := 4300

def limitMessage (limit : ℕ) : String :=
  "Exceeds the limit (" ++ toString limit ++
    " digits) for integer string conversion; use sys.set_int_max_str_digits() to increase the limit"

/-- `str(n)`. -/
def str (limit : ℕ) (n : ℤ) : Method String :=
  if TooLong limit n then throw (.value (limitMessage limit)) else pure (toString n)

def append (step : RunStep) : Method Unit := modify fun client => { client with steps := client.steps ++ [step] }

end Primitives

section Methods
variable (limit : ℕ)

def createEvent (resolver : AccountId) (closesAt nowNs : ℤ) : Method ℤ := do
  let eventId ← onMarket (Market.createEvent resolver closesAt nowNs)
  append
    { method := "create_event"
      args := [("resolver", .text resolver), ("closes_at", .int closesAt)]
      caller := "creator.testnet"
      result := some eventId
      note := "open a Yes/No market with a named resolver" }
  return eventId

def takePosition (eventId : ℤ) (account : AccountId) (side : Outcome) (amount nowNs : ℤ) : Method Unit := do
  onMarket (Market.takePosition eventId account side amount nowNs)
  let yocto ← str limit amount
  append
    { method := "take_position"
      args := [("event_id", .int eventId), ("side", .text side.value), ("deposit", .int amount)]
      caller := account
      result := none
      note := account ++ " stakes " ++ yocto ++ " yocto on " ++ side.value }

def resolve (eventId : ℤ) (caller : AccountId) (outcome : Outcome) (nowNs : ℤ) : Method Unit := do
  onMarket (Market.resolve eventId caller outcome nowNs)
  append
    { method := "resolve"
      args := [("event_id", .int eventId), ("outcome", .text outcome.value)]
      caller
      result := none
      note := "resolver records outcome " ++ outcome.value ++ " (only after close)" }

def settle (eventId : ℤ) (account : AccountId) : Method ℤ := do
  let payout ← onMarket (Market.settle eventId account)
  let yocto ← str limit payout
  append
    { method := "settle"
      args := [("event_id", .int eventId), ("account", .text account)]
      caller := "operator.testnet"
      result := some payout
      note := "pay " ++ account ++ " their pro-rata share (" ++ yocto ++ " yocto)" }
  return payout

def voidEvent (eventId nowNs : ℤ) : Method Unit := do
  onMarket (Market.voidEvent eventId nowNs)
  append
    { method := "void_event"
      args := [("event_id", .int eventId)]
      caller := "anyone.testnet"
      result := none
      note := "resolver never showed; anyone voids after the grace window" }

/-- The client's methods take the arguments of the market's. -/
def perform : Market.Call → Method (Option ℤ)
  | .createEvent resolver closesAt nowNs => some <$> createEvent resolver closesAt nowNs
  | .takePosition eventId account side amount nowNs => (fun _ => none) <$> takePosition limit eventId account side amount nowNs
  | .resolve eventId caller outcome nowNs => (fun _ => none) <$> resolve eventId caller outcome nowNs
  | .voidEvent eventId nowNs => (fun _ => none) <$> voidEvent eventId nowNs
  | .settle eventId account => some <$> settle limit eventId account

/-- The client, called in sequence. A call that raises leaves its writes in place. -/
def offline : Machine OfflineNearClient Market.Call (Except Error (Option ℤ)) where
  init := {}
  step client call :=
    match perform limit call client with
    | .ok value final => (.ok value, final)
    | .error error final => (.error error, final)

end Methods

end NearRewards.Client
