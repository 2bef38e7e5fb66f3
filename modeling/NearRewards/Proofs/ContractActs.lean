import NearRewards.Library.Effects
import NearRewards.Runtime

/-! What a call on the contract does to the one event it names, over maps as values. Each
method is shown equal to an action on that event. -/

namespace NearRewards.Contract

namespace EventContract
variable (e : Event)

def yesOf (account : AccountId) : U128 := (e.yesStake.lookup account).getD 0

def noOf (account : AccountId) : U128 := (e.noStake.lookup account).getD 0

def claimedBy (account : AccountId) : Bool := (e.claimed.lookup account).getD false

/-- The stakes and the pool of the recorded outcome's side, as the payout reads them. -/
def winOf (account : AccountId) : U128 := if e.outcome = .yes then e.yesOf account else e.noOf account

def winPool : U128 := if e.outcome = .yes then e.poolYes else e.poolNo

def add (account : AccountId) (side : Outcome) (amount : U128) : Option Event :=
  match side with
  | .yes =>
    match Checked.add (e.yesOf account) amount, Checked.add e.poolYes amount, Checked.add e.escrow amount with
    | some stake, some poolYes, some escrow => some { e with yesStake := e.yesStake.insert account stake, poolYes, escrow }
    | _, _, _ => none
  | .no =>
    match Checked.add (e.noOf account) amount, Checked.add e.poolNo amount, Checked.add e.escrow amount with
    | some stake, some poolNo, some escrow => some { e with noStake := e.noStake.insert account stake, poolNo, escrow }
    | _, _, _ => none
  | .unresolved => some e

def record (outcome : Outcome) : Event :=
  { e with phase := .resolved, outcome, unclaimedWinStake := if outcome = .yes then e.poolYes else e.poolNo }

def refund (account : AccountId) : Except Abort U128 :=
  match Checked.add (e.yesOf account) (e.noOf account) with
  | none => .error .overflow
  | some stakes => .ok stakes

def share (account : AccountId) : Except Abort U128 :=
  match Checked.add e.poolYes e.poolNo with
  | none => .error .overflow
  | some total =>
    match Checked.mul total (e.winOf account) with
    | none => .error (.panicked "PayoutOverflow")
    | some numerator => .ok (numerator / e.winPool)

def payout (account : AccountId) : Except Abort U128 :=
  if e.phase = .opened then .ok 0
  else if e.claimedBy account then .ok 0
  else if e.phase = .voided ∨ e.winPool = 0 then e.refund account
  else if e.winOf account = 0 then .ok 0
  else if e.winOf account ≥ e.unclaimedWinStake then .ok e.escrow
  else e.share account

/-- Whether paying this much out of the event makes it final. -/
def Finalizes (payout : U128) : Prop := e.escrow - payout = 0 ∧ e.phase = .resolved

instance (payout : U128) : Decidable (e.Finalizes payout) := inferInstanceAs (Decidable (_ ∧ _))

def pay (account : AccountId) (payout : U128) : Option Event :=
  let mine := if e.winOf account > e.unclaimedWinStake then e.unclaimedWinStake else e.winOf account
  match if e.phase = .resolved then Checked.sub e.unclaimedWinStake mine else some e.unclaimedWinStake,
    Checked.sub e.escrow payout with
  | some unclaimedWinStake, some escrow =>
    some { e with claimed := e.claimed.insert account true, unclaimedWinStake, escrow
                  phase := if e.Finalizes payout then .settled else e.phase }
  | _, _ => none

end EventContract

/-- What an action returns, the event it leaves, and what it emits. -/
structure Effect (α : Type) where
  value : α
  event : Event
  records : List Record
  transfers : List Transfer := []

def Effect.map {α β : Type} (f : α → β) (effect : Effect α) : Effect β := { effect with value := f effect.value }

def stakeAct (env : Env) (eventId : U64) (side : Outcome) (e : Event) : Except Abort (Effect Unit) :=
  if ¬e.phase = .opened then .error (.panicked "NotOpen")
  else if ¬env.blockTimestamp < e.closesAt then .error (.panicked "MarketClosed")
  else if ¬env.attachedDeposit > 0 then .error (.panicked "ZeroStake")
  else if side = .unresolved then .error (.panicked "InvalidSide")
  else
    match e.add env.predecessorAccountId side env.attachedDeposit with
    | none => .error .overflow
    | some final => .ok ⟨(), final, [.positionTaken eventId env.predecessorAccountId side env.attachedDeposit], []⟩

def resolveAct (env : Env) (eventId : U64) (outcome : Outcome) (e : Event) : Except Abort (Effect Unit) :=
  if ¬env.predecessorAccountId = e.resolver then .error (.panicked "NotResolver")
  else if ¬(outcome = .yes ∨ outcome = .no) then .error (.panicked "InvalidSide")
  else if ¬e.phase ≠ .voided then .error (.panicked "MarketVoided")
  else if ¬e.phase = .opened then .error (.panicked "AlreadyResolved")
  else if ¬env.blockTimestamp ≥ e.closesAt then .error (.panicked "MarketStillOpen")
  else .ok ⟨(), e.record outcome, [.eventResolved eventId outcome e.poolYes e.poolNo], []⟩

def voidAct (env : Env) (eventId : U64) (e : Event) : Except Abort (Effect Unit) :=
  if ¬e.phase = .opened then .error (.panicked "NotOpen")
  else
    match Checked.add e.closesAt voidGrace with
    | none => .error .overflow
    | some voidableAt =>
      if ¬env.blockTimestamp ≥ voidableAt then .error (.panicked "VoidTooEarly")
      else .ok ⟨(), { e with phase := .voided }, [.eventVoided eventId e.escrow], []⟩

def settleAct (eventId : U64) (account : AccountId) (e : Event) : Except Abort (Effect U128) :=
  if ¬e.phase ≠ .opened then .error (.panicked "NotResolved")
  else if e.claimedBy account then .error (.panicked "AlreadyClaimed")
  else
    match e.payout account with
    | .error abort => .error abort
    | .ok payout =>
      if ¬payout > 0 then .error (.panicked "NothingToClaim")
      else
        match e.pay account payout with
        | none => .error .overflow
        | some final => .ok ⟨payout, final,
            .settled eventId account payout :: if e.Finalizes payout then [.eventFinalized eventId] else [], [⟨account, payout⟩]⟩

/-- Look the event up, act on it, and store it again with what the action emits. -/
def onEvent {α : Type} (eventId : U64) (act : Event → Except Abort (Effect α)) : Method Events α := fun world =>
  match world.contract.events.lookup eventId with
  | none => .error (.panicked "UnknownEvent") world
  | some e =>
    match act e with
    | .error abort => .error abort world
    | .ok effect =>
      .ok effect.value
        { contract := { world.contract with events := world.contract.events.insert eventId effect.event }
          logs := world.logs ++ effect.records
          promises := world.promises ++ effect.transfers }

section Runs
variable {α : Type} {eventId : U64} {world : World Events} {e : Event}

@[simp] theorem require_bind (condition : Prop) [Decidable condition] (message : String) (next : Unit → Method Events α)
    (world : World Events) :
    (require condition message >>= next) world =
      if ¬condition then .error (.panicked message) world else next () world := by
  unfold require
  by_cases holds : condition
  · simp only [not_true_eq_false, if_false, holds]
    rfl
  · simp only [if_true, not_false_eq_true, holds]
    rfl

@[simp] theorem pure_bind_apply {β : Type} (value : β) (next : β → Method Events α) (world : World Events) :
    ((pure value : Method Events β) >>= next) world = next value world := rfl

@[simp] theorem checked_bind {β : Type} (value : Option β) (next : β → Method Events α) (world : World Events) :
    (checked value >>= next) world =
      match value with
      | none => .error .overflow world
      | some result => next result world := by
  cases value <;> rfl

@[simp] theorem mapGet_bind {V : Type} [Borsh V] (map : Ledger AccountId V) (account : AccountId)
    (next : Option V → Method Events α) (world : World Events) :
    (mapGet map account >>= next) world = next (map.lookup account) world := rfl

@[simp] theorem mapInsert_bind {V : Type} [Borsh V] (map : Ledger AccountId V) (account : AccountId) (value : V)
    (next : Ledger AccountId V → Method Events α) (world : World Events) :
    (mapInsert map account value >>= next) world = next (map.insert account value) world := rfl

@[simp] theorem insertEvent_bind (e : Event) (next : Unit → Method Events α) (world : World Events) :
    (insertEvent eventId e >>= next) world =
      next () { world with contract := { world.contract with events := world.contract.events.insert eventId e } } := rfl

@[simp] theorem logStr_bind (record : Record) (next : Unit → Method Events α) (world : World Events) :
    (logStr record >>= next) world = next () { world with logs := world.logs ++ [record] } := rfl

@[simp] theorem logStr_apply (record : Record) (world : World Events) :
    (logStr record : Method Events Unit) world = .ok () { world with logs := world.logs ++ [record] } := rfl

@[simp] theorem transfer_bind (account : AccountId) (amount : U128) (next : Unit → Method Events α) (world : World Events) :
    (transfer account amount >>= next) world =
      next () { world with promises := world.promises ++ [⟨account, amount⟩] } := rfl

theorem found_bind (next : Event → Method Events α) (found : world.contract.events.lookup eventId = some e) :
    ((getEvent eventId >>= fun found => expect found "UnknownEvent" >>= next) : Method Events α) world = next e world := by
  have got : (getEvent eventId : Method Events (Option Event)) world = .ok (some e) world := by
    rw [← found]
    rfl
  rw [EStateM.bind_apply, got]
  rfl

theorem missing_bind (next : Event → Method Events α) (missing : world.contract.events.lookup eventId = none) :
    ((getEvent eventId >>= fun found => expect found "UnknownEvent" >>= next) : Method Events α) world =
      .error (.panicked "UnknownEvent") world := by
  have got : (getEvent eventId : Method Events (Option Event)) world = .ok none world := by
    rw [← missing]
    rfl
  rw [EStateM.bind_apply, got]
  rfl

end Runs

theorem takePosition_eq (env : Env) (eventId : U64) (side : Outcome) :
    takePosition env eventId side = onEvent eventId (stakeAct env eventId side) := by
  funext world
  cases found : world.contract.events.lookup eventId with
  | none => simp only [takePosition, missing_bind _ found, onEvent, found]
  | some e =>
    simp only [takePosition, found_bind _ found, require_bind, onEvent, found, stakeAct]
    split_ifs with _ _ _ unresolved
    all_goals first | rfl | skip
    · subst unresolved
      rfl
    · cases side with
      | unresolved => exact absurd rfl unresolved
      | yes =>
        simp only [mapGet_bind, checked_bind, mapInsert_bind, pure_bind_apply, EventContract.add, EventContract.yesOf]
        cases Checked.add ((e.yesStake.lookup env.predecessorAccountId).getD 0) env.attachedDeposit
        all_goals cases Checked.add e.poolYes env.attachedDeposit
        all_goals cases Checked.add e.escrow env.attachedDeposit
        all_goals simp
      | no =>
        simp only [mapGet_bind, checked_bind, mapInsert_bind, pure_bind_apply, EventContract.add, EventContract.noOf]
        cases Checked.add ((e.noStake.lookup env.predecessorAccountId).getD 0) env.attachedDeposit
        all_goals cases Checked.add e.poolNo env.attachedDeposit
        all_goals cases Checked.add e.escrow env.attachedDeposit
        all_goals simp

theorem resolve_eq (env : Env) (eventId : U64) (outcome : Outcome) :
    resolve env eventId outcome = onEvent eventId (resolveAct env eventId outcome) := by
  funext world
  cases found : world.contract.events.lookup eventId with
  | none => simp only [resolve, missing_bind _ found, onEvent, found]
  | some e =>
    simp only [resolve, found_bind _ found, require_bind, onEvent, found, resolveAct]
    split_ifs
    all_goals first | rfl | simp [EventContract.record, *]

theorem voidEvent_eq (env : Env) (eventId : U64) :
    voidEvent env eventId = onEvent eventId (voidAct env eventId) := by
  funext world
  cases found : world.contract.events.lookup eventId with
  | none => simp only [voidEvent, missing_bind _ found, onEvent, found]
  | some e =>
    unfold voidEvent voidAct
    -- the grace period stays a variable, for the kernel would count up to it
    generalize voidGrace = grace
    simp only [found_bind _ found, require_bind, onEvent, found]
    generalize Checked.add e.closesAt grace = voidableAt
    split_ifs
    · cases voidableAt with
      | none => rfl
      | some voidableAt =>
        simp only [checked_bind, require_bind]
        split_ifs <;> simp
    · rfl

theorem refund_apply (e : Event) (account : AccountId) (world : World Events) :
    (checked (Checked.add (e.yesOf account) (e.noOf account)) : Method Events U128) world =
      match e.refund account with
      | .error abort => .error abort world
      | .ok stakes => .ok stakes world := by
  unfold EventContract.refund
  cases Checked.add (e.yesOf account) (e.noOf account) <;> rfl

theorem payoutInner_apply (e : Event) (account : AccountId) (world : World Events) :
    (payoutInner e account : Method Events U128) world =
      match e.payout account with
      | .error abort => .error abort world
      | .ok payout => .ok payout world := by
  unfold payoutInner EventContract.payout
  by_cases opened : e.phase = .opened
  · simp only [if_pos opened]
    rfl
  simp only [if_neg opened, mapGet_bind]
  change (if e.claimedBy account then _ else _ : Method Events U128) world = _
  by_cases claimed : e.claimedBy account = true
  · simp only [if_pos claimed]
    rfl
  simp only [if_neg claimed, mapGet_bind]
  change (if e.phase = .voided then checked (Checked.add (e.yesOf account) (e.noOf account))
    else if e.winPool = 0 then checked (Checked.add (e.yesOf account) (e.noOf account))
    else if e.winOf account = 0 then pure 0 else _ : Method Events U128) world = _
  by_cases refund : e.phase = .voided ∨ e.winPool = 0
  · rw [if_pos refund, ← refund_apply]
    rcases refund with voided | nobody
    · rw [if_pos voided]
    · rw [if_pos nobody, ite_self]
  simp only [if_neg refund, if_neg (fun voided => refund (Or.inl voided)), if_neg (fun nobody => refund (Or.inr nobody))]
  change (if e.winOf account = 0 then pure 0 else if e.winOf account ≥ e.unclaimedWinStake then pure e.escrow
    else checked (Checked.add e.poolYes e.poolNo) >>= fun total =>
      expect (Checked.mul total (e.winOf account)) "PayoutOverflow" >>= fun numerator =>
        pure (numerator / e.winPool) : Method Events U128) world = _
  split_ifs
  · rfl
  · rfl
  · rw [checked_bind, EventContract.share]
    cases Checked.add e.poolYes e.poolNo with
    | none => rfl
    | some total =>
      dsimp only
      cases Checked.mul total (e.winOf account) <;> rfl

/-- The writes and emissions of a settlement, from the stake it takes off the unclaimed. -/
private theorem settle_tail (eventId : U64) (account : AccountId) (payout : U128) (e : Event) (world : World Events)
    {unclaimed : Option U128}
    (taken : (if e.phase = .resolved then Checked.sub e.unclaimedWinStake
      (if e.winOf account > e.unclaimedWinStake then e.unclaimedWinStake else e.winOf account)
      else some e.unclaimedWinStake) = unclaimed) :
    (do
      let unclaimedWinStake ← checked unclaimed
      let escrow ← checked (Checked.sub e.escrow payout)
      insertEvent eventId { e with
        claimed := e.claimed.insert account true, unclaimedWinStake, escrow
        phase := if escrow = 0 ∧ e.phase = .resolved then .settled else e.phase }
      transfer account payout
      logStr (.settled eventId account payout)
      if escrow = 0 ∧ e.phase = .resolved then do
        logStr (.eventFinalized eventId)
        pure payout
      else pure payout : Method Events U128) world =
      match e.pay account payout with
      | none => .error .overflow world
      | some final =>
        .ok payout
          { contract := { world.contract with events := world.contract.events.insert eventId final }
            logs := world.logs ++ (.settled eventId account payout :: if e.Finalizes payout then [.eventFinalized eventId] else [])
            promises := world.promises ++ [⟨account, payout⟩] } := by
  simp only [EventContract.pay, taken, checked_bind]
  cases unclaimed with
  | none => rfl
  | some unclaimedWinStake =>
    cases left : Checked.sub e.escrow payout with
    | none => rfl
    | some escrow =>
      have difference := Checked.eq_of_sub_eq_some left
      subst difference
      simp only [insertEvent_bind, transfer_bind, logStr_bind]
      by_cases final : e.Finalizes payout
      · have emptied : e.escrow - payout = 0 ∧ e.phase = .resolved := final
        simp only [if_pos final, if_pos emptied, logStr_bind, List.append_assoc]
        rfl
      · have more : ¬(e.escrow - payout = 0 ∧ e.phase = .resolved) := final
        simp only [if_neg final, if_neg more]
        rfl

theorem settle_eq (eventId : U64) (account : AccountId) :
    settle eventId account = onEvent eventId (settleAct eventId account) := by
  funext world
  cases found : world.contract.events.lookup eventId with
  | none => simp only [settle, missing_bind _ found, onEvent, found]
  | some e =>
    simp only [settle, found_bind _ found, require_bind, mapGet_bind, onEvent, found, settleAct]
    by_cases opened : e.phase = .opened
    · simp only [opened, ne_eq, not_true_eq_false, not_false_eq_true, if_true]
    simp only [ne_eq, opened, not_false_eq_true, not_true_eq_false, if_false, not_not]
    change (if e.claimedBy account then _ else _) = _
    by_cases claimed : e.claimedBy account = true
    · simp only [if_pos claimed]
    rw [if_neg claimed, if_neg claimed, EStateM.bind_apply, payoutInner_apply]
    cases e.payout account with
    | error abort => rfl
    | ok payout =>
      dsimp only
      rw [require_bind]
      by_cases positive : payout > 0
      · rw [if_neg (not_not.mpr positive), if_neg (not_not.mpr positive), mapInsert_bind]
        have tail := settle_tail eventId account payout e world rfl
        by_cases resolved : e.phase = .resolved
        · rw [if_pos resolved] at tail
          rw [if_pos resolved]
          by_cases yes : e.outcome = .yes
          · rw [if_pos yes, mapGet_bind]
            have mine : e.winOf account = e.yesOf account := if_pos yes
            rw [mine] at tail
            refine tail.trans ?_
            cases e.pay account payout <;> rfl
          · rw [if_neg yes, mapGet_bind]
            have mine : e.winOf account = e.noOf account := if_neg yes
            rw [mine] at tail
            refine tail.trans ?_
            cases e.pay account payout <;> rfl
        · rw [if_neg resolved] at tail
          rw [if_neg resolved]
          refine tail.trans ?_
          cases e.pay account payout <;> rfl
      · rw [if_pos positive, if_pos positive]

theorem voidGrace_toNat : voidGrace.toNat = voidGraceNs := by
  decide

/-- How a transaction on one event ends. -/
def conclude {α : Type} (state : State) (eventId : U64) (value : α → Value) (act : Event → Except Abort (Effect α)) :
    Receipt × State :=
  match state.events.lookup eventId with
  | none => (⟨.error (.panicked "UnknownEvent"), [], []⟩, state)
  | some e =>
    match act e with
    | .error abort => (⟨.error abort, [], []⟩, state)
    | .ok effect =>
      (⟨.ok (value effect.value), effect.records, effect.transfers⟩,
        { state with events := state.events.insert eventId effect.event })

/-- The runtime lets the call through: only `take_position` takes a deposit. -/
def Accepts (env : Env) (call : Call) : Prop := call.payable ∨ env.attachedDeposit = 0

instance (env : Env) (call : Call) : Decidable (Accepts env call) := inferInstanceAs (Decidable (_ ∨ _))

def refusal (call : Call) : Abort := .panicked ("Method " ++ call.name ++ " doesn't accept deposit")

def Settlemint.create (state : State) (resolver : AccountId) (closesAt nextEventId : U64) : State :=
  { nextEventId
    events := state.events.insert state.nextEventId
      { resolver, closesAt, phase := .opened, outcome := .unresolved, poolYes := 0, poolNo := 0, escrow := 0,
        unclaimedWinStake := 0, yesStake := ∅, noStake := ∅, claimed := ∅ } }

section Transactions
variable (state : State) (env : Env)

private theorem transact_enter (call : Call) : transact state (env, call) =
    if ¬(call.payable ∨ env.attachedDeposit = 0) then (⟨.error (refusal call), [], []⟩, state)
    else
      match (call.execute env : Method Events Value) { contract := state } with
      | .ok value world => (⟨.ok value, world.logs, world.promises⟩, world.contract)
      | .error abort world => (⟨.error abort, world.logs, []⟩, state) := by
  unfold transact Call.enter
  dsimp only
  rw [require_bind]
  by_cases accepted : call.payable ∨ env.attachedDeposit = 0
  · rw [if_neg (not_not.mpr accepted), if_neg (not_not.mpr accepted)]
    cases (call.execute env : Method Events Value) { contract := state } <;> rfl
  · rw [if_pos accepted, if_pos accepted]
    rfl

theorem transact_refused {call : Call} (refused : ¬Accepts env call) :
    transact state (env, call) = (⟨.error (refusal call), [], []⟩, state) := by
  rw [transact_enter]
  exact if_pos refused

private theorem onEvent_conclude {α : Type} (eventId : U64) (value : α → Value) (act : Event → Except Abort (Effect α)) :
    (match (value <$> onEvent eventId act : Method Events Value) { contract := state } with
      | .ok value world => (⟨.ok value, world.logs, world.promises⟩, world.contract)
      | .error abort world => ((⟨.error abort, world.logs, []⟩, state) : Receipt × State)) =
      conclude state eventId value act := by
  rw [EStateM.map_apply]
  unfold onEvent conclude
  dsimp only
  cases state.events.lookup eventId with
  | none => rfl
  | some e =>
    dsimp only
    cases act e <;> rfl

theorem transact_takePosition (eventId : U64) (side : Outcome) :
    transact state (env, .takePosition eventId side) =
      conclude state eventId (fun _ => .nothing) (stakeAct env eventId side) := by
  rw [transact_enter, if_neg (by simp [Call.payable]), Call.execute, takePosition_eq, onEvent_conclude]

theorem transact_resolve (eventId : U64) (outcome : Outcome) :
    transact state (env, .resolve eventId outcome) =
      if ¬env.attachedDeposit = 0 then (⟨.error (refusal (.resolve eventId outcome)), [], []⟩, state)
      else conclude state eventId (fun _ => .nothing) (resolveAct env eventId outcome) := by
  rw [transact_enter, Call.execute, resolve_eq, onEvent_conclude]
  simp [Call.payable]

theorem transact_voidEvent (eventId : U64) :
    transact state (env, .voidEvent eventId) =
      if ¬env.attachedDeposit = 0 then (⟨.error (refusal (.voidEvent eventId)), [], []⟩, state)
      else conclude state eventId (fun _ => .nothing) (voidAct env eventId) := by
  rw [transact_enter, Call.execute, voidEvent_eq, onEvent_conclude]
  simp [Call.payable]

theorem transact_settle (eventId : U64) (account : AccountId) :
    transact state (env, .settle eventId account) =
      if ¬env.attachedDeposit = 0 then (⟨.error (refusal (.settle eventId account)), [], []⟩, state)
      else conclude state eventId .payout (settleAct eventId account) := by
  rw [transact_enter, Call.execute, settle_eq, onEvent_conclude]
  simp [Call.payable]

theorem transact_createEvent (resolver : AccountId) (closesAt : U64) :
    transact state (env, .createEvent resolver closesAt) =
      if ¬env.attachedDeposit = 0 then (⟨.error (refusal (.createEvent resolver closesAt)), [], []⟩, state)
      else if ¬closesAt > env.blockTimestamp then (⟨.error (.panicked "ClosesInPast"), [], []⟩, state)
      else
        match Checked.add state.nextEventId 1 with
        | none => (⟨.error .overflow, [], []⟩, state)
        | some nextEventId =>
          (⟨.ok (.eventId state.nextEventId), [.eventCreated state.nextEventId resolver closesAt], []⟩,
            state.create resolver closesAt nextEventId) := by
  rw [transact_enter, Call.execute, EStateM.map_apply, createEvent]
  simp only [Call.payable, require_bind, Bool.false_eq_true, false_or]
  split_ifs
  all_goals first | rfl | skip
  rw [EStateM.bind_apply]
  dsimp only [EStateM.get_apply]
  rw [checked_bind]
  cases Checked.add state.nextEventId 1 <;> rfl

end Transactions

section Views
variable (state : State) (eventId : U64)

private theorem view_found {α : Type} (next : Event → Method Events α) :
    view (getEvent eventId >>= fun found => expect found "UnknownEvent" >>= next) state =
      match state.events.lookup eventId with
      | none => .error (.panicked "UnknownEvent")
      | some e => view (next e) state := by
  let world : World Events := { contract := state }
  unfold view
  cases found : world.contract.events.lookup eventId with
  | none => rw [missing_bind _ found]
  | some e => rw [found_bind _ found]

theorem view_getEventView : view (getEventView eventId) state =
    match state.events.lookup eventId with
    | none => .error (.panicked "UnknownEvent")
    | some e => .ok { resolver := e.resolver, closesAt := e.closesAt, phase := e.phase, outcome := e.outcome,
                      poolYes := e.poolYes, poolNo := e.poolNo, escrow := e.escrow,
                      unclaimedWinStake := e.unclaimedWinStake } :=
  view_found state eventId _

theorem view_liabilityOf : view (liabilityOf eventId) state =
    match state.events.lookup eventId with
    | none => .error (.panicked "UnknownEvent")
    | some e => .ok (e.escrow, e.unclaimedWinStake) :=
  view_found state eventId _

theorem view_payoutOf (account : AccountId) : view (payoutOf eventId account) state =
    match state.events.lookup eventId with
    | none => .error (.panicked "UnknownEvent")
    | some e => e.payout account := by
  unfold payoutOf
  rw [view_found]
  cases state.events.lookup eventId with
  | none => rfl
  | some e =>
    dsimp only
    rw [view, payoutInner_apply]
    cases e.payout account <;> rfl

theorem view_isVoidable (env : Env) : view (isVoidable env eventId) state =
    match state.events.lookup eventId with
    | none => .ok false
    | some e =>
      if e.phase = .opened then
        match Checked.add e.closesAt voidGrace with
        | none => .error .overflow
        | some voidableAt => .ok (decide (env.blockTimestamp ≥ voidableAt))
      else .ok false := by
  have got : (getEvent eventId : Method Events (Option Event)) { contract := state } =
      .ok (state.events.lookup eventId) { contract := state } := rfl
  unfold view isVoidable
  generalize voidGrace = grace
  rw [EStateM.bind_apply, got]
  cases state.events.lookup eventId with
  | none => rfl
  | some e =>
    dsimp only
    by_cases opened : e.phase = .opened
    · rw [if_pos opened, if_pos opened]
      generalize Checked.add e.closesAt grace = voidableAt
      cases voidableAt <;> rfl
    · rw [if_neg opened, if_neg opened]
      rfl

end Views

section Inversion
variable {env : Env} {eventId : U64} {account : AccountId} {side outcome : Outcome} {e : Event}

theorem stakeAct_ok {effect : Effect Unit} : stakeAct env eventId side e = .ok effect ↔
    e.phase = .opened ∧ env.blockTimestamp < e.closesAt ∧ env.attachedDeposit > 0 ∧ side ≠ .unresolved ∧
      ∃ final, e.add env.predecessorAccountId side env.attachedDeposit = some final ∧
        effect = ⟨(), final, [.positionTaken eventId env.predecessorAccountId side env.attachedDeposit], []⟩ := by
  unfold stakeAct
  cases e.add env.predecessorAccountId side env.attachedDeposit <;> split_ifs <;> grind

theorem resolveAct_ok {effect : Effect Unit} : resolveAct env eventId outcome e = .ok effect ↔
    env.predecessorAccountId = e.resolver ∧ (outcome = .yes ∨ outcome = .no) ∧ e.phase = .opened ∧
      e.closesAt ≤ env.blockTimestamp ∧
      effect = ⟨(), e.record outcome, [.eventResolved eventId outcome e.poolYes e.poolNo], []⟩ := by
  unfold resolveAct
  split_ifs <;> grind

theorem voidAct_ok {effect : Effect Unit} : voidAct env eventId e = .ok effect ↔
    e.phase = .opened ∧ e.closesAt.toNat + voidGraceNs ≤ env.blockTimestamp.toNat ∧
      effect = ⟨(), { e with phase := .voided }, [.eventVoided eventId e.escrow], []⟩ := by
  have bound := env.blockTimestamp.isLt
  unfold voidAct
  cases sum : Checked.add e.closesAt voidGrace with
  | none =>
    rw [Checked.add_eq_none, voidGrace_toNat] at sum
    split_ifs <;> grind
  | some voidableAt =>
    rw [Checked.add_eq_some, voidGrace_toNat] at sum
    simp only [ge_iff_le, BitVec.le_def, sum]
    split_ifs <;> grind

theorem settleAct_ok {effect : Effect U128} : settleAct eventId account e = .ok effect ↔
    e.phase ≠ .opened ∧ e.claimedBy account = false ∧ ∃ payout final, e.payout account = .ok payout ∧ payout > 0 ∧
      e.pay account payout = some final ∧
      effect = ⟨payout, final,
        .settled eventId account payout :: if e.Finalizes payout then [.eventFinalized eventId] else [],
        [⟨account, payout⟩]⟩ := by
  unfold settleAct
  cases payable : e.payout account with
  | error abort => split_ifs <;> simp
  | ok payout =>
    cases paid : e.pay account payout with
    | none => split_ifs <;> grind
    | some final => split_ifs <;> grind

end Inversion

namespace EventContract
variable {e final : Event} {account : AccountId}

/-- Taking a stake changes the stakes, the pools and the escrow, and nothing else. -/
theorem add_frame {side : Outcome} {amount : U128} (added : e.add account side amount = some final) :
    final.resolver = e.resolver ∧ final.closesAt = e.closesAt ∧ final.phase = e.phase ∧ final.outcome = e.outcome ∧
      final.unclaimedWinStake = e.unclaimedWinStake ∧ final.claimed = e.claimed := by
  cases side with
  | unresolved =>
    cases added
    exact ⟨rfl, rfl, rfl, rfl, rfl, rfl⟩
  | yes | no =>
    simp only [add] at added
    split at added
    · cases added
      exact ⟨rfl, rfl, rfl, rfl, rfl, rfl⟩
    · cases added

/-- A stake on a side raises the account's stake, that side's pool and the escrow alike. -/
theorem add_cases {side : Outcome} {amount : U128} (chosen : side ≠ .unresolved) (added : e.add account side amount = some final) :
    ∃ stake pool escrow : U128, escrow.toNat = e.escrow.toNat + amount.toNat ∧
      ((side = .yes ∧ stake.toNat = (e.yesOf account).toNat + amount.toNat ∧ pool.toNat = e.poolYes.toNat + amount.toNat ∧
          final = { e with yesStake := e.yesStake.insert account stake, poolYes := pool, escrow }) ∨
        (side = .no ∧ stake.toNat = (e.noOf account).toNat + amount.toNat ∧ pool.toNat = e.poolNo.toNat + amount.toNat ∧
          final = { e with noStake := e.noStake.insert account stake, poolNo := pool, escrow })) := by
  cases side with
  | unresolved => exact absurd rfl chosen
  | yes =>
    simp only [add] at added
    split at added
    next stake pool escrow raised filled held =>
      rw [Checked.add_eq_some] at raised filled held
      exact ⟨stake, pool, escrow, held, Or.inl ⟨rfl, raised, filled, (Option.some.inj added).symm⟩⟩
    next => cases added
  | no =>
    simp only [add] at added
    split at added
    next stake pool escrow raised filled held =>
      rw [Checked.add_eq_some] at raised filled held
      exact ⟨stake, pool, escrow, held, Or.inr ⟨rfl, raised, filled, (Option.some.inj added).symm⟩⟩
    next => cases added

/-- Paying changes the claims, the unclaimed stake, the escrow and possibly the phase. -/
theorem pay_frame {payout : U128} (paid : e.pay account payout = some final) :
    ∃ unclaimedWinStake, final = { e with
      claimed := e.claimed.insert account true, unclaimedWinStake, escrow := e.escrow - payout
      phase := if e.Finalizes payout then .settled else e.phase } := by
  simp only [pay] at paid
  split at paid
  next unclaimed escrow _ left =>
    rw [← Checked.eq_of_sub_eq_some left]
    exact ⟨unclaimed, (Option.some.inj paid).symm⟩
  next => cases paid

theorem pay_phase {payout : U128} (paid : e.pay account payout = some final) :
    final.phase = e.phase ∨ e.phase = .resolved ∧ final.phase = .settled := by
  obtain ⟨_, rfl⟩ := pay_frame paid
  by_cases last : e.Finalizes payout
  · exact Or.inr ⟨last.2, if_pos last⟩
  · exact Or.inl (if_neg last)

theorem pay_unclaimed {payout : U128} (paid : e.pay account payout = some final) :
    final.unclaimedWinStake.toNat = if e.phase = .resolved then e.unclaimedWinStake.toNat - (e.winOf account).toNat
      else e.unclaimedWinStake.toNat := by
  simp only [pay] at paid
  split at paid
  next unclaimed escrow taken _ =>
    cases paid
    change unclaimed.toNat = _
    by_cases resolved : e.phase = .resolved
    · rw [if_pos resolved] at taken ⊢
      obtain ⟨capped, value⟩ := Checked.sub_eq_some.mp taken
      split at value
      next more =>
        have exceeds : e.unclaimedWinStake.toNat < (e.winOf account).toNat := BitVec.lt_def.mp more
        omega
      next => exact value
    · rw [if_neg resolved] at taken ⊢
      exact congrArg BitVec.toNat (Option.some.inj taken).symm
  next => cases paid

theorem pay_escrow {payout : U128} (paid : e.pay account payout = some final) :
    final.escrow.toNat + payout.toNat = e.escrow.toNat := by
  simp only [pay] at paid
  split at paid
  next unclaimed escrow _ left =>
    rw [Checked.sub_eq_some] at left
    cases paid
    dsimp only
    omega
  next => cases paid

end EventContract

/-- A call that succeeds on an event, and its effect. -/
inductive Acts (env : Env) : Call → U64 → Event → Effect Value → Prop where
  | stake {eventId side e effect} (done : stakeAct env eventId side e = .ok effect) :
      Acts env (.takePosition eventId side) eventId e (effect.map fun _ => .nothing)
  | resolve {eventId outcome e effect} (done : resolveAct env eventId outcome e = .ok effect) :
      Acts env (.resolve eventId outcome) eventId e (effect.map fun _ => .nothing)
  | void {eventId e effect} (done : voidAct env eventId e = .ok effect) :
      Acts env (.voidEvent eventId) eventId e (effect.map fun _ => .nothing)
  | settle {eventId account e effect} (done : settleAct eventId account e = .ok effect) :
      Acts env (.settle eventId account) eventId e (effect.map .payout)

theorem conclude_cases {α : Type} (state : State) (eventId : U64) (value : α → Value)
    (act : Event → Except Abort (Effect α)) :
    (∃ abort, conclude state eventId value act = (⟨.error abort, [], []⟩, state)) ∨
      ∃ e effect, state.events.lookup eventId = some e ∧ act e = .ok effect ∧
        conclude state eventId value act =
          (⟨.ok (value effect.value), effect.records, effect.transfers⟩,
            { state with events := state.events.insert eventId effect.event }) := by
  unfold conclude
  cases state.events.lookup eventId with
  | none => exact Or.inl ⟨_, rfl⟩
  | some e =>
    dsimp only
    cases acted : act e with
    | error abort => exact Or.inl ⟨abort, rfl⟩
    | ok effect => exact Or.inr ⟨e, effect, rfl, acted, rfl⟩

/-- Every transaction aborts without a trace, creates an event, or acts on one event. -/
theorem step_cases (state : State) (env : Env) (call : Call) :
    (∃ abort, machine.step state (env, call) = (⟨.error abort, [], []⟩, state)) ∨
      (∃ resolver closesAt nextEventId, call = .createEvent resolver closesAt ∧ env.attachedDeposit = 0 ∧
        env.blockTimestamp < closesAt ∧ nextEventId.toNat = state.nextEventId.toNat + 1 ∧
        machine.step state (env, call) =
          (⟨.ok (.eventId state.nextEventId), [.eventCreated state.nextEventId resolver closesAt], []⟩,
            state.create resolver closesAt nextEventId)) ∨
      ∃ eventId e effect, state.events.lookup eventId = some e ∧ Acts env call eventId e effect ∧
        machine.step state (env, call) =
          (⟨.ok effect.value, effect.records, effect.transfers⟩,
            { state with events := state.events.insert eventId effect.event }) := by
  change (∃ abort, transact state (env, call) = _) ∨ (∃ resolver closesAt nextEventId, _ ∧ _ ∧ _ ∧ _ ∧
    transact state (env, call) = _) ∨ ∃ eventId e effect, _ ∧ _ ∧ transact state (env, call) = _
  cases call with
  | createEvent resolver closesAt =>
    rw [transact_createEvent]
    split_ifs with deposit later
    · cases next : Checked.add state.nextEventId 1 with
      | none => exact Or.inl ⟨_, rfl⟩
      | some nextEventId =>
        rw [Checked.add_eq_some] at next
        exact Or.inr (Or.inl ⟨resolver, closesAt, nextEventId, rfl, deposit, later, next, rfl⟩)
    · exact Or.inl ⟨_, rfl⟩
    · exact Or.inl ⟨_, rfl⟩
  | takePosition eventId side =>
    rw [transact_takePosition]
    exact (conclude_cases state eventId _ _).imp_right fun ⟨e, effect, found, done, ran⟩ =>
      Or.inr ⟨eventId, e, effect.map _, found, .stake done, ran⟩
  | resolve eventId outcome =>
    rw [transact_resolve]
    split_ifs
    · exact (conclude_cases state eventId _ _).imp_right fun ⟨e, effect, found, done, ran⟩ =>
        Or.inr ⟨eventId, e, effect.map _, found, .resolve done, ran⟩
    · exact Or.inl ⟨_, rfl⟩
  | voidEvent eventId =>
    rw [transact_voidEvent]
    split_ifs
    · exact (conclude_cases state eventId _ _).imp_right fun ⟨e, effect, found, done, ran⟩ =>
        Or.inr ⟨eventId, e, effect.map _, found, .void done, ran⟩
    · exact Or.inl ⟨_, rfl⟩
  | settle eventId account =>
    rw [transact_settle]
    split_ifs
    · exact (conclude_cases state eventId _ _).imp_right fun ⟨e, effect, found, done, ran⟩ =>
        Or.inr ⟨eventId, e, effect.map _, found, .settle done, ran⟩
    · exact Or.inl ⟨_, rfl⟩

end NearRewards.Contract
