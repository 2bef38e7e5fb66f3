import NearRewards.Client
import NearRewards.Proofs.MarketSettlement

/-! Replaying what the client recorded. The steps hold no clock, so each is replayed at a time
taken from its event's recorded close; the market they rebuild is the client's, as long as
no call failed on printing what it had already done. -/

namespace NearRewards.Client

namespace RunStep
variable (step : RunStep)

def int? (key : String) : Option ℤ :=
  match step.args.lookup key with
  | some (.int n) => some n
  | _ => none

def text? (key : String) : Option String :=
  match step.args.lookup key with
  | some (.text s) => some s
  | _ => none

def outcome? (key : String) : Option Outcome :=
  match step.text? key with
  | some "Unresolved" => some .unresolved
  | some "Yes" => some .yes
  | some "No" => some .no
  | _ => none

end RunStep

/-- The close the steps record for an event: an argument of the step that created it. -/
def closesAt? (steps : List RunStep) (eventId : ℤ) : Option ℤ :=
  steps.findSome? fun step =>
    if step.method = "create_event" ∧ step.result = some eventId then step.int? "closes_at" else none

/-- The call a step stands for, at a time derived from its event's recorded close. -/
def replayCall (steps : List RunStep) (step : RunStep) : Option Market.Call :=
  if step.method = "create_event" then do
    let closesAt ← step.int? "closes_at"
    return .createEvent (← step.text? "resolver") closesAt (closesAt - 1)
  else if step.method = "take_position" then do
    let eventId ← step.int? "event_id"
    let closesAt ← closesAt? steps eventId
    return .takePosition eventId step.caller (← step.outcome? "side") (← step.int? "deposit") (closesAt - 1)
  else if step.method = "resolve" then do
    let eventId ← step.int? "event_id"
    let closesAt ← closesAt? steps eventId
    return .resolve eventId step.caller (← step.outcome? "outcome") closesAt
  else if step.method = "settle" then do
    return .settle (← step.int? "event_id") (← step.text? "account")
  else if step.method = "void_event" then do
    let eventId ← step.int? "event_id"
    let closesAt ← closesAt? steps eventId
    return .voidEvent eventId (closesAt + voidGraceNs)
  else none

/-- The number a successful call prints into its note, if any. -/
def printed : Market.Call → Option ℤ → ℤ
  | .takePosition _ _ _ amount _, _ => amount
  | .settle _ _, value => value.getD 0
  | _, _ => 0

/-- The step a successful call records. -/
def recorded : Market.Call → Option ℤ → RunStep
  | .createEvent resolver closesAt _, result =>
    { method := "create_event", args := [("resolver", .text resolver), ("closes_at", .int closesAt)]
      caller := "creator.testnet", result, note := "open a Yes/No market with a named resolver" }
  | .takePosition eventId account side amount _, result =>
    { method := "take_position", args := [("event_id", .int eventId), ("side", .text side.value), ("deposit", .int amount)]
      caller := account, result, note := account ++ " stakes " ++ toString amount ++ " yocto on " ++ side.value }
  | .resolve eventId caller outcome _, result =>
    { method := "resolve", args := [("event_id", .int eventId), ("outcome", .text outcome.value)]
      caller, result, note := "resolver records outcome " ++ outcome.value ++ " (only after close)" }
  | .voidEvent eventId _, result =>
    { method := "void_event", args := [("event_id", .int eventId)], caller := "anyone.testnet", result
      note := "resolver never showed; anyone voids after the grace window" }
  | .settle eventId account, result =>
    { method := "settle", args := [("event_id", .int eventId), ("account", .text account)]
      caller := "operator.testnet", result
      note := "pay " ++ account ++ " their pro-rata share (" ++ toString (result.getD 0) ++ " yocto)" }

section Steps
variable (limit : ℕ) (client : OfflineNearClient)

theorem str_apply (n : ℤ) :
    str limit n client = if TooLong limit n then .error (.value (limitMessage limit)) client else .ok (toString n) client := by
  unfold str
  split <;> rfl

theorem short_zero : ¬TooLong limit 0 := fun long => by
  simp [TooLong] at long

/-- A client call is the market's call, then the note, then the step. -/
theorem step_eq (call : Market.Call) :
    (offline limit).step client call =
      match Market.machine.step client.market call with
      | (.error error, market) => (.error (.settlement error), { client with market })
      | (.ok value, market) =>
        if TooLong limit (printed call value) then (.error (.value (limitMessage limit)), { client with market })
        else (.ok value, { market, steps := client.steps ++ [recorded call value] }) := by
  simp only [offline, Market.machine]
  cases call with
  | createEvent resolver closesAt nowNs =>
    simp only [perform, createEvent, Market.Call.execute, EStateM.map_apply, EStateM.bind_apply, onMarket]
    cases Market.createEvent resolver closesAt nowNs client.market with
    | error error market => rfl
    | ok value market => exact (if_neg (short_zero limit)).symm
  | takePosition eventId account side amount nowNs =>
    simp only [perform, takePosition, Market.Call.execute, EStateM.map_apply, EStateM.bind_apply, onMarket]
    cases Market.takePosition eventId account side amount nowNs client.market with
    | error error market => rfl
    | ok value market =>
      dsimp only
      rw [str_apply]
      by_cases long : TooLong limit amount
      · rw [if_pos long]
        exact (if_pos long).symm
      · rw [if_neg long]
        exact (if_neg long).symm
  | resolve eventId caller outcome nowNs =>
    simp only [perform, resolve, Market.Call.execute, EStateM.map_apply, EStateM.bind_apply, onMarket]
    cases Market.resolve eventId caller outcome nowNs client.market with
    | error error market => rfl
    | ok value market => exact (if_neg (short_zero limit)).symm
  | voidEvent eventId nowNs =>
    simp only [perform, voidEvent, Market.Call.execute, EStateM.map_apply, EStateM.bind_apply, onMarket]
    cases Market.voidEvent eventId nowNs client.market with
    | error error market => rfl
    | ok value market => exact (if_neg (short_zero limit)).symm
  | settle eventId account =>
    simp only [perform, settle, Market.Call.execute, EStateM.map_apply, EStateM.bind_apply, onMarket]
    cases Market.settle eventId account client.market with
    | error error market => rfl
    | ok value market =>
      dsimp only [Option.getD_some]
      rw [str_apply]
      by_cases long : TooLong limit value
      · rw [if_pos long]
        exact (if_pos long).symm
      · rw [if_neg long]
        exact (if_neg long).symm

end Steps

/-- The call goes through on the market, but what it prints is too long. -/
def Unprintable (limit : ℕ) (market : Market.EventMarket) : Market.Call → Prop
  | .takePosition eventId _ side amount nowNs => TooLong limit amount ∧ 0 < amount ∧ side ≠ .unresolved ∧
      ∃ e, market.events.lookup eventId = some e ∧ e.phase = .opened ∧ nowNs < e.closesAt
  | .settle eventId account => ∃ e, market.events.lookup eventId = some e ∧ TooLong limit (Market.payoutInner e account)
  | _ => False

section Printing
variable {limit : ℕ} {market : Market.EventMarket}

theorem TooLong.ne_zero {n : ℤ} (long : TooLong limit n) : n ≠ 0 := by
  rintro rfl
  exact short_zero limit long

/-- A payout that is too long is one that a settlement would make. -/
private theorem settles {account : AccountId} {e : Market.Event} (payable : Market.payoutInner e account ≠ 0) :
    Market.settleAct account e =
      .ok (Market.payoutInner e account, e.pay account (Market.payoutInner e account)) := by
  refine Market.settleAct_ok.mpr ⟨?_, ?_, rfl, payable, rfl⟩
  · intro opened
    exact payable (if_pos opened)
  · by_contra claimed
    rw [Bool.not_eq_false] at claimed
    refine payable ?_
    unfold Market.payoutInner
    rw [if_pos claimed, ite_self]

theorem unprintable_iff {call : Market.Call} : Unprintable limit market call ↔
    ∃ value final, Market.machine.step market call = (.ok value, final) ∧ TooLong limit (printed call value) := by
  constructor
  · intro unprintable
    cases call with
    | takePosition eventId account side amount nowNs =>
      obtain ⟨long, positive, chosen, e, found, opened, early⟩ := unprintable
      have done : Market.stakeAct account side amount nowNs e = .ok ((), e.add account side amount) :=
        Market.stakeAct_ok.mpr ⟨opened, early, positive, chosen, rfl⟩
      exact ⟨_, _, Market.Acts.step found (.stake done), long⟩
    | settle eventId account =>
      obtain ⟨e, found, long⟩ := unprintable
      exact ⟨_, _, Market.Acts.step found (.settle (settles long.ne_zero)), long⟩
    | createEvent _ _ _ | resolve _ _ _ _ | voidEvent _ _ => exact unprintable.elim
  · rintro ⟨value, final, ran, long⟩
    obtain ⟨error, failed⟩ | ⟨resolver, closesAt, nowNs, rfl, _, _⟩ | ⟨eventId, e, _, after, found, acted, done⟩ :=
      Market.step_cases market call
    · cases failed.symm.trans ran
    · exact absurd long (short_zero limit)
    · cases done.symm.trans ran
      cases acted with
      | stake done =>
        obtain ⟨opened, early, positive, chosen, _⟩ := Market.stakeAct_ok.mp done
        exact ⟨long, positive, chosen, e, found, opened, early⟩
      | settle done =>
        obtain ⟨_, _, rfl, _, _⟩ := Market.settleAct_ok.mp done
        exact ⟨e, found, long⟩
      | resolve _ | void _ => exact absurd long (short_zero limit)

end Printing

/-- How a client call ends: it raises and changes nothing, it records one step, or it fails
to print what it has already done. -/
theorem step_cases (limit : ℕ) (client : OfflineNearClient) (call : Market.Call) :
    (¬Unprintable limit client.market call ∧
      ∃ error, (offline limit).step client call = (.error (.settlement error), client)) ∨
    (¬Unprintable limit client.market call ∧ ∃ value market, Market.machine.step client.market call = (.ok value, market) ∧
      (offline limit).step client call = (.ok value, { market, steps := client.steps ++ [recorded call value] })) ∨
    (Unprintable limit client.market call ∧ ∃ market, market ≠ client.market ∧
      (offline limit).step client call = (.error (.value (limitMessage limit)), { client with market })) := by
  have ran := step_eq limit client call
  cases called : Market.machine.step client.market call with
  | mk answer market =>
    rw [called] at ran
    cases answer with
    | error error =>
      obtain ⟨_, failed⟩ | ⟨_, _, _, _, _, created⟩ | ⟨_, _, _, _, _, _, done⟩ := Market.step_cases client.market call
      · cases failed.symm.trans called
        refine Or.inl ⟨fun unprintable => ?_, error, ran⟩
        obtain ⟨_, _, succeeded, _⟩ := unprintable_iff.mp unprintable
        cases succeeded.symm.trans called
      · cases created.symm.trans called
      · cases done.symm.trans called
    | ok value =>
      dsimp only at ran
      by_cases long : TooLong limit (printed call value)
      · rw [if_pos long] at ran
        exact Or.inr (Or.inr ⟨unprintable_iff.mpr ⟨value, market, called, long⟩, market, Market.step_changes called, ran⟩)
      · rw [if_neg long] at ran
        refine Or.inr (Or.inl ⟨fun unprintable => ?_, value, market, rfl, ran⟩)
        obtain ⟨_, _, succeeded, tooLong⟩ := unprintable_iff.mp unprintable
        cases succeeded.symm.trans called
        exact long tooLong

section Replaying
variable {steps : List RunStep} {eventId : ℤ}

theorem closesAt?_concat (step : RunStep) :
    closesAt? (steps ++ [step]) eventId = (closesAt? steps eventId).or (closesAt? [step] eventId) :=
  List.findSome?_append

/-- A step that is replayed on the steps so far is replayed alike on more of them. -/
theorem replayCall_grows {step : RunStep} {call : Market.Call} (replayed : replayCall steps step = some call)
    (next : RunStep) : replayCall (steps ++ [next]) step = some call := by
  have kept : ∀ {eventId closesAt}, closesAt? steps eventId = some closesAt →
      closesAt? (steps ++ [next]) eventId = some closesAt := by
    intro eventId closesAt found
    rw [closesAt?_concat, found, Option.some_or]
  unfold replayCall at replayed ⊢
  split_ifs at replayed ⊢
  · exact replayed
  all_goals
    simp only [Option.bind_eq_bind, Option.bind_eq_some_iff] at replayed ⊢
  · obtain ⟨eventId, named, closesAt, closes, rest⟩ := replayed
    exact ⟨eventId, named, closesAt, kept closes, rest⟩
  · obtain ⟨eventId, named, closesAt, closes, rest⟩ := replayed
    exact ⟨eventId, named, closesAt, kept closes, rest⟩
  · exact replayed
  · obtain ⟨eventId, named, closesAt, closes, rest⟩ := replayed
    exact ⟨eventId, named, closesAt, kept closes, rest⟩

/-- The outcome of a step is read back from its name. -/
theorem outcome?_value {step : RunStep} {key : String} {outcome : Outcome} (named : step.text? key = some outcome.value) :
    step.outcome? key = some outcome := by
  rw [RunStep.outcome?, named]
  cases outcome <;> rfl

/-- What each recorded step is replayed as, once its event's close is known. -/
private theorem replayCall_stake {account : AccountId} {side : Outcome} {amount nowNs closesAt : ℤ} {value : Option ℤ}
    (closes : closesAt? steps eventId = some closesAt) :
    replayCall steps (recorded (.takePosition eventId account side amount nowNs) value) =
      some (.takePosition eventId account side amount (closesAt - 1)) := by
  have method : (recorded (.takePosition eventId account side amount nowNs) value).method = "take_position" := rfl
  have named : (recorded (.takePosition eventId account side amount nowNs) value).int? "event_id" = some eventId := rfl
  have chosen : (recorded (.takePosition eventId account side amount nowNs) value).outcome? "side" = some side :=
    outcome?_value rfl
  rw [replayCall, if_neg (by simp [method]), if_pos method, named]
  simp only [Option.bind_eq_bind, Option.bind_some, closes, chosen]
  rfl

private theorem replayCall_resolve {caller : AccountId} {outcome : Outcome} {nowNs closesAt : ℤ} {value : Option ℤ}
    (closes : closesAt? steps eventId = some closesAt) :
    replayCall steps (recorded (.resolve eventId caller outcome nowNs) value) =
      some (.resolve eventId caller outcome closesAt) := by
  have method : (recorded (.resolve eventId caller outcome nowNs) value).method = "resolve" := rfl
  have named : (recorded (.resolve eventId caller outcome nowNs) value).int? "event_id" = some eventId := rfl
  have chosen : (recorded (.resolve eventId caller outcome nowNs) value).outcome? "outcome" = some outcome :=
    outcome?_value rfl
  rw [replayCall, if_neg (by simp [method]), if_neg (by simp [method]), if_pos method, named]
  simp only [Option.bind_eq_bind, Option.bind_some, closes, chosen]
  rfl

private theorem replayCall_void {nowNs closesAt : ℤ} {value : Option ℤ} (closes : closesAt? steps eventId = some closesAt) :
    replayCall steps (recorded (.voidEvent eventId nowNs) value) = some (.voidEvent eventId (closesAt + voidGraceNs)) := by
  have method : (recorded (.voidEvent eventId nowNs) value).method = "void_event" := rfl
  have named : (recorded (.voidEvent eventId nowNs) value).int? "event_id" = some eventId := rfl
  rw [replayCall, if_neg (by simp [method]), if_neg (by simp [method]), if_neg (by simp [method]),
    if_neg (by simp [method]), if_pos method, named]
  simp only [Option.bind_eq_bind, Option.bind_some, closes]
  rfl

/-- Replaying the step of a successful action succeeds alike, whatever time it was taken at. -/
theorem replay_acts {call : Market.Call} {e final : Market.Event} {value : Option ℤ}
    (acted : Market.Acts call eventId e value final) (closes : closesAt? steps eventId = some e.closesAt) :
    ∃ again, replayCall steps (recorded call value) = some again ∧ Market.Acts again eventId e value final := by
  cases acted with
  | stake done =>
    obtain ⟨opened, _, positive, chosen, rfl⟩ := Market.stakeAct_ok.mp done
    exact ⟨_, replayCall_stake closes, .stake (Market.stakeAct_ok.mpr ⟨opened, by omega, positive, chosen, rfl⟩)⟩
  | resolve done =>
    obtain ⟨caller, sided, opened, _, rfl⟩ := Market.resolveAct_ok.mp done
    exact ⟨_, replayCall_resolve closes, .resolve (Market.resolveAct_ok.mpr ⟨caller, sided, opened, le_refl _, rfl⟩)⟩
  | void done =>
    obtain ⟨opened, _, rfl⟩ := Market.voidAct_ok.mp done
    exact ⟨_, replayCall_void closes, .void (Market.voidAct_ok.mpr ⟨opened, le_refl _, rfl⟩)⟩
  | settle done => exact ⟨_, rfl, .settle done⟩

end Replaying

/-- What a recorded step took in, and what it paid. -/
def RunStep.deposit (step : RunStep) : ℤ := if step.method = "take_position" then (step.int? "deposit").getD 0 else 0

def RunStep.paid (step : RunStep) : ℤ := if step.method = "settle" then step.result.getD 0 else 0

/-- The steps rebuild the market: each replays to its recorded result, the last one to the
market as it is, and the deposits recorded in them are paid or in escrow. -/
structure Rebuilds (steps : List RunStep) (market : Market.EventMarket) : Prop where
  replays : ∃ calls, steps.map (replayCall steps) = calls.map some ∧
    Market.machine.answers Market.machine.init calls = steps.map (fun step => .ok step.result) ∧
    Market.machine.after Market.machine.init calls = market
  balanced : (steps.map RunStep.deposit).sum - (steps.map RunStep.paid).sum = Ledger.total Market.Event.escrow market.events

/-- The client's trace is a faithful execution of the run. -/
structure Faithful (limit : ℕ) (calls : List Market.Call) : Prop where
  atomic : ∀ before call after, calls = before ++ call :: after → ∀ error,
    ((offline limit).step ((offline limit).after (offline limit).init before) call).1 = .error error →
    ((offline limit).step ((offline limit).after (offline limit).init before) call).2 =
      (offline limit).after (offline limit).init before
  records : ∀ before call after, calls = before ++ call :: after → ∀ value,
    ((offline limit).step ((offline limit).after (offline limit).init before) call).1 = .ok value →
    ∃ step, step.result = value ∧ ((offline limit).step ((offline limit).after (offline limit).init before) call).2.steps =
      ((offline limit).after (offline limit).init before).steps ++ [step]
  rebuilds : Rebuilds ((offline limit).after (offline limit).init calls).steps
    ((offline limit).after (offline limit).init calls).market

structure Told (client : OfflineNearClient) : Prop where
  valid : client.market.Valid
  closes : ∀ eventId, closesAt? client.steps eventId = (client.market.events.lookup eventId).map Market.Event.closesAt
  rebuilds : Rebuilds client.steps client.market

section Telling
variable {client : OfflineNearClient} {call : Market.Call} {value : Option ℤ} {market : Market.EventMarket}

/-- One more step replays after the others, which replay as before. -/
private theorem replays_concat {steps : List RunStep} {calls : List Market.Call} {next : RunStep} {again : Market.Call}
    (replayed : steps.map (replayCall steps) = calls.map some) (last : replayCall (steps ++ [next]) next = some again) :
    (steps ++ [next]).map (replayCall (steps ++ [next])) = (calls ++ [again]).map some := by
  have alike : ∀ step ∈ steps, replayCall (steps ++ [next]) step = replayCall steps step := by
    intro step member
    have called : replayCall steps step ∈ calls.map some := replayed ▸ List.mem_map_of_mem member
    obtain ⟨call, _, same⟩ := List.mem_map.mp called
    rw [← same]
    exact replayCall_grows same.symm next
  rw [List.map_append, List.map_congr_left alike, replayed, List.map_append]
  exact congrArg _ (congrArg (fun call => [call]) last)

private theorem Rebuilds.step {steps : List RunStep} {next : RunStep} {again : Market.Call} {before : Market.EventMarket}
    (rebuilds : Rebuilds steps before) (last : replayCall (steps ++ [next]) next = some again)
    (ran : Market.machine.step before again = (.ok next.result, market))
    (balance : Ledger.total Market.Event.escrow market.events =
      Ledger.total Market.Event.escrow before.events + next.deposit - next.paid) : Rebuilds (steps ++ [next]) market := by
  obtain ⟨calls, replayed, answers, rfl⟩ := rebuilds.replays
  have balanced := rebuilds.balanced
  refine ⟨⟨calls ++ [again], replays_concat replayed last, ?_, ?_⟩, ?_⟩
  · rw [Machine.answers_concat, answers, ran, List.map_append]
    rfl
  · rw [Machine.after_concat, ran]
  · simp only [List.map_append, List.map_cons, List.map_nil, List.sum_append, List.sum_cons, List.sum_nil]
    omega

private theorem recorded_accounts {eventId : ℤ} {e final : Market.Event} (acted : Market.Acts call eventId e value final) :
    final.escrow = e.escrow + (recorded call value).deposit - (recorded call value).paid := by
  have accounts := acted.accounts.2
  cases acted with
  | stake _ | settle _ | resolve _ | void _ =>
    simpa [Market.depositOn, Market.payoutOn, recorded, RunStep.deposit, RunStep.paid, RunStep.int?, List.lookup_cons] using accounts

private theorem closesAt?_act {eventId : ℤ} {e final : Market.Event} (acted : Market.Acts call eventId e value final)
    (other : ℤ) : closesAt? [recorded call value] other = none := by
  cases acted <;> rfl

private theorem closesAt?_create (resolver : AccountId) (closesAt nowNs eventId other : ℤ) :
    closesAt? [recorded (.createEvent resolver closesAt nowNs) (some eventId)] other =
      if other = eventId then some closesAt else none := by
  by_cases same : other = eventId
  · subst same
    simp [closesAt?, recorded, RunStep.int?, List.lookup_cons]
  · simp [closesAt?, recorded, same, Ne.symm same]

theorem Told.create (told : Told client) (resolver : AccountId) (closesAt nowNs : ℤ) :
    Told { market := client.market.create resolver closesAt,
           steps := client.steps ++ [recorded (.createEvent resolver closesAt nowNs) (some client.market.nextId)] } := by
  have ran : Market.machine.step client.market (.createEvent resolver closesAt (closesAt - 1)) =
      (.ok (some client.market.nextId), client.market.create resolver closesAt) := by
    rw [Market.step_createEvent, if_neg (by omega)]
  have valid := told.valid.step (.createEvent resolver closesAt (closesAt - 1))
  rw [ran] at valid
  refine ⟨valid, fun other => ?_, told.rebuilds.step rfl ran ?_⟩
  · dsimp only [Market.EventMarket.create]
    rw [closesAt?_concat, closesAt?_create, told.closes, Ledger.lookup_insert]
    by_cases same : other = client.market.nextId
    · subst same
      rw [told.valid.fresh, if_pos rfl, if_pos rfl]
      rfl
    · rw [if_neg same, if_neg same, Option.or_none]
  · have absent := Ledger.balance_of_lookup_none Market.Event.escrow told.valid.fresh
    dsimp only [Market.EventMarket.create]
    rw [Ledger.total_insert, absent]
    simp [RunStep.deposit, RunStep.paid, recorded]

theorem Told.act (told : Told client) {eventId : ℤ} {e final : Market.Event} (found : client.market.events.lookup eventId = some e)
    (acted : Market.Acts call eventId e value final) :
    Told { market := { client.market with events := client.market.events.insert eventId final }
           steps := client.steps ++ [recorded call value] } := by
  have valid := told.valid.step call
  rw [acted.step found] at valid
  have closes : ∀ other, closesAt? (client.steps ++ [recorded call value]) other =
      (client.market.events.lookup other).map Market.Event.closesAt := by
    intro other
    rw [closesAt?_concat, closesAt?_act acted, Option.or_none, told.closes]
  have known : closesAt? (client.steps ++ [recorded call value]) eventId = some e.closesAt := by
    rw [closes, found, Option.map_some]
  obtain ⟨again, replayed, same⟩ := replay_acts acted known
  have result : (recorded call value).result = value := by cases acted <;> rfl
  have ran := same.step found
  rw [← result] at ran
  refine ⟨valid, fun other => ?_, told.rebuilds.step replayed ran ?_⟩
  · dsimp only
    rw [closes, Ledger.lookup_insert]
    by_cases own : other = eventId
    · subst own
      rw [found, if_pos rfl, Option.map_some, Option.map_some, acted.closesAt]
    · rw [if_neg own]
  · have balance := Ledger.balance_of_lookup Market.Event.escrow found
    have accounts := recorded_accounts acted
    dsimp only
    rw [Ledger.total_insert, balance]
    omega

/-- A call that went through on the market and was recorded keeps the trace faithful. -/
theorem Told.step (told : Told client) (ran : Market.machine.step client.market call = (.ok value, market)) :
    Told { market, steps := client.steps ++ [recorded call value] } := by
  obtain ⟨error, failed⟩ | ⟨resolver, closesAt, nowNs, rfl, _, created⟩ | ⟨eventId, e, _, final, found, acted, done⟩ :=
    Market.step_cases client.market call
  · cases failed.symm.trans ran
  · cases created.symm.trans ran
    exact told.create resolver closesAt nowNs
  · cases done.symm.trans ran
    exact told.act found acted

end Telling

/-- Every call of the run can print what it records. -/
def Printable (limit : ℕ) (calls : List Market.Call) : Prop :=
  (offline limit).Along (fun client call => ¬Unprintable limit client.market call) (offline limit).init calls

section Runs
variable {limit : ℕ} {calls : List Market.Call}

private theorem told_run {client : OfflineNearClient} (told : Told client)
    (clear : (offline limit).Along (fun client call => ¬Unprintable limit client.market call) client calls) :
    Told ((offline limit).after client calls) := by
  induction calls generalizing client with
  | nil => exact told
  | cons call rest ih =>
    obtain ⟨printable, clear⟩ := clear
    have next : Told ((offline limit).step client call).2 := by
      obtain ⟨_, error, ran⟩ | ⟨_, value, market, called, ran⟩ | ⟨unprintable, _⟩ := step_cases limit client call
      · rw [ran]
        exact told
      · rw [ran]
        exact told.step called
      · exact absurd unprintable printable
    exact ih next clear

private theorem faithful_of_printable (printable : Printable limit calls) : Faithful limit calls := by
  have each := (offline limit).along_iff.mp printable
  refine ⟨?_, ?_, ?_⟩
  · intro before call after split error failed
    obtain ⟨_, _, ran⟩ | ⟨_, value, market, _, ran⟩ | ⟨unprintable, _⟩ :=
      step_cases limit ((offline limit).after (offline limit).init before) call
    · rw [ran]
    · cases (congrArg Prod.fst ran).symm.trans failed
    · exact absurd unprintable (each before call after split)
  · intro before call after split value succeeded
    obtain ⟨_, _, ran⟩ | ⟨_, _, market, _, ran⟩ | ⟨_, market, _, ran⟩ :=
      step_cases limit ((offline limit).after (offline limit).init before) call
    · cases (congrArg Prod.fst ran).symm.trans succeeded
    · cases (congrArg Prod.fst ran).symm.trans succeeded
      exact ⟨recorded call value, by cases call <;> rfl, congrArg (fun answer => answer.2.steps) ran⟩
    · cases (congrArg Prod.fst ran).symm.trans succeeded
  · refine (told_run ⟨?_, fun _ => rfl, ⟨⟨[], rfl, rfl, rfl⟩, rfl⟩⟩ printable).rebuilds
    exact Market.reachable_valid .init

private theorem printable_of_faithful (faithful : Faithful limit calls) : Printable limit calls := by
  refine (offline limit).along_iff.mpr fun before call after split unprintable => ?_
  obtain ⟨printable, _⟩ | ⟨printable, _⟩ | ⟨_, market, changed, ran⟩ :=
    step_cases limit ((offline limit).after (offline limit).init before) call
  · exact printable unprintable
  · exact printable unprintable
  · have same := faithful.atomic before call after split _ (congrArg Prod.fst ran)
    rw [ran] at same
    exact changed (congrArg OfflineNearClient.market same)

/-- A run is traced faithfully exactly when every call of it can print what it records. -/
theorem faithful_iff (limit : ℕ) (calls : List Market.Call) : Faithful limit calls ↔ Printable limit calls :=
  ⟨printable_of_faithful, faithful_of_printable⟩

private def longRun (limit : ℕ) : List Market.Call :=
  [.createEvent "resolver.testnet" 10 9, .takePosition 0 "alice.testnet" .yes (10 ^ limit) 9]

/-- A stake of one digit too many is in the market, but not in the trace. -/
private theorem long_untraced (limited : limit ≠ 0) : ¬Faithful limit (longRun limit) := by
  intro faithful
  obtain ⟨_, printable, _⟩ := printable_of_faithful faithful
  have long : TooLong limit (10 ^ limit) := by
    refine ⟨limited, ?_⟩
    rw [Int.natAbs_pow]
    exact le_refl _
  have positive : (0 : ℤ) < 10 ^ limit := pow_pos (by decide) _
  have silent : ¬TooLong limit (printed (.createEvent "resolver.testnet" 10 9) (some 0)) := short_zero limit
  refine printable ⟨long, positive, by decide, { resolver := "resolver.testnet", closesAt := 10 }, ?_, rfl, by decide⟩
  rw [step_eq, Market.step_createEvent, if_neg (by decide)]
  dsimp only [offline]
  rw [if_neg silent]
  exact Finmap.lookup_insert _

theorem long_stake_untraced : ¬∀ calls, Faithful defaultLimit calls :=
  fun faithful => long_untraced (by decide) (faithful (longRun defaultLimit))

end Runs

end NearRewards.Client
