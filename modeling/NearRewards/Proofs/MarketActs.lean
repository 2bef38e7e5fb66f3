import NearRewards.Library.Effects
import NearRewards.Market

/-! What a call on the market does to the one event it names. Each method is shown equal
to an action on that event: it either changes nothing and raises, or replaces the event. -/

namespace NearRewards.Market

namespace Event

/-- The stakes and the pool of the recorded outcome's side, as the payout reads them. -/
def winStake (e : Event) : Ledger AccountId ℤ := if e.outcome = .yes then e.yesStake else e.noStake

def winPool (e : Event) : ℤ := if e.outcome = .yes then e.poolYes else e.poolNo

def add (e : Event) (account : AccountId) (side : Outcome) (amount : ℤ) : Event :=
  match side with
  | .yes => { e with yesStake := e.yesStake.insert account ((e.yesStake.lookup account).getD 0 + amount)
                     poolYes := e.poolYes + amount, escrow := e.escrow + amount }
  | .no => { e with noStake := e.noStake.insert account ((e.noStake.lookup account).getD 0 + amount)
                    poolNo := e.poolNo + amount, escrow := e.escrow + amount }
  | .unresolved => e

def record (e : Event) (outcome : Outcome) : Event :=
  { e with phase := .resolved, outcome, unclaimedWinStake := if outcome = .yes then e.poolYes else e.poolNo }

def pay (e : Event) (account : AccountId) (payout : ℤ) : Event :=
  let mine := (e.winStake.lookup account).getD 0
  { e with
    claimed := e.claimed.insert account true
    unclaimedWinStake :=
      if e.phase = .resolved then
        e.unclaimedWinStake - if mine > e.unclaimedWinStake then e.unclaimedWinStake else mine
      else e.unclaimedWinStake
    escrow := e.escrow - payout
    phase := if e.escrow - payout = 0 ∧ e.phase = .resolved then .settled else e.phase }

end Event

def stakeAct (account : AccountId) (side : Outcome) (amount nowNs : ℤ) (e : Event) :
    Except SettlementError (Unit × Event) :=
  if e.phase ≠ .opened then .error ⟨"NotOpen"⟩
  else if nowNs ≥ e.closesAt then .error ⟨"MarketClosed"⟩
  else if amount ≤ 0 then .error ⟨"ZeroStake"⟩
  else if side = .unresolved then .error ⟨"InvalidSide"⟩
  else .ok ((), e.add account side amount)

def resolveAct (caller : AccountId) (outcome : Outcome) (nowNs : ℤ) (e : Event) :
    Except SettlementError (Unit × Event) :=
  if caller ≠ e.resolver then .error ⟨"NotResolver"⟩
  else if ¬(outcome = .yes ∨ outcome = .no) then .error ⟨"InvalidSide"⟩
  else if e.phase = .voided then .error ⟨"MarketVoided"⟩
  else if e.phase ≠ .opened then .error ⟨"AlreadyResolved"⟩
  else if nowNs < e.closesAt then .error ⟨"MarketStillOpen"⟩
  else .ok ((), e.record outcome)

def voidAct (nowNs : ℤ) (e : Event) : Except SettlementError (Unit × Event) :=
  if e.phase ≠ .opened then .error ⟨"NotOpen"⟩
  else if nowNs < e.closesAt + voidGraceNs then .error ⟨"VoidTooEarly"⟩
  else .ok ((), { e with phase := .voided })

def settleAct (account : AccountId) (e : Event) : Except SettlementError (ℤ × Event) :=
  if e.phase = .opened then .error ⟨"NotResolved"⟩
  else if (e.claimed.lookup account).getD false then .error ⟨"AlreadyClaimed"⟩
  else if payoutInner e account = 0 then .error ⟨"NothingToClaim"⟩
  else .ok (payoutInner e account, e.pay account (payoutInner e account))

/-- Look the event up, act on it, and store it again only when the action succeeds. -/
def onEvent {α : Type} (eventId : ℤ) (act : Event → Except SettlementError (α × Event)) : Method α := fun market =>
  match market.events.lookup eventId with
  | none => .error ⟨"UnknownEvent"⟩ market
  | some e =>
    match act e with
    | .error error => .error error market
    | .ok (value, final) => .ok value { market with events := market.events.insert eventId final }

section Runs
variable {α : Type} {eventId : ℤ} {market : EventMarket} {e : Event}

theorem raiseIf_bind (condition : Prop) [Decidable condition] (message : String) (next : Unit → Method α)
    (market : EventMarket) :
    (raiseIf condition message >>= next) market =
      if condition then .error ⟨message⟩ market else next () market := by
  unfold raiseIf
  split <;> rfl

theorem require_bind (next : Event → Method α) (found : market.events.lookup eventId = some e) :
    (require eventId >>= next) market = next e market := by
  simp [require, EStateM.bind_apply, found]

theorem require_bind_none (next : Event → Method α) (absent : market.events.lookup eventId = none) :
    (require eventId >>= next) market = .error ⟨"UnknownEvent"⟩ market := by
  simp [require, raise, EStateM.bind_apply, absent]

theorem assign_found (change : Event → Event) (found : market.events.lookup eventId = some e) :
    assign eventId change market = .ok () { market with events := market.events.insert eventId (change e) } := by
  simp [assign, found]

end Runs

theorem takePosition_eq (eventId : ℤ) (account : AccountId) (side : Outcome) (amount nowNs : ℤ) :
    takePosition eventId account side amount nowNs = onEvent eventId (stakeAct account side amount nowNs) := by
  funext market
  cases found : market.events.lookup eventId with
  | none => simp only [takePosition, require_bind_none _ found, onEvent, found]
  | some e =>
    simp only [takePosition, require_bind _ found, raiseIf_bind, onEvent, found, stakeAct]
    split_ifs with _ _ _ unresolved
    all_goals first | rfl | skip
    · subst side; rfl
    · cases side with
      | unresolved => exact absurd rfl unresolved
      | yes | no => simp [EStateM.bind_apply, assign, found, Event.add, Finmap.insert_insert]

theorem resolve_eq (eventId : ℤ) (caller : AccountId) (outcome : Outcome) (nowNs : ℤ) :
    resolve eventId caller outcome nowNs = onEvent eventId (resolveAct caller outcome nowNs) := by
  funext market
  cases found : market.events.lookup eventId with
  | none => simp only [resolve, require_bind_none _ found, onEvent, found]
  | some e =>
    simp only [resolve, require_bind _ found, raiseIf_bind, onEvent, found, resolveAct]
    split_ifs
    all_goals first | rfl | simp [EStateM.bind_apply, assign, Event.record, Finmap.insert_insert, *]

theorem voidEvent_eq (eventId nowNs : ℤ) : voidEvent eventId nowNs = onEvent eventId (voidAct nowNs) := by
  funext market
  cases found : market.events.lookup eventId with
  | none => simp only [voidEvent, require_bind_none _ found, onEvent, found]
  | some e =>
    simp only [voidEvent, require_bind _ found, raiseIf_bind, onEvent, found, voidAct, assign_found _ found]
    split_ifs <;> rfl

theorem settle_eq (eventId : ℤ) (account : AccountId) :
    settle eventId account = onEvent eventId (settleAct account) := by
  funext market
  cases found : market.events.lookup eventId with
  | none => simp only [settle, require_bind_none _ found, onEvent, found]
  | some e =>
    simp only [settle, require_bind _ found, raiseIf_bind, onEvent, found, settleAct]
    by_cases last : e.escrow - payoutInner e account = 0
    all_goals
      split_ifs
      all_goals first | rfl | simp [EStateM.bind_apply, EStateM.map_apply, assign, Event.pay, Event.winStake,
        Finmap.insert_insert, *]

section Inversion
variable {account caller : AccountId} {side outcome : Outcome} {amount nowNs payout : ℤ} {e final : Event}

theorem stakeAct_ok : stakeAct account side amount nowNs e = .ok ((), final) ↔
    e.phase = .opened ∧ nowNs < e.closesAt ∧ 0 < amount ∧ side ≠ .unresolved ∧ final = e.add account side amount := by
  unfold stakeAct
  split_ifs <;> grind

theorem resolveAct_ok : resolveAct caller outcome nowNs e = .ok ((), final) ↔
    caller = e.resolver ∧ (outcome = .yes ∨ outcome = .no) ∧ e.phase = .opened ∧ e.closesAt ≤ nowNs ∧
      final = e.record outcome := by
  unfold resolveAct
  split_ifs <;> grind

theorem voidAct_ok : voidAct nowNs e = .ok ((), final) ↔
    e.phase = .opened ∧ e.closesAt + voidGraceNs ≤ nowNs ∧ final = { e with phase := .voided } := by
  unfold voidAct
  split_ifs <;> grind

theorem settleAct_ok : settleAct account e = .ok (payout, final) ↔
    e.phase ≠ .opened ∧ (e.claimed.lookup account).getD false = false ∧ payout = payoutInner e account ∧ payout ≠ 0 ∧
      final = e.pay account payout := by
  unfold settleAct
  split_ifs <;> grind

end Inversion

/-- A call that succeeds on an event, what it returns and the event it leaves. -/
inductive Acts : Call → ℤ → Event → Option ℤ → Event → Prop where
  | stake {eventId account side amount nowNs e final} (done : stakeAct account side amount nowNs e = .ok ((), final)) :
      Acts (.takePosition eventId account side amount nowNs) eventId e none final
  | resolve {eventId caller outcome nowNs e final} (done : resolveAct caller outcome nowNs e = .ok ((), final)) :
      Acts (.resolve eventId caller outcome nowNs) eventId e none final
  | void {eventId nowNs e final} (done : voidAct nowNs e = .ok ((), final)) :
      Acts (.voidEvent eventId nowNs) eventId e none final
  | settle {eventId account e payout final} (done : settleAct account e = .ok (payout, final)) :
      Acts (.settle eventId account) eventId e (some payout) final

def EventMarket.create (market : EventMarket) (resolver : AccountId) (closesAt : ℤ) : EventMarket :=
  { nextId := market.nextId + 1, events := market.events.insert market.nextId { resolver, closesAt } }

theorem createEvent_apply (resolver : AccountId) (closesAt nowNs : ℤ) (market : EventMarket) :
    createEvent resolver closesAt nowNs market =
      if closesAt ≤ nowNs then .error ⟨"ClosesInPast"⟩ market
      else .ok market.nextId (market.create resolver closesAt) := by
  rw [createEvent, raiseIf_bind]
  rfl

/-- How a call on one event ends. -/
def conclude {α : Type} (market : EventMarket) (eventId : ℤ) (value : α → Option ℤ)
    (act : Event → Except SettlementError (α × Event)) : Answer × EventMarket :=
  match market.events.lookup eventId with
  | none => (.error ⟨"UnknownEvent"⟩, market)
  | some e =>
    match act e with
    | .error error => (.error error, market)
    | .ok (result, final) => (.ok (value result), { market with events := market.events.insert eventId final })

section Steps
variable (market : EventMarket)

private theorem onEvent_conclude {α : Type} (eventId : ℤ) (value : α → Option ℤ)
    (act : Event → Except SettlementError (α × Event)) :
    (match (value <$> onEvent eventId act) market with
      | .ok result final => (.ok result, final)
      | .error error final => ((.error error, final) : Answer × EventMarket)) = conclude market eventId value act := by
  rw [EStateM.map_apply]
  unfold onEvent conclude
  cases market.events.lookup eventId with
  | none => rfl
  | some e =>
    dsimp only
    cases act e <;> rfl

theorem step_takePosition (eventId : ℤ) (account : AccountId) (side : Outcome) (amount nowNs : ℤ) :
    machine.step market (.takePosition eventId account side amount nowNs) =
      conclude market eventId (fun _ => none) (stakeAct account side amount nowNs) := by
  rw [← onEvent_conclude, ← takePosition_eq]
  rfl

theorem step_resolve (eventId : ℤ) (caller : AccountId) (outcome : Outcome) (nowNs : ℤ) :
    machine.step market (.resolve eventId caller outcome nowNs) =
      conclude market eventId (fun _ => none) (resolveAct caller outcome nowNs) := by
  rw [← onEvent_conclude, ← resolve_eq]
  rfl

theorem step_voidEvent (eventId nowNs : ℤ) :
    machine.step market (.voidEvent eventId nowNs) = conclude market eventId (fun _ => none) (voidAct nowNs) := by
  rw [← onEvent_conclude, ← voidEvent_eq]
  rfl

theorem step_settle (eventId : ℤ) (account : AccountId) :
    machine.step market (.settle eventId account) = conclude market eventId some (settleAct account) := by
  rw [← onEvent_conclude, ← settle_eq]
  rfl

theorem step_createEvent (resolver : AccountId) (closesAt nowNs : ℤ) :
    machine.step market (.createEvent resolver closesAt nowNs) =
      if closesAt ≤ nowNs then (.error ⟨"ClosesInPast"⟩, market)
      else (.ok (some market.nextId), market.create resolver closesAt) := by
  simp only [machine, Call.execute, EStateM.map_apply, createEvent_apply]
  split_ifs <;> rfl

end Steps

section Views
variable (market : EventMarket) (eventId : ℤ)

theorem view_getEvent : view (getEvent eventId) market =
    match market.events.lookup eventId with
    | none => .error ⟨"UnknownEvent"⟩
    | some e => .ok { resolver := e.resolver, closesAt := e.closesAt, phase := e.phase.value, outcome := e.outcome.value,
                      poolYes := e.poolYes, poolNo := e.poolNo, escrow := e.escrow,
                      unclaimedWinStake := e.unclaimedWinStake } := by
  unfold view getEvent
  cases found : market.events.lookup eventId with
  | none => rw [require_bind_none _ found]
  | some e => rw [require_bind _ found]; rfl

theorem view_liabilityOf : view (liabilityOf eventId) market =
    match market.events.lookup eventId with
    | none => .error ⟨"UnknownEvent"⟩
    | some e => .ok (e.escrow, e.unclaimedWinStake) := by
  unfold view liabilityOf
  cases found : market.events.lookup eventId with
  | none => rw [require_bind_none _ found]
  | some e => rw [require_bind _ found]; rfl

theorem view_payoutOf (account : AccountId) : view (payoutOf eventId account) market =
    match market.events.lookup eventId with
    | none => .error ⟨"UnknownEvent"⟩
    | some e => .ok (payoutInner e account) := by
  unfold view payoutOf
  cases found : market.events.lookup eventId with
  | none => rw [require_bind_none _ found]
  | some e => rw [require_bind _ found]; rfl

theorem view_isVoidable (nowNs : ℤ) : view (isVoidable eventId nowNs) market =
    match market.events.lookup eventId with
    | none => .ok false
    | some e => .ok (decide (e.phase = .opened ∧ nowNs ≥ e.closesAt + voidGraceNs)) := by
  unfold view isVoidable
  rw [EStateM.bind_apply, EStateM.get_apply]
  dsimp only
  cases market.events.lookup eventId <;> rfl

end Views

/-- A call that raises leaves the market as it was. -/
theorem conclude_cases {α : Type} (market : EventMarket) (eventId : ℤ) (value : α → Option ℤ)
    (act : Event → Except SettlementError (α × Event)) :
    (∃ error, conclude market eventId value act = (.error error, market)) ∨
      ∃ e result final, market.events.lookup eventId = some e ∧ act e = .ok (result, final) ∧
        conclude market eventId value act =
          (.ok (value result), { market with events := market.events.insert eventId final }) := by
  unfold conclude
  cases market.events.lookup eventId with
  | none => exact Or.inl ⟨_, rfl⟩
  | some e =>
    dsimp only
    cases acted : act e with
    | error error => exact Or.inl ⟨error, rfl⟩
    | ok result => exact Or.inr ⟨e, result.1, result.2, rfl, acted, rfl⟩

/-- Every call raises and changes nothing, creates an event, or acts on one event. -/
theorem step_cases (market : EventMarket) (call : Call) :
    (∃ error, machine.step market call = (.error error, market)) ∨
      (∃ resolver closesAt nowNs, call = .createEvent resolver closesAt nowNs ∧ nowNs < closesAt ∧
        machine.step market call = (.ok (some market.nextId), market.create resolver closesAt)) ∨
      ∃ eventId e value final, market.events.lookup eventId = some e ∧ Acts call eventId e value final ∧
        machine.step market call = (.ok value, { market with events := market.events.insert eventId final }) := by
  cases call with
  | createEvent resolver closesAt nowNs =>
    rw [step_createEvent]
    split_ifs with past
    · exact Or.inl ⟨_, rfl⟩
    · exact Or.inr (Or.inl ⟨resolver, closesAt, nowNs, rfl, Int.not_le.mp past, rfl⟩)
  | takePosition eventId account side amount nowNs =>
    rw [step_takePosition]
    exact (conclude_cases market eventId _ _).imp_right fun ⟨e, _, final, found, done, ran⟩ =>
      Or.inr ⟨eventId, e, none, final, found, .stake done, ran⟩
  | resolve eventId caller outcome nowNs =>
    rw [step_resolve]
    exact (conclude_cases market eventId _ _).imp_right fun ⟨e, _, final, found, done, ran⟩ =>
      Or.inr ⟨eventId, e, none, final, found, .resolve done, ran⟩
  | voidEvent eventId nowNs =>
    rw [step_voidEvent]
    exact (conclude_cases market eventId _ _).imp_right fun ⟨e, _, final, found, done, ran⟩ =>
      Or.inr ⟨eventId, e, none, final, found, .void done, ran⟩
  | settle eventId account =>
    rw [step_settle]
    exact (conclude_cases market eventId _ _).imp_right fun ⟨e, payout, final, found, done, ran⟩ =>
      Or.inr ⟨eventId, e, some payout, final, found, .settle done, ran⟩

private theorem conclude_ok {α : Type} {market : EventMarket} {eventId : ℤ} {value : α → Option ℤ}
    {act : Event → Except SettlementError (α × Event)} {e final : Event} {result : α}
    (found : market.events.lookup eventId = some e) (done : act e = .ok (result, final)) :
    conclude market eventId value act =
      (.ok (value result), { market with events := market.events.insert eventId final }) := by
  simp only [conclude, found, done]

/-- An action that succeeds is what its call does. -/
theorem Acts.step {market : EventMarket} {call : Call} {eventId : ℤ} {e final : Event} {value : Option ℤ}
    (found : market.events.lookup eventId = some e) (acted : Acts call eventId e value final) :
    machine.step market call = (.ok value, { market with events := market.events.insert eventId final }) := by
  cases acted with
  | stake done => exact (step_takePosition market _ _ _ _ _).trans (conclude_ok found done)
  | resolve done => exact (step_resolve market _ _ _ _).trans (conclude_ok found done)
  | void done => exact (step_voidEvent market _ _).trans (conclude_ok found done)
  | settle done => exact (step_settle market _ _).trans (conclude_ok found done)

/-- No action moves the close. -/
theorem Acts.closesAt {call : Call} {eventId : ℤ} {e final : Event} {value : Option ℤ}
    (acted : Acts call eventId e value final) : final.closesAt = e.closesAt := by
  cases acted with
  | @stake _ _ side _ _ _ _ done =>
    obtain ⟨_, _, _, _, rfl⟩ := stakeAct_ok.mp done
    cases side <;> rfl
  | resolve done =>
    obtain ⟨_, _, _, _, rfl⟩ := resolveAct_ok.mp done
    rfl
  | void done =>
    obtain ⟨_, _, rfl⟩ := voidAct_ok.mp done
    rfl
  | settle done =>
    obtain ⟨_, _, _, _, rfl⟩ := settleAct_ok.mp done
    rfl

/-- Whatever succeeds on an event changes it. -/
theorem Acts.changes {call : Call} {eventId : ℤ} {e final : Event} {value : Option ℤ}
    (acted : Acts call eventId e value final) : final ≠ e := by
  cases acted with
  | @stake _ account side amount _ _ _ done =>
    obtain ⟨_, _, positive, chosen, rfl⟩ := stakeAct_ok.mp done
    intro same
    have escrow : e.escrow + amount = e.escrow := by
      cases side with
      | unresolved => exact absurd rfl chosen
      | yes | no => exact congrArg Event.escrow same
    omega
  | resolve done =>
    obtain ⟨_, _, opened, _, rfl⟩ := resolveAct_ok.mp done
    intro same
    cases opened.symm.trans (congrArg Event.phase same).symm
  | void done =>
    obtain ⟨opened, _, rfl⟩ := voidAct_ok.mp done
    intro same
    cases opened.symm.trans (congrArg Event.phase same).symm
  | @settle _ account _ payout _ done =>
    obtain ⟨_, unclaimed, _, _, rfl⟩ := settleAct_ok.mp done
    intro same
    have claimed : (e.claimed.insert account true).lookup account = e.claimed.lookup account :=
      congrArg (fun e : Event => e.claimed.lookup account) same
    rw [← claimed, Finmap.lookup_insert] at unclaimed
    cases unclaimed

/-- A call that succeeds never leaves the market as it was. -/
theorem step_changes {market final : EventMarket} {call : Call} {value : Option ℤ}
    (ran : machine.step market call = (.ok value, final)) : final ≠ market := by
  obtain ⟨error, failed⟩ | ⟨resolver, closesAt, nowNs, _, _, created⟩ | ⟨eventId, e, _, after, found, acted, done⟩ :=
    step_cases market call
  · cases failed.symm.trans ran
  · cases created.symm.trans ran
    intro same
    have next : market.nextId + 1 = market.nextId := congrArg EventMarket.nextId same
    omega
  · cases done.symm.trans ran
    intro same
    have held : (market.events.insert eventId after).lookup eventId = market.events.lookup eventId :=
      congrArg (fun market : EventMarket => market.events.lookup eventId) same
    rw [Finmap.lookup_insert, found] at held
    exact acted.changes (Option.some.inj held)

end NearRewards.Market
