import NearRewards.Proofs.Mirror

/-! The contract and the mirror in lockstep. Fed the same calls they give the same answers
and keep the same state, up to the first call that runs into an overflow. -/

namespace NearRewards.Contract

def Settlemint.mirror (state : State) : Market.EventMarket where
  nextId := state.nextEventId.toNat
  events := state.events.relabel (fun id => (id.toNat : ℤ)) toInt_injective EventContract.mirror

def Call.mirror (env : Env) : Call → Market.Call
  | .createEvent resolver closesAt => .createEvent resolver closesAt.toNat env.blockTimestamp.toNat
  | .takePosition eventId side =>
    .takePosition eventId.toNat env.predecessorAccountId side env.attachedDeposit.toNat env.blockTimestamp.toNat
  | .resolve eventId outcome => .resolve eventId.toNat env.predecessorAccountId outcome env.blockTimestamp.toNat
  | .voidEvent eventId => .voidEvent eventId.toNat env.blockTimestamp.toNat
  | .settle eventId account => .settle eventId.toNat account

def Value.mirror : Value → Option ℤ
  | .nothing => none
  | .eventId id => some id.toNat
  | .payout amount => some amount.toNat

def EventView.mirror (e : EventView) : Market.EventView where
  resolver := e.resolver
  closesAt := e.closesAt.toNat
  phase := e.phase.value
  outcome := e.outcome.value
  poolYes := e.poolYes.toNat
  poolNo := e.poolNo.toNat
  escrow := e.escrow.toNat
  unclaimedWinStake := e.unclaimedWinStake.toNat

/-- The same return value, or the same error string. -/
def Same {α β : Type} (convert : α → β) (ours : Except Abort α) (theirs : Except Market.SettlementError β) : Prop :=
  match ours with
  | .ok value => theirs = .ok (convert value)
  | .error (.panicked message) => theirs = .error ⟨message⟩
  | .error .overflow => False

/-- The call passes every check before an integer operation that leaves its range. -/
def Overflows (state : State) (env : Env) : Call → Prop
  | .createEvent _ closesAt => closesAt > env.blockTimestamp ∧ state.nextEventId.toNat = 2 ^ 64 - 1
  | .takePosition eventId side => ∃ e, state.events.lookup eventId = some e ∧ StakeOverflows env side e
  | .resolve _ _ => False
  | .voidEvent eventId => ∃ e, state.events.lookup eventId = some e ∧ VoidOverflows e
  | .settle eventId account => ∃ e, state.events.lookup eventId = some e ∧ e.PayoutOverflows account

structure Settlemint.Valid (state : State) : Prop where
  mirror : state.mirror.Valid
  fits : ∀ eventId e, state.events.lookup eventId = some e → e.poolYes.toNat + e.poolNo.toNat < 2 ^ 128

section Mirror
variable {state : State} {eventId : U64} {e : Event}

theorem lookup_mirror (state : State) (eventId : U64) :
    state.mirror.events.lookup (eventId.toNat : ℤ) = (state.events.lookup eventId).map EventContract.mirror :=
  Ledger.lookup_relabel toInt_injective _ state.events eventId

theorem insert_mirror (state : State) (eventId : U64) (e : Event) :
    ({ state with events := state.events.insert eventId e } : State).mirror =
      { state.mirror with events := state.mirror.events.insert (eventId.toNat : ℤ) e.mirror } := by
  unfold Settlemint.mirror
  rw [Ledger.relabel_insert]

theorem create_mirror (resolver : AccountId) (closesAt : U64) {nextEventId : U64}
    (next : nextEventId.toNat = state.nextEventId.toNat + 1) :
    (state.create resolver closesAt nextEventId).mirror = state.mirror.create resolver closesAt.toNat := by
  unfold Settlemint.create Settlemint.mirror Market.EventMarket.create
  rw [Ledger.relabel_insert, next]
  rfl

theorem Settlemint.Valid.id_lt (valid : state.Valid) (found : state.events.lookup eventId = some e) :
    eventId.toNat < state.nextEventId.toNat :=
  Int.ofNat_lt.mp (valid.mirror.ids _ _ (by rw [lookup_mirror, found]; rfl)).2

/-- The next id is not taken. -/
theorem Settlemint.Valid.fresh (valid : state.Valid) : state.events.lookup state.nextEventId = none := by
  cases found : state.events.lookup state.nextEventId with
  | none => rfl
  | some e => exact absurd (valid.id_lt found) (Nat.lt_irrefl _)

theorem Settlemint.Valid.event (valid : state.Valid) (found : state.events.lookup eventId = some e) : e.Valid :=
  ⟨valid.mirror.events _ _ (by rw [lookup_mirror, found]; rfl), valid.fits eventId e found⟩

end Mirror

/-- One transaction against one call of the mirror. -/
inductive Follows (overflows : Prop) (state : State) : Receipt × State → Market.Answer × Market.EventMarket → Prop where
  | agrees (clear : ¬overflows) {receipt : Receipt} {final : State} {answer : Market.Answer}
      (same : Same Value.mirror receipt.result answer) (failed : ∀ abort, receipt.result = .error abort → ¬abort.Arithmetic ∧ final = state) :
      Follows overflows state (receipt, final) (answer, final.mirror)
  | aborts (overflow : overflows) {abort : Abort} (arithmetic : abort.Arithmetic)
      (theirs : Market.Answer × Market.EventMarket) : Follows overflows state (⟨.error abort, [], []⟩, state) theirs

namespace Follows
variable {overflows : Prop} {state : State} {ours : Receipt × State} {theirs : Market.Answer × Market.EventMarket}

theorem same (follows : Follows overflows state ours theirs) (clear : ¬overflows) :
    Same Value.mirror ours.1.result theirs.1 ∧ ours.2.mirror = theirs.2 := by
  cases follows with
  | agrees _ same => exact ⟨same, rfl⟩
  | aborts overflow => exact absurd overflow clear

theorem aborted (follows : Follows overflows state ours theirs) (abort : Abort) (failed : ours.1.result = .error abort) :
    ours.2 = state := by
  cases follows with
  | agrees _ _ unchanged => exact (unchanged abort failed).2
  | aborts => rfl

theorem arithmetic (follows : Follows overflows state ours theirs) :
    (∃ abort, ours.1.result = .error abort ∧ abort.Arithmetic) ↔ overflows := by
  cases follows with
  | agrees clear _ unchanged =>
    refine iff_of_false ?_ clear
    rintro ⟨abort, failed, arithmetic⟩
    exact (unchanged abort failed).1 arithmetic
  | aborts overflow arithmetic => exact iff_of_true ⟨_, rfl, arithmetic⟩ overflow

end Follows

/-- Looking up an event that neither side has is the same failure on both. -/
theorem conclude_follows {α β : Type} {state : State} {eventId : U64} {convert : α → β} {overflows : Event → Prop}
    {ours : Event → Except Abort (Effect α)} {theirs : Market.Event → Except Market.SettlementError (β × Market.Event)}
    {value : α → Value} {result : β → Option ℤ} (converted : ∀ a, (value a).mirror = result (convert a))
    (tracks : ∀ e, state.events.lookup eventId = some e → Tracks convert (overflows e) (ours e) (theirs e.mirror)) :
    Follows (∃ e, state.events.lookup eventId = some e ∧ overflows e) state (conclude state eventId value ours)
      (Market.conclude state.mirror eventId.toNat result theirs) := by
  unfold conclude Market.conclude
  rw [lookup_mirror]
  cases found : state.events.lookup eventId with
  | none =>
    refine .agrees ?_ rfl ?_
    · rintro ⟨e, present, _⟩
      cases present
    · rintro _ ⟨⟩
      exact ⟨by simp [Abort.Arithmetic], rfl⟩
  | some e =>
    have tracked := tracks e found
    have only : (∃ f, some e = some f ∧ overflows f) ↔ overflows e := by
      constructor
      · rintro ⟨_, ⟨⟩, holds⟩
        exact holds
      · exact fun holds => ⟨e, rfl, holds⟩
    rw [only]
    dsimp only [Option.map_some]
    generalize theirs e.mirror = answer at tracked ⊢
    cases acted : ours e with
    | error abort =>
      rw [acted] at tracked
      cases tracked with
      | refuses clear named =>
        refine .agrees clear rfl ?_
        rintro _ ⟨⟩
        exact ⟨named, rfl⟩
      | exceeds overflow arithmetic => exact .aborts overflow arithmetic _
    | ok effect =>
      rw [acted] at tracked
      cases tracked with
      | succeeds clear =>
        dsimp only
        rw [← insert_mirror]
        refine .agrees clear ?_ (by rintro _ ⟨⟩)
        change Except.ok _ = Except.ok _
        rw [converted]

theorem transact_follows {state : State} (valid : state.Valid) {env : Env} {call : Call} (accepts : Accepts env call) :
    Follows (Overflows state env call) state (transact state (env, call))
      (Market.machine.step state.mirror (call.mirror env)) := by
  have undeposited : call.payable = false → env.attachedDeposit = 0 := by
    intro free
    simpa [Accepts, free] using accepts
  cases call with
  | createEvent resolver closesAt =>
    rw [transact_createEvent, if_neg (not_not.mpr (undeposited rfl)), Call.mirror, Market.step_createEvent]
    have past : (closesAt.toNat : ℤ) ≤ env.blockTimestamp.toNat ↔ ¬closesAt > env.blockTimestamp := by
      rw [gt_iff_lt, BitVec.lt_def]
      omega
    simp only [past]
    split_ifs with later
    · cases next : Checked.add state.nextEventId 1 with
      | none =>
        have last : 2 ^ 64 ≤ state.nextEventId.toNat + 1 := Checked.add_eq_none.mp next
        have bound := state.nextEventId.isLt
        exact .aborts ⟨later, by omega⟩ Abort.arithmetic_overflow _
      | some nextEventId =>
        have follows : nextEventId.toNat = state.nextEventId.toNat + 1 := Checked.add_eq_some.mp next
        have bound := nextEventId.isLt
        rw [← create_mirror resolver closesAt follows]
        refine .agrees (fun overflows => ?_) rfl (by rintro _ ⟨⟩)
        have last : state.nextEventId.toNat = 2 ^ 64 - 1 := overflows.2
        omega
    · refine .agrees (fun overflows => later overflows.1) rfl ?_
      rintro _ ⟨⟩
      exact ⟨by simp [Abort.Arithmetic], rfl⟩
  | takePosition eventId side =>
    rw [transact_takePosition, Call.mirror, Market.step_takePosition]
    exact conclude_follows (fun _ => rfl) (fun e found => stakeAct_tracks (valid.event found) env eventId side)
  | resolve eventId outcome =>
    rw [transact_resolve, if_neg (not_not.mpr (undeposited rfl)), Call.mirror, Market.step_resolve]
    have never : (∃ e, state.events.lookup eventId = some e ∧ (fun _ : Event => False) e) ↔ False := by simp
    rw [Overflows, ← never]
    exact conclude_follows (fun _ => rfl) (fun e _ => resolveAct_tracks env eventId outcome)
  | voidEvent eventId =>
    rw [transact_voidEvent, if_neg (not_not.mpr (undeposited rfl)), Call.mirror, Market.step_voidEvent]
    exact conclude_follows (fun _ => rfl) (fun e _ => voidAct_tracks env eventId)
  | settle eventId account =>
    rw [transact_settle, if_neg (not_not.mpr (undeposited rfl)), Call.mirror, Market.step_settle]
    exact conclude_follows (fun _ => rfl) (fun e found => settleAct_tracks (valid.event found) eventId account)

private theorem step_mirror {state : State} (valid : state.Valid) (input : Env × Call) :
    (machine.step state input).2.mirror.Valid := by
  obtain ⟨env, call⟩ := input
  by_cases accepts : Accepts env call
  · have follows := transact_follows valid accepts
    have next := valid.mirror.step (call.mirror env)
    change (transact state (env, call)).2.mirror.Valid
    revert follows next
    generalize transact state (env, call) = ours
    generalize Market.machine.step state.mirror (call.mirror env) = theirs
    rintro (⟨_, _, _⟩ | _) next
    · exact next
    · exact valid.mirror
  · change (transact state (env, call)).2.mirror.Valid
    rw [transact_refused state env accepts]
    exact valid.mirror

private theorem step_fits {state : State} (valid : state.Valid) (input : Env × Call) {eventId : U64} {e : Event}
    (found : (machine.step state input).2.events.lookup eventId = some e) :
    e.poolYes.toNat + e.poolNo.toNat < 2 ^ 128 := by
  obtain ⟨env, call⟩ := input
  have mirror := step_mirror valid (env, call)
  obtain ⟨abort, ran⟩ | ⟨resolver, closesAt, next, rfl, _, _, _, ran⟩ | ⟨target, before, effect, present, acted, ran⟩ :=
    step_cases state env call
  · rw [ran] at found
    exact valid.fits eventId e found
  · rw [ran, Settlemint.create, Ledger.lookup_insert] at found
    split at found
    · cases found
      change (0 : U128).toNat + (0 : U128).toNat < 2 ^ 128
      decide
    · exact valid.fits eventId e found
  · rw [ran] at found mirror
    rw [Ledger.lookup_insert] at found
    split at found
    next same =>
      subst same
      have bound := valid.fits eventId before present
      have image := mirror.events _ _ (by rw [lookup_mirror, Ledger.lookup_insert, if_pos rfl]; rfl)
      cases found
      cases acted with
      | stake done =>
        -- the stakes of an open event are its escrow
        obtain ⟨opened, _, _, _, final, added, rfl⟩ := stakeAct_ok.mp done
        have still := (EventContract.add_frame added).2.2.1.trans opened
        have escrow := (image.fresh still).escrow
        change (final.escrow.toNat : ℤ) = final.poolYes.toNat + final.poolNo.toNat at escrow
        have small := final.escrow.isLt
        change final.poolYes.toNat + final.poolNo.toNat < _
        omega
      | resolve done =>
        obtain ⟨_, _, _, _, rfl⟩ := resolveAct_ok.mp done
        exact bound
      | void done =>
        obtain ⟨_, _, rfl⟩ := voidAct_ok.mp done
        exact bound
      | settle done =>
        obtain ⟨_, _, payout, final, _, _, paid, rfl⟩ := settleAct_ok.mp done
        obtain ⟨unclaimed, rfl⟩ := EventContract.pay_frame paid
        exact bound
    next => exact valid.fits eventId e found

theorem Settlemint.Valid.step {state : State} (valid : state.Valid) (input : Env × Call) :
    (machine.step state input).2.Valid :=
  ⟨step_mirror valid input, fun _ _ => step_fits valid input⟩

theorem reachable_valid {state : State} (reachable : machine.Reachable state) : state.Valid := by
  refine reachable.invariant ⟨?_, ?_⟩ (fun _ input valid => valid.step input)
  · exact Market.reachable_valid Machine.Reachable.init
  · intro eventId e found
    cases found

/-- The next transaction against the mirror's next call. -/
structure StepsAlike (state : State) (market : Market.EventMarket) (env : Env) (call : Call) : Prop where
  answers : ¬Overflows state env call →
    Same Value.mirror (machine.step state (env, call)).1.result (Market.machine.step market (call.mirror env)).1
  states : ¬Overflows state env call →
    (machine.step state (env, call)).2.mirror = (Market.machine.step market (call.mirror env)).2
  aborted : ∀ abort, (machine.step state (env, call)).1.result = .error abort → (machine.step state (env, call)).2 = state
  raised : ∀ error, (Market.machine.step market (call.mirror env)).1 = .error error →
    (Market.machine.step market (call.mirror env)).2 = market
  arithmetic : (∃ abort, (machine.step state (env, call)).1.result = .error abort ∧ abort.Arithmetic) ↔
    Overflows state env call

/-- The views of one event against the mirror's. -/
structure ViewsAlike (state : State) (market : Market.EventMarket) (eventId : U64) : Prop where
  event : Same EventView.mirror (view (getEventView eventId) state) (Market.view (Market.getEvent eventId.toNat) market)
  liability : Same (fun owed => ((owed.1.toNat : ℤ), (owed.2.toNat : ℤ))) (view (liabilityOf eventId) state)
    (Market.view (Market.liabilityOf eventId.toNat) market)
  payout : ∀ account, ¬(∃ e, state.events.lookup eventId = some e ∧ e.PayoutOverflows account) →
    Same (fun payout => (payout.toNat : ℤ)) (view (payoutOf eventId account) state)
      (Market.view (Market.payoutOf eventId.toNat account) market)
  payoutArithmetic : ∀ account,
    (∃ abort, view (payoutOf eventId account) state = .error abort ∧ abort.Arithmetic) ↔
      ∃ e, state.events.lookup eventId = some e ∧ e.PayoutOverflows account
  voidable : ∀ env, ¬(∃ e, state.events.lookup eventId = some e ∧ VoidOverflows e) →
    Same id (view (isVoidable env eventId) state)
      (Market.view (Market.isVoidable eventId.toNat env.blockTimestamp.toNat) market)
  voidableArithmetic : ∀ env,
    (∃ abort, view (isVoidable env eventId) state = .error abort ∧ abort.Arithmetic) ↔
      ∃ e, state.events.lookup eventId = some e ∧ VoidOverflows e

theorem steps_alike {state : State} (valid : state.Valid) {env : Env} {call : Call} (accepts : Accepts env call) :
    StepsAlike state state.mirror env call := by
  have follows := transact_follows valid accepts
  refine ⟨fun clear => (follows.same clear).1, fun clear => (follows.same clear).2, follows.aborted, ?_, follows.arithmetic⟩
  intro error failed
  obtain ⟨_, ran⟩ | ⟨_, _, _, _, _, ran⟩ | ⟨_, _, _, _, _, _, ran⟩ := Market.step_cases state.mirror (call.mirror env)
  · rw [ran]
  · rw [ran] at failed
    cases failed
  · rw [ran] at failed
    cases failed

section Views
variable {state : State} {eventId : U64}

private theorem payout_alike (valid : state.Valid) (account : AccountId) :
    (¬(∃ e, state.events.lookup eventId = some e ∧ e.PayoutOverflows account) →
      Same (fun payout => (payout.toNat : ℤ)) (view (payoutOf eventId account) state)
        (Market.view (Market.payoutOf eventId.toNat account) state.mirror)) ∧
    ((∃ abort, view (payoutOf eventId account) state = .error abort ∧ abort.Arithmetic) ↔
      ∃ e, state.events.lookup eventId = some e ∧ e.PayoutOverflows account) := by
  rw [view_payoutOf, Market.view_payoutOf, lookup_mirror]
  cases found : state.events.lookup eventId with
  | none =>
    refine ⟨fun _ => rfl, iff_of_false ?_ ?_⟩
    · rintro ⟨_, ⟨⟩, named⟩
      exact absurd named (show "UnknownEvent" ≠ "PayoutOverflow" by decide)
    · rintro ⟨_, ⟨⟩, _⟩
  | some e =>
    have valid := valid.event found
    dsimp only [Option.map_some]
    by_cases overflows : e.PayoutOverflows account
    · rw [EventContract.payout_overflow valid overflows]
      exact ⟨fun clear => absurd ⟨e, rfl, overflows⟩ clear,
        iff_of_true ⟨_, rfl, Abort.arithmetic_payout⟩ ⟨e, rfl, overflows⟩⟩
    · obtain ⟨payout, computed, value⟩ := EventContract.payout_mirror valid overflows
      rw [computed, value]
      refine ⟨fun _ => rfl, iff_of_false ?_ ?_⟩
      · rintro ⟨_, ⟨⟩, _⟩
      · rintro ⟨_, ⟨⟩, holds⟩
        exact overflows holds

private theorem voidable_alike (env : Env) :
    (¬(∃ e, state.events.lookup eventId = some e ∧ VoidOverflows e) →
      Same id (view (isVoidable env eventId) state)
        (Market.view (Market.isVoidable eventId.toNat env.blockTimestamp.toNat) state.mirror)) ∧
    ((∃ abort, view (isVoidable env eventId) state = .error abort ∧ abort.Arithmetic) ↔
      ∃ e, state.events.lookup eventId = some e ∧ VoidOverflows e) := by
  rw [view_isVoidable, Market.view_isVoidable, lookup_mirror]
  cases state.events.lookup eventId with
  | none =>
    refine ⟨fun _ => rfl, iff_of_false ?_ ?_⟩
    · rintro ⟨_, ⟨⟩, _⟩
    · rintro ⟨_, ⟨⟩, _⟩
  | some e =>
    dsimp only [Option.map_some]
    by_cases opened : e.phase = .opened
    · rw [if_pos opened]
      cases sum : Checked.add e.closesAt voidGrace with
      | none =>
        rw [Checked.add_eq_none, voidGrace_toNat] at sum
        exact ⟨fun clear => absurd ⟨e, rfl, opened, sum⟩ clear,
          iff_of_true ⟨_, rfl, Abort.arithmetic_overflow⟩ ⟨e, rfl, opened, sum⟩⟩
      | some voidableAt =>
        rw [Checked.add_eq_some, voidGrace_toNat] at sum
        have inside := voidableAt.isLt
        refine ⟨fun _ => ?_, iff_of_false ?_ ?_⟩
        · have reached : e.phase = .opened ∧ (env.blockTimestamp.toNat : ℤ) ≥ e.closesAt.toNat + voidGraceNs ↔
              voidableAt ≤ env.blockTimestamp := by
            rw [BitVec.le_def, sum]
            simp only [opened, true_and]
            omega
          exact congrArg Except.ok (decide_eq_decide.mpr reached)
        · rintro ⟨_, ⟨⟩, _⟩
        · rintro ⟨_, ⟨⟩, overflows⟩
          have exceeds := overflows.exceeds
          omega
    · rw [if_neg opened]
      refine ⟨fun _ => ?_, iff_of_false ?_ ?_⟩
      · exact congrArg Except.ok (decide_eq_false (fun voidable => opened voidable.1))
      · rintro ⟨_, ⟨⟩, _⟩
      · rintro ⟨_, ⟨⟩, overflows⟩
        exact opened overflows.opened

theorem views_alike (valid : state.Valid) (eventId : U64) : ViewsAlike state state.mirror eventId := by
  refine ⟨?_, ?_, fun account => (payout_alike valid account).1, fun account => (payout_alike valid account).2,
    fun env => (voidable_alike env).1, fun env => (voidable_alike env).2⟩
  · rw [view_getEventView, Market.view_getEvent, lookup_mirror]
    cases state.events.lookup eventId <;> rfl
  · rw [view_liabilityOf, Market.view_liabilityOf, lookup_mirror]
    cases state.events.lookup eventId <;> rfl

end Views

/-- Up to the first call that meets an overflow condition, the contract and the mirror
answer alike and keep the same state and the same views, and an integer operation aborts
exactly under those conditions. -/
theorem lockstep (inputs : List (Env × Call)) (accepted : ∀ input ∈ inputs, Accepts input.1 input.2)
    (clear : machine.Along (fun state input => ¬Overflows state input.1 input.2) machine.init inputs) :
    let state := machine.after machine.init inputs
    let calls := inputs.map fun input => input.2.mirror input.1
    List.Forall₂ (fun receipt answer => Same Value.mirror receipt.result answer)
        (machine.answers machine.init inputs) (Market.machine.answers Market.machine.init calls) ∧
      state.mirror = Market.machine.after Market.machine.init calls ∧
      (∀ env call, Accepts env call → StepsAlike state (Market.machine.after Market.machine.init calls) env call) ∧
      ∀ eventId, ViewsAlike state (Market.machine.after Market.machine.init calls) eventId := by
  intro state calls
  have valid : state.Valid := reachable_valid ⟨inputs, rfl⟩
  have matched : ∀ (state : State) (market : Market.EventMarket) (input : Env × Call),
      state.Valid ∧ state.mirror = market → ¬Overflows state input.1 input.2 ∧ Accepts input.1 input.2 →
      Same Value.mirror (machine.step state input).1.result (Market.machine.step market (input.2.mirror input.1)).1 ∧
        (machine.step state input).2.Valid ∧
          (machine.step state input).2.mirror = (Market.machine.step market (input.2.mirror input.1)).2 := by
    rintro state _ ⟨env, call⟩ ⟨valid, rfl⟩ ⟨clear, accepts⟩
    have alike := steps_alike valid accepts
    exact ⟨alike.answers clear, valid.step _, alike.states clear⟩
  obtain ⟨answers, _, image⟩ := @Machine.run_alike _ _ _ machine _ _ _ Market.machine (fun input => input.2.mirror input.1)
    _ (fun state market => state.Valid ∧ state.mirror = market)
    (fun receipt answer => Same Value.mirror receipt.result answer) matched inputs _ Market.machine.init
    ⟨reachable_valid Machine.Reachable.init, rfl⟩ (Machine.Along.and machine clear accepted)
  change state.mirror = Market.machine.after Market.machine.init calls at image
  refine ⟨answers, image, ?_, ?_⟩
  · intro env call accepts
    rw [← image]
    exact steps_alike valid accepts
  · intro eventId
    rw [← image]
    exact views_alike valid eventId

private def stakedRun : List (Env × Call) :=
  [(⟨"creator.testnet", 0, 9⟩, .createEvent "resolver.testnet" 10), (⟨"alice.testnet", 2, 9⟩, .takePosition 0 .yes),
    (⟨"resolver.testnet", 0, 10⟩, .resolve 0 .yes)]

theorem lockstep_staked :
    (machine.after machine.init stakedRun).mirror =
      Market.machine.after Market.machine.init (stakedRun.map fun input => input.2.mirror input.1) := by
  refine (lockstep stakedRun (by decide) ⟨?_, ?_, not_false, trivial⟩).2.1
  · exact fun overflows => absurd overflows.2 (by decide)
  · rintro ⟨e, found, overflows⟩
    obtain rfl := Option.some.inj found
    exact absurd overflows.exceeds (by decide)

end NearRewards.Contract
