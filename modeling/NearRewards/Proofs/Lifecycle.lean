import NearRewards.Proofs.Lockstep

/-! The life of an event over a whole run: who decided it and when, whose deposits its
stakes are, and what never changes about it. -/

namespace NearRewards

/-- The phases one step apart. -/
inductive Phase.Next : Phase → Phase → Prop where
  | resolve : Phase.Next .opened .resolved
  | void : Phase.Next .opened .voided
  | finalize : Phase.Next .resolved .settled

/-- The way to a phase. -/
def Phase.road : Phase → List Phase
  | .opened => [.opened]
  | .resolved => [.opened, .resolved]
  | .settled => [.opened, .resolved, .settled]
  | .voided => [.opened, .voided]

theorem Phase.road_last (phase : Phase) : phase.road.getLast? = some phase := by
  cases phase <;> rfl

theorem Phase.Next.road {phase next : Phase} (step : Phase.Next phase next) : next.road = phase.road ++ [next] := by
  cases step <;> rfl

theorem Phase.Next.ne {phase next : Phase} (step : Phase.Next phase next) : phase ≠ next := by
  cases step <;> decide

end NearRewards

namespace NearRewards.Contract

/-- The event a call is about. -/
def Call.target : Call → Option U64
  | .createEvent _ _ => none
  | .takePosition eventId _ => some eventId
  | .resolve eventId _ => some eventId
  | .voidEvent eventId => some eventId
  | .settle eventId _ => some eventId

def success? (eventId : U64) : (Env × Call) × Receipt → Option (Env × Call)
  | (input, ⟨.ok _, _, _⟩) => if input.2.target = some eventId then some input else none
  | _ => none

/-- The successful calls on an event, in order. -/
def successes (eventId : U64) (history : List ((Env × Call) × Receipt)) : List (Env × Call) :=
  history.filterMap (success? eventId)

/-- The resolver and the close an event was created with. -/
def creation? (eventId : U64) : (Env × Call) × Receipt → Option (AccountId × U64)
  | ((_, .createEvent resolver closesAt), ⟨.ok (.eventId id), _, _⟩) =>
    if id = eventId then some (resolver, closesAt) else none
  | _ => none

def creations (eventId : U64) (history : List ((Env × Call) × Receipt)) : List (AccountId × U64) :=
  history.filterMap (creation? eventId)

def resolution? : Env × Call → Option (Env × Outcome)
  | (env, .resolve _ outcome) => some (env, outcome)
  | _ => none

def voiding? : Env × Call → Option Env
  | (env, .voidEvent _) => some env
  | _ => none

def settles (account : AccountId) : Env × Call → Bool
  | (_, .settle _ claimant) => claimant = account
  | _ => false

def settlements (account : AccountId) (calls : List (Env × Call)) : ℕ := calls.countP (settles account)

def stakeOn (account : AccountId) (side : Outcome) : Env × Call → ℕ
  | (env, .takePosition _ chosen) =>
    if env.predecessorAccountId = account ∧ chosen = side then env.attachedDeposit.toNat else 0
  | _ => 0

def staked (account : AccountId) (side : Outcome) (calls : List (Env × Call)) : ℕ := (calls.map (stakeOn account side)).sum

/-- What the successful calls on an event tell about it. -/
structure History (calls : List (Env × Call)) (e : Event) : Prop where
  opened : e.phase = .opened → calls.filterMap resolution? = [] ∧ calls.filterMap voiding? = [] ∧ e.outcome = .unresolved
  resolved : e.phase = .resolved ∨ e.phase = .settled → ∃ env, calls.filterMap resolution? = [(env, e.outcome)] ∧
    calls.filterMap voiding? = [] ∧ (e.outcome = .yes ∨ e.outcome = .no) ∧ env.predecessorAccountId = e.resolver ∧
    e.closesAt ≤ env.blockTimestamp
  voided : e.phase = .voided → ∃ env, calls.filterMap voiding? = [env] ∧ calls.filterMap resolution? = [] ∧
    e.outcome = .unresolved ∧ e.closesAt.toNat + voidGraceNs ≤ env.blockTimestamp.toNat
  yesStake : ∀ account, (e.yesOf account).toNat = staked account .yes calls
  noStake : ∀ account, (e.noOf account).toNat = staked account .no calls
  claimed : ∀ account, settlements account calls = if e.claimedBy account then 1 else 0

section Steps
variable {calls : List (Env × Call)} {e final : Event} {env : Env} {eventId : U64}

@[simp] theorem staked_concat (account : AccountId) (side : Outcome) (calls : List (Env × Call)) (call : Env × Call) :
    staked account side (calls ++ [call]) = staked account side calls + stakeOn account side call := by
  simp [staked]

@[simp] theorem settlements_concat (account : AccountId) (calls : List (Env × Call)) (call : Env × Call) :
    settlements account (calls ++ [call]) = settlements account calls + if settles account call then 1 else 0 := by
  rw [settlements, List.countP_append, List.countP_singleton]
  rfl

theorem History.record (told : History calls e) (opened : e.phase = .opened) {outcome : Outcome}
    (sided : outcome = .yes ∨ outcome = .no) (caller : env.predecessorAccountId = e.resolver)
    (closed : e.closesAt ≤ env.blockTimestamp) : History (calls ++ [(env, .resolve eventId outcome)]) (e.record outcome) := by
  obtain ⟨unresolved, unvoided, _⟩ := told.opened opened
  refine ⟨?_, fun _ => ⟨env, ?_, ?_, sided, caller, closed⟩, ?_, fun account => ?_, fun account => ?_, fun account => ?_⟩
  · rintro ⟨⟩
  · simp [unresolved, resolution?, EventContract.record]
  · simp [unvoided, voiding?]
  · rintro ⟨⟩
  · rw [staked_concat]
    exact told.yesStake account
  · rw [staked_concat]
    exact told.noStake account
  · rw [settlements_concat]
    exact told.claimed account

theorem History.void (told : History calls e) (opened : e.phase = .opened)
    (late : e.closesAt.toNat + voidGraceNs ≤ env.blockTimestamp.toNat) :
    History (calls ++ [(env, .voidEvent eventId)]) { e with phase := .voided } := by
  obtain ⟨unresolved, unvoided, fresh⟩ := told.opened opened
  refine ⟨?_, ?_, fun _ => ⟨env, ?_, ?_, fresh, late⟩, fun account => ?_, fun account => ?_, fun account => ?_⟩
  · rintro ⟨⟩
  · rintro (⟨⟨⟩⟩ | ⟨⟨⟩⟩)
  · simp [unvoided, voiding?]
  · simp [unresolved, resolution?]
  · rw [staked_concat]
    exact told.yesStake account
  · rw [staked_concat]
    exact told.noStake account
  · rw [settlements_concat]
    exact told.claimed account

/-- A stake on one side raises that side's entry of the staker and no other. -/
private theorem raise {stakes : Ledger AccountId U128} {staker account : AccountId} {side chosen : Outcome} {stake : U128}
    (raised : stake.toNat = ((stakes.lookup staker).getD 0).toNat + env.attachedDeposit.toNat)
    (caller : env.predecessorAccountId = staker) (same : chosen = side)
    (told : ((stakes.lookup account).getD 0).toNat = staked account side calls) :
    (((stakes.insert staker stake).lookup account).getD 0).toNat =
      staked account side (calls ++ [(env, .takePosition eventId chosen)]) := by
  subst caller same
  rw [staked_concat, Ledger.lookup_insert, stakeOn]
  by_cases own : account = env.predecessorAccountId
  · subst own
    rw [if_pos rfl, if_pos ⟨rfl, rfl⟩, ← told]
    exact raised
  · rw [if_neg own, if_neg (fun both => own both.1.symm)]
    exact told

private theorem other_side {account : AccountId} {side chosen : Outcome} (different : chosen ≠ side) :
    staked account side (calls ++ [(env, .takePosition eventId chosen)]) = staked account side calls := by
  rw [staked_concat, stakeOn, if_neg (fun both => different both.2), Nat.add_zero]

theorem History.add (told : History calls e) (opened : e.phase = .opened) {side : Outcome} (chosen : side ≠ .unresolved)
    (added : e.add env.predecessorAccountId side env.attachedDeposit = some final) :
    History (calls ++ [(env, .takePosition eventId side)]) final := by
  obtain ⟨unresolved, unvoided, fresh⟩ := told.opened opened
  obtain ⟨_, _, phase, outcome, _, claimed⟩ := EventContract.add_frame added
  refine ⟨fun _ => ⟨?_, ?_, outcome ▸ fresh⟩, ?_, ?_, fun account => ?_, fun account => ?_, fun account => ?_⟩
  · simp [unresolved, resolution?]
  · simp [unvoided, voiding?]
  · simp [phase, opened]
  · simp [phase, opened]
  · obtain ⟨_, _, _, _, ⟨rfl, raised, _, rfl⟩ | ⟨rfl, _, _, rfl⟩⟩ := EventContract.add_cases chosen added
    · exact raise raised rfl rfl (told.yesStake account)
    · exact (told.yesStake account).trans (other_side (by decide)).symm
  · obtain ⟨_, _, _, _, ⟨rfl, _, _, rfl⟩ | ⟨rfl, raised, _, rfl⟩⟩ := EventContract.add_cases chosen added
    · exact (told.noStake account).trans (other_side (by decide)).symm
    · exact raise raised rfl rfl (told.noStake account)
  · rw [settlements_concat, EventContract.claimedBy, claimed]
    exact told.claimed account

theorem History.pay (told : History calls e) (decided : e.phase ≠ .opened) {account : AccountId}
    (unclaimed : e.claimedBy account = false) {payout : U128} (paid : e.pay account payout = some final) :
    History (calls ++ [(env, .settle eventId account)]) final := by
  have phase := EventContract.pay_phase paid
  obtain ⟨unclaimedWinStake, frame⟩ := EventContract.pay_frame paid
  have resolutions : (calls ++ [(env, Call.settle eventId account)]).filterMap resolution? = calls.filterMap resolution? := by
    simp [resolution?]
  have voidings : (calls ++ [(env, Call.settle eventId account)]).filterMap voiding? = calls.filterMap voiding? := by
    simp [voiding?]
  refine ⟨?_, ?_, ?_, fun other => ?_, fun other => ?_, fun other => ?_⟩
  · grind
  · rw [resolutions, voidings]
    intro resolved
    have before : e.phase = .resolved ∨ e.phase = .settled := by grind
    subst frame
    exact told.resolved before
  · rw [resolutions, voidings]
    intro voided
    have before : e.phase = .voided := by grind
    subst frame
    exact told.voided before
  · subst frame
    rw [staked_concat]
    exact told.yesStake other
  · subst frame
    rw [staked_concat]
    exact told.noStake other
  · subst frame
    rw [settlements_concat, EventContract.claimedBy, Ledger.lookup_insert, told.claimed, settles]
    by_cases own : account = other
    · subst own
      simp [unclaimed]
    · simp only [own, decide_false, Bool.false_eq_true, if_false, Nat.add_zero, if_neg (Ne.symm own)]
      rfl

theorem History.acts (told : History calls e) {call : Call} {effect : Effect Value}
    (acted : Acts env call eventId e effect) : History (calls ++ [(env, call)]) effect.event := by
  cases acted with
  | stake done =>
    obtain ⟨opened, _, _, chosen, final, added, rfl⟩ := stakeAct_ok.mp done
    exact told.add opened chosen added
  | resolve done =>
    obtain ⟨caller, sided, opened, closed, rfl⟩ := resolveAct_ok.mp done
    exact told.record opened sided caller closed
  | void done =>
    obtain ⟨opened, late, rfl⟩ := voidAct_ok.mp done
    exact told.void opened late
  | settle done =>
    obtain ⟨decided, unclaimed, payout, final, _, _, paid, rfl⟩ := settleAct_ok.mp done
    exact told.pay decided unclaimed paid

end Steps

/-- What no later call takes back. -/
structure Evolves (earlier e : Event) : Prop where
  resolver : e.resolver = earlier.resolver
  closesAt : e.closesAt = earlier.closesAt
  left : earlier.phase ≠ .opened → e.phase ≠ .opened
  outcome : earlier.phase ≠ .opened → e.outcome = earlier.outcome

theorem Evolves.refl (e : Event) : Evolves e e := ⟨rfl, rfl, id, fun _ => rfl⟩

theorem Evolves.trans {first middle last : Event} (a : Evolves first middle) (b : Evolves middle last) : Evolves first last where
  resolver := b.resolver.trans a.resolver
  closesAt := b.closesAt.trans a.closesAt
  left := fun decided => b.left (a.left decided)
  outcome := fun decided => (b.outcome (a.left decided)).trans (a.outcome decided)

section Acted
variable {env : Env} {call : Call} {eventId : U64} {e : Event} {effect : Effect Value}

theorem Acts.target (acted : Acts env call eventId e effect) : call.target = some eventId := by
  cases acted <;> rfl

theorem Acts.phase (acted : Acts env call eventId e effect) :
    effect.event.phase = e.phase ∨ Phase.Next e.phase effect.event.phase := by
  cases acted with
  | stake done =>
    obtain ⟨_, _, _, _, final, added, rfl⟩ := stakeAct_ok.mp done
    exact Or.inl (EventContract.add_frame added).2.2.1
  | resolve done =>
    obtain ⟨_, _, opened, _, rfl⟩ := resolveAct_ok.mp done
    exact Or.inr (opened ▸ .resolve)
  | void done =>
    obtain ⟨opened, _, rfl⟩ := voidAct_ok.mp done
    exact Or.inr (opened ▸ .void)
  | settle done =>
    obtain ⟨_, _, payout, final, _, _, paid, rfl⟩ := settleAct_ok.mp done
    refine (EventContract.pay_phase paid).imp_right ?_
    rintro ⟨resolved, settled⟩
    change Phase.Next e.phase final.phase
    rw [resolved, settled]
    exact .finalize

theorem Acts.evolves (acted : Acts env call eventId e effect) : Evolves e effect.event := by
  cases acted with
  | stake done =>
    obtain ⟨_, _, _, _, final, added, rfl⟩ := stakeAct_ok.mp done
    obtain ⟨resolver, closesAt, phase, outcome, _, _⟩ := EventContract.add_frame added
    exact ⟨resolver, closesAt, fun decided => phase ▸ decided, fun _ => outcome⟩
  | resolve done =>
    obtain ⟨_, _, opened, _, rfl⟩ := resolveAct_ok.mp done
    exact ⟨rfl, rfl, fun decided => absurd opened decided, fun decided => absurd opened decided⟩
  | void done =>
    obtain ⟨opened, _, rfl⟩ := voidAct_ok.mp done
    exact ⟨rfl, rfl, fun decided => absurd opened decided, fun _ => rfl⟩
  | settle done =>
    obtain ⟨_, _, payout, final, _, _, paid, rfl⟩ := settleAct_ok.mp done
    have phase := EventContract.pay_phase paid
    obtain ⟨_, frame⟩ := EventContract.pay_frame paid
    refine ⟨frame ▸ rfl, frame ▸ rfl, fun decided => ?_, fun _ => frame ▸ rfl⟩
    change final.phase ≠ .opened
    grind

end Acted

/-- What a history tells about an event that may not exist yet. -/
def Recounts (history : List ((Env × Call) × Receipt)) (eventId : U64) : Option Event → Prop
  | none => successes eventId history = [] ∧ creations eventId history = []
  | some e => History (successes eventId history) e ∧ creations eventId history = [(e.resolver, e.closesAt)]

section Runs
variable {history : List ((Env × Call) × Receipt)} {entry : (Env × Call) × Receipt} {eventId : U64}

theorem successes_skip (quiet : success? eventId entry = none) : successes eventId (history ++ [entry]) = successes eventId history := by
  simp [successes, quiet]

theorem successes_take {act : Env × Call} (done : success? eventId entry = some act) :
    successes eventId (history ++ [entry]) = successes eventId history ++ [act] := by
  simp [successes, done]

theorem creations_skip (quiet : creation? eventId entry = none) : creations eventId (history ++ [entry]) = creations eventId history := by
  simp [creations, quiet]

theorem History.fresh (resolver : AccountId) (closesAt : U64) :
    History [] { resolver, closesAt, phase := .opened, outcome := .unresolved, poolYes := 0, poolNo := 0, escrow := 0,
                 unclaimedWinStake := 0, yesStake := ∅, noStake := ∅, claimed := ∅ } where
  opened := fun _ => ⟨rfl, rfl, rfl⟩
  resolved := by rintro (⟨⟨⟩⟩ | ⟨⟨⟩⟩)
  voided := by rintro ⟨⟩
  yesStake := fun _ => rfl
  noStake := fun _ => rfl
  claimed := fun _ => rfl

private theorem recounts_skip {found : Option Event} (told : Recounts history eventId found)
    (act : success? eventId entry = none) (create : creation? eventId entry = none) :
    Recounts (history ++ [entry]) eventId found := by
  cases found with
  | none => exact ⟨(successes_skip act).trans told.1, (creations_skip create).trans told.2⟩
  | some e => exact ⟨(successes_skip act).symm ▸ told.1, (creations_skip create).trans told.2⟩

private theorem recounts_step {state : State} (valid : state.Valid)
    (told : ∀ eventId, Recounts history eventId (state.events.lookup eventId)) (input : Env × Call) (eventId : U64) :
    Recounts (history ++ [(input, (machine.step state input).1)]) eventId
      ((machine.step state input).2.events.lookup eventId) := by
  obtain ⟨env, call⟩ := input
  have before := told eventId
  obtain ⟨abort, ran⟩ | ⟨resolver, closesAt, next, rfl, _, _, _, ran⟩ | ⟨target, e, effect, found, acted, ran⟩ :=
    step_cases state env call
  · rw [ran]
    exact recounts_skip before rfl (by cases call <;> rfl)
  · rw [ran]
    dsimp only [Settlemint.create]
    rw [Ledger.lookup_insert]
    by_cases own : eventId = state.nextEventId
    · subst own
      rw [valid.fresh] at before
      rw [if_pos rfl]
      refine ⟨?_, ?_⟩
      · rw [successes_skip rfl, before.1]
        exact .fresh resolver closesAt
      · rw [creations, List.filterMap_append, ← creations, before.2]
        simp [creation?]
    · rw [if_neg own]
      exact recounts_skip before rfl (if_neg (Ne.symm own))
  · have created : ∀ receipt, creation? eventId ((env, call), receipt) = none := by
      intro receipt
      cases acted <;> rfl
    rw [ran]
    dsimp only
    rw [Ledger.lookup_insert]
    by_cases own : eventId = target
    · subst own
      rw [found] at before
      rw [if_pos rfl]
      refine ⟨?_, ?_⟩
      · have done : success? eventId ((env, call), ⟨.ok effect.value, effect.records, effect.transfers⟩) = some (env, call) :=
          if_pos acted.target
        rw [successes_take done]
        exact before.1.acts acted
      · rw [creations_skip (created _), acted.evolves.resolver, acted.evolves.closesAt]
        exact before.2
    · rw [if_neg own]
      refine recounts_skip before ?_ (created _)
      exact if_neg (fun same => own (Option.some.inj (same.symm.trans acted.target)))

/-- The history of a run recounts the life of every event. -/
theorem recounts (inputs : List (Env × Call)) (eventId : U64) :
    Recounts (machine.trace machine.init inputs) eventId ((machine.after machine.init inputs).events.lookup eventId) := by
  have run := machine.history_invariant (P := fun history state => state.Valid ∧
    ∀ eventId, Recounts history eventId (state.events.lookup eventId)) ⟨reachable_valid .init, fun _ => ⟨rfl, rfl⟩⟩
    (fun history state input ⟨valid, told⟩ => ⟨valid.step input, recounts_step valid told input⟩) inputs
  exact run.2 eventId

/-- The phases an event has gone through, in order. -/
def phases (eventId : U64) (inputs : List (Env × Call)) : List Phase :=
  machine.passes (fun state => (state.events.lookup eventId).map EventContract.phase) machine.init inputs

/-- What one call does to the phase of an event. -/
private theorem step_phase {state : State} (valid : state.Valid) (input : Env × Call) (eventId : U64) :
    (machine.step state input).2.events.lookup eventId = state.events.lookup eventId ∨
      (state.events.lookup eventId = none ∧
        ∃ e, (machine.step state input).2.events.lookup eventId = some e ∧ e.phase = .opened) ∨
      ∃ e final, state.events.lookup eventId = some e ∧ (machine.step state input).2.events.lookup eventId = some final ∧
        Evolves e final ∧ (final.phase = e.phase ∨ Phase.Next e.phase final.phase) := by
  obtain ⟨env, call⟩ := input
  obtain ⟨abort, ran⟩ | ⟨resolver, closesAt, next, rfl, _, _, _, ran⟩ | ⟨target, e, effect, found, acted, ran⟩ :=
    step_cases state env call
  · exact Or.inl (ran ▸ rfl)
  · rw [ran]
    dsimp only [Settlemint.create]
    rw [Ledger.lookup_insert]
    by_cases own : eventId = state.nextEventId
    · subst own
      exact Or.inr (Or.inl ⟨valid.fresh, _, if_pos rfl, rfl⟩)
    · exact Or.inl (if_neg own)
  · rw [ran]
    dsimp only
    rw [Ledger.lookup_insert]
    by_cases own : eventId = target
    · subst own
      exact Or.inr (Or.inr ⟨e, effect.event, found, if_pos rfl, acted.evolves, acted.phase⟩)
    · exact Or.inl (if_neg own)

/-- An event has taken exactly the way to its phase. -/
theorem phases_eq (inputs : List (Env × Call)) (eventId : U64) :
    phases eventId inputs =
      match (machine.after machine.init inputs).events.lookup eventId with
      | none => []
      | some e => e.phase.road := by
  induction inputs using List.reverseRecOn with
  | nil => rfl
  | append_singleton inputs input ih =>
    have valid := reachable_valid ⟨inputs, rfl⟩
    unfold phases at ih ⊢
    rw [Machine.passes_concat, Machine.after_concat]
    obtain same | ⟨missing, e, found, opened⟩ | ⟨e, final, before, after, _, phase⟩ := step_phase valid input eventId
    · rw [same, ih]
      cases (machine.after machine.init inputs).events.lookup eventId with
      | none => rfl
      | some e => exact if_pos e.phase.road_last
    · rw [found, ih, missing]
      simp [opened, Phase.road]
    · rw [after, ih, before]
      dsimp only [Option.map_some]
      rw [Phase.road_last]
      rcases phase with same | next
      · rw [if_pos (congrArg some same.symm), same]
      · rw [if_neg (fun same => next.ne (Option.some.inj same)), next.road]

/-- Events stay, and evolve. -/
theorem events_evolve {state : State} (valid : state.Valid) (inputs : List (Env × Call)) (eventId : U64) (e : Event)
    (found : state.events.lookup eventId = some e) :
    ∃ final, (machine.after state inputs).events.lookup eventId = some final ∧ Evolves e final := by
  refine machine.after_related (P := Settlemint.Valid) (R := fun first last => ∀ e, first.events.lookup eventId = some e →
    ∃ final, last.events.lookup eventId = some final ∧ Evolves e final) ?_ ?_ ?_ ?_ valid inputs e found
  · exact fun _ e found => ⟨e, found, .refl e⟩
  · intro _ _ _ earlier later e found
    obtain ⟨middle, found, a⟩ := earlier e found
    obtain ⟨final, found, b⟩ := later middle found
    exact ⟨final, found, a.trans b⟩
  · exact fun _ input valid => valid.step input
  · intro state input valid e found
    obtain same | ⟨missing, _⟩ | ⟨before, final, held, after, evolves, _⟩ := step_phase valid input eventId
    · exact ⟨e, same.trans found, .refl e⟩
    · cases missing.symm.trans found
    · cases held.symm.trans found
      exact ⟨final, after, evolves⟩

end Runs

/-- The life of an event that exists at the end of a run. -/
structure Lifecycle (inputs : List (Env × Call)) (eventId : U64) (e : Event) : Prop where
  phases : phases eventId inputs <+: [.opened, .resolved, .settled] ∨ phases eventId inputs <+: [.opened, .voided]
  history : History (successes eventId (machine.trace machine.init inputs)) e
  timely : ∀ before env side after value, inputs = before ++ (env, .takePosition eventId side) :: after →
    (machine.step (machine.after machine.init before) (env, .takePosition eventId side)).1.result = .ok value →
    env.blockTimestamp < e.closesAt ∧
      ∃ earlier, (machine.after machine.init before).events.lookup eventId = some earlier ∧ earlier.phase = .opened
  created : creations eventId (machine.trace machine.init inputs) = [(e.resolver, e.closesAt)]
  constant : ∀ before after, inputs = before ++ after →
    ∀ earlier, (machine.after machine.init before).events.lookup eventId = some earlier →
      earlier.resolver = e.resolver ∧ earlier.closesAt = e.closesAt ∧
        earlier.outcome = if earlier.phase = .opened then .unresolved else e.outcome

private theorem stake_ok {state : State} {env : Env} {eventId : U64} {side : Outcome} {value : Value}
    (done : (machine.step state (env, .takePosition eventId side)).1.result = .ok value) :
    ∃ e, state.events.lookup eventId = some e ∧ e.phase = .opened ∧ env.blockTimestamp < e.closesAt := by
  obtain ⟨abort, ran⟩ | ⟨_, _, _, create, _⟩ | ⟨target, e, effect, found, acted, ran⟩ :=
    step_cases state env (.takePosition eventId side)
  · rw [ran] at done
    cases done
  · cases create
  · cases acted with
    | stake acted =>
      obtain ⟨opened, early, _⟩ := stakeAct_ok.mp acted
      exact ⟨e, found, opened, early⟩

/-- Whatever the callers, the deposits and the timestamps of a run, each event follows its
lifecycle. -/
theorem lifecycle (inputs : List (Env × Call)) {eventId : U64} {e : Event}
    (found : (machine.after machine.init inputs).events.lookup eventId = some e) : Lifecycle inputs eventId e := by
  have told := recounts inputs eventId
  have evolved : ∀ before after, inputs = before ++ after →
      ∀ earlier, (machine.after machine.init before).events.lookup eventId = some earlier → Evolves earlier e := by
    intro before after split earlier held
    obtain ⟨final, present, evolves⟩ := events_evolve (reachable_valid ⟨before, rfl⟩) after eventId earlier held
    rw [← Machine.after_append, ← split] at present
    cases present.symm.trans found
    exact evolves
  rw [found] at told
  refine ⟨?_, told.1, ?_, told.2, ?_⟩
  · rw [phases_eq, found]
    dsimp only
    cases e.phase <;> decide
  · intro before env side after value split done
    obtain ⟨earlier, held, opened, early⟩ := stake_ok done
    have evolves := evolved before _ split earlier held
    exact ⟨evolves.closesAt ▸ early, earlier, held, opened⟩
  · intro before after split earlier held
    have evolves := evolved before after split earlier held
    refine ⟨evolves.resolver.symm, evolves.closesAt.symm, ?_⟩
    split_ifs with opened
    · have past := recounts before eventId
      rw [held] at past
      exact (past.1.opened opened).2.2
    · exact (evolves.outcome opened).symm

private def settledRun : List (Env × Call) :=
  [(⟨"creator.testnet", 0, 9⟩, .createEvent "resolver.testnet" 10), (⟨"alice.testnet", 2, 9⟩, .takePosition 0 .yes),
    (⟨"bob.testnet", 3, 9⟩, .takePosition 0 .no), (⟨"resolver.testnet", 0, 11⟩, .resolve 0 .no),
    (⟨"mallory.testnet", 0, 5⟩, .settle 0 "bob.testnet")]

/-- A loser, a winner, and a settlement by a stranger with an earlier timestamp. -/
theorem lifecycle_settled : ∃ e, (machine.after machine.init settledRun).events.lookup 0 = some e ∧
    e.phase = .settled ∧ Lifecycle settledRun 0 e := by
  have held : ((machine.after machine.init settledRun).events.lookup 0).map EventContract.phase = some .settled := by
    decide
  obtain ⟨e, found, settled⟩ := Option.map_eq_some_iff.mp held
  exact ⟨e, found, settled, lifecycle settledRun found⟩

end NearRewards.Contract
