import NearRewards.LogIndex
import NearRewards.Proofs.Lockstep

/-! The log determines the contract: folding it gives back every event of the state, and the
values it prints are the ones the fold has reached. -/

namespace NearRewards.Contract

/-- The index holds the event, field by field and account by account. -/
structure Reads (i : Indexed) (e : Event) : Prop where
  resolver : i.resolver = e.resolver
  closesAt : i.closesAt = e.closesAt
  phase : i.phase = e.phase
  outcome : i.outcome = e.outcome
  poolYes : i.poolYes = e.poolYes.toNat
  poolNo : i.poolNo = e.poolNo.toNat
  escrow : i.escrow = e.escrow.toNat
  unclaimedWinStake : i.unclaimedWinStake = e.unclaimedWinStake.toNat
  yesStake : ∀ account, i.yesOf account = (e.yesOf account).toNat
  noStake : ∀ account, i.noOf account = (e.noOf account).toNat
  claimed : ∀ account, account ∈ i.claimed ↔ e.claimedBy account = true

/-- The index and the state know the same events. -/
def Reads.Opt : Option Indexed → Option Event → Prop
  | none, none => True
  | some i, some e => Reads i e
  | _, _ => False

def Retells (index : LogIndex) (events : Events) : Prop :=
  ∀ eventId, Reads.Opt (index.lookup eventId) (events.lookup eventId)

section Reading
variable {i : Indexed} {e final : Event}

theorem Reads.winOf (reads : Reads i e) (account : AccountId) : i.winOf account = (e.winOf account).toNat := by
  unfold Indexed.winOf EventContract.winOf
  rw [reads.outcome, reads.yesStake, reads.noStake]
  split <;> rfl

theorem Reads.fresh (resolver : AccountId) (closesAt : U64) :
    Reads { resolver, closesAt }
      { resolver, closesAt, phase := .opened, outcome := .unresolved, poolYes := 0, poolNo := 0, escrow := 0,
        unclaimedWinStake := 0, yesStake := ∅, noStake := ∅, claimed := ∅ } where
  resolver := rfl
  closesAt := rfl
  phase := rfl
  outcome := rfl
  poolYes := rfl
  poolNo := rfl
  escrow := rfl
  unclaimedWinStake := rfl
  yesStake := fun _ => rfl
  noStake := fun _ => rfl
  claimed := fun account => iff_of_false (Finset.notMem_empty account) (Bool.false_ne_true)

theorem Reads.resolve (reads : Reads i e) (outcome : Outcome) : Reads (i.resolve outcome) (e.record outcome) :=
  { reads with
    phase := rfl
    outcome := rfl
    unclaimedWinStake := by
      change (if outcome = .yes then i.poolYes else i.poolNo) = ((if outcome = .yes then e.poolYes else e.poolNo).toNat : ℤ)
      rw [reads.poolYes, reads.poolNo]
      split <;> rfl }

theorem Reads.void (reads : Reads i e) : Reads { i with phase := .voided } { e with phase := .voided } :=
  { reads with phase := rfl }

/-- One entry of a ledger of stakes grows by the amount. -/
private theorem grown {told : Ledger AccountId ℤ} {stakes : Ledger AccountId U128} {staker : AccountId} {stake amount : U128}
    (raised : stake.toNat = ((stakes.lookup staker).getD 0).toNat + amount.toNat)
    (reads : ∀ account, (told.lookup account).getD 0 = (((stakes.lookup account).getD 0).toNat : ℤ)) (account : AccountId) :
    ((told.insert staker ((told.lookup staker).getD 0 + amount.toNat)).lookup account).getD 0 =
      ((((stakes.insert staker stake).lookup account).getD 0).toNat : ℤ) := by
  rw [Ledger.lookup_insert, Ledger.lookup_insert]
  split
  · rw [reads staker]
    exact (congrArg Nat.cast raised).symm
  · exact reads account

theorem Reads.take (reads : Reads i e) {account : AccountId} {side : Outcome} {amount : U128} (chosen : side ≠ .unresolved)
    (added : e.add account side amount = some final) : Reads (i.take account side amount.toNat) final := by
  have poolYes := reads.poolYes
  have poolNo := reads.poolNo
  have escrow := reads.escrow
  obtain ⟨stake, pool, held, whole, ⟨rfl, raised, filled, rfl⟩ | ⟨rfl, raised, filled, rfl⟩⟩ :=
    EventContract.add_cases chosen added
  · exact { reads with
      poolYes := by
        change i.poolYes + amount.toNat = (pool.toNat : ℤ)
        omega
      escrow := by
        change i.escrow + amount.toNat = (held.toNat : ℤ)
        omega
      yesStake := grown raised reads.yesStake }
  · exact { reads with
      poolNo := by
        change i.poolNo + amount.toNat = (pool.toNat : ℤ)
        omega
      escrow := by
        change i.escrow + amount.toNat = (held.toNat : ℤ)
        omega
      noStake := grown raised reads.noStake }

/-- A settlement that is read before the event's finalization. -/
theorem Reads.settle (reads : Reads i e) {account : AccountId} {payout : U128} (paid : e.pay account payout = some final)
    (capped : e.phase = .resolved → (e.winOf account).toNat ≤ e.unclaimedWinStake.toNat) :
    Reads (i.settle account payout.toNat) { final with phase := e.phase } := by
  have left := EventContract.pay_escrow paid
  have unclaimed := EventContract.pay_unclaimed paid
  obtain ⟨unclaimedWinStake, rfl⟩ := EventContract.pay_frame paid
  exact { reads with
    escrow := by
      change i.escrow - payout.toNat = ((e.escrow - payout).toNat : ℤ)
      change (e.escrow - payout).toNat + _ = _ at left
      rw [reads.escrow]
      omega
    unclaimedWinStake := by
      change unclaimedWinStake.toNat = _ at unclaimed
      change (if i.phase = .resolved then i.unclaimedWinStake - i.winOf account else i.unclaimedWinStake) =
        (unclaimedWinStake.toNat : ℤ)
      rw [reads.phase, reads.unclaimedWinStake, reads.winOf, unclaimed]
      split_ifs with resolved
      · have bound := capped resolved
        omega
      · rfl
    claimed := fun other => by
      change other ∈ insert account i.claimed ↔ ((e.claimed.insert account true).lookup other).getD false = true
      rw [Finset.mem_insert, reads.claimed, Ledger.lookup_insert]
      by_cases own : other = account
      · simp [own]
      · rw [if_neg own, or_iff_right own]
        rfl }

/-- The index sees a settlement end the event exactly when the contract does. -/
theorem Reads.finalizes (reads : Reads i e) {account : AccountId} {payout : U128} (paid : e.pay account payout = some final) :
    (i.settle account payout.toNat).phase = .resolved ∧ (i.settle account payout.toNat).escrow = 0 ↔
      e.Finalizes payout := by
  have left := EventContract.pay_escrow paid
  have escrow : final.escrow = e.escrow - payout := by
    obtain ⟨_, rfl⟩ := EventContract.pay_frame paid
    rfl
  have emptied : i.escrow - payout.toNat = 0 ↔ e.escrow - payout = 0 := by
    rw [← escrow, reads.escrow, ← toInt_eq_zero]
    omega
  constructor
  · rintro ⟨resolved, nothing⟩
    exact ⟨emptied.mp nothing, reads.phase.symm.trans resolved⟩
  · rintro ⟨nothing, resolved⟩
    exact ⟨reads.phase.trans resolved, emptied.mpr nothing⟩

theorem Reads.finalize (reads : Reads i e) : Reads { i with phase := .settled } { e with phase := .settled } :=
  { reads with phase := rfl }

end Reading

section Telling
variable {index : LogIndex} {events : Events} {eventId : U64} {e final : Event}

theorem Retells.insert (retells : Retells index events) {i : Indexed} (reads : Reads i e) :
    Retells (index.insert eventId i) (events.insert eventId e) := by
  intro other
  rw [Ledger.lookup_insert, Ledger.lookup_insert]
  split
  · exact reads
  · exact retells other

theorem Retells.lookup (retells : Retells index events) (found : events.lookup eventId = some e) :
    ∃ i, index.lookup eventId = some i ∧ Reads i e := by
  have held := retells eventId
  rw [found] at held
  cases told : index.lookup eventId with
  | none =>
    rw [told] at held
    cases held
  | some i =>
    rw [told] at held
    exact ⟨i, rfl, held⟩

theorem Retells.adjust (retells : Retells index events) (found : events.lookup eventId = some e) {change : Indexed → Indexed}
    (reads : ∀ i, Reads i e → Reads (change i) final) :
    Retells (index.adjust eventId change) (events.insert eventId final) := by
  obtain ⟨i, told, held⟩ := retells.lookup found
  rw [LogIndex.adjust, told]
  exact retells.insert (reads i held)

/-- The records of one successful action tell the index what became of the event. -/
theorem Acts.retells {env : Env} {call : Call} {effect : Effect Value} (acted : Acts env call eventId e effect)
    (valid : e.Valid) (retells : Retells index events) (found : events.lookup eventId = some e) :
    Retells (effect.records.foldl LogIndex.tell index) (events.insert eventId effect.event) := by
  cases acted with
  | stake done =>
    obtain ⟨_, _, _, chosen, final, added, rfl⟩ := stakeAct_ok.mp done
    exact retells.adjust found (fun i reads => reads.take chosen added)
  | resolve done =>
    obtain ⟨_, _, _, _, rfl⟩ := resolveAct_ok.mp done
    exact retells.adjust found (fun i reads => reads.resolve _)
  | void done =>
    obtain ⟨_, _, rfl⟩ := voidAct_ok.mp done
    exact retells.adjust found (fun i reads => reads.void)
  | settle done =>
    obtain ⟨_, unclaimed, payout, final, _, _, paid, rfl⟩ := settleAct_ok.mp done
    have settled := retells.adjust found (fun i reads => reads.settle paid (fun resolved => valid.winOf_le resolved unclaimed))
    have phase : final.phase = if e.Finalizes payout then .settled else e.phase := by
      obtain ⟨_, rfl⟩ := EventContract.pay_frame paid
      rfl
    by_cases last : e.Finalizes payout
    · rw [if_pos last] at phase
      have ended := settled.adjust (Finmap.lookup_insert _) (fun i reads => reads.finalize)
      have whole : ({ final with phase := .settled } : Event) = final := by rw [← phase]
      rw [Finmap.insert_insert] at ended
      change Retells _ (events.insert eventId { final with phase := .settled }) at ended
      rw [whole] at ended
      simp only [Effect.map, if_pos last]
      exact ended
    · rw [if_neg last] at phase
      have whole : ({ final with phase := e.phase } : Event) = final := by rw [← phase]
      rw [whole] at settled
      simp only [Effect.map, if_neg last]
      exact settled

end Telling

/-- What the log lines of one call say, given what the log has told before it. -/
structure Prints (index : LogIndex) (receipt : Receipt) : Prop where
  silent : ∀ abort, receipt.result = .error abort → receipt.logs = []
  pools : ∀ eventId outcome poolYes poolNo, .eventResolved eventId outcome poolYes poolNo ∈ receipt.logs →
    ∃ i, index.lookup eventId = some i ∧ i.poolYes = poolYes.toNat ∧ i.poolNo = poolNo.toNat
  escrow : ∀ eventId escrow, .eventVoided eventId escrow ∈ receipt.logs →
    ∃ i, index.lookup eventId = some i ∧ i.escrow = escrow.toNat
  finalized : ∀ eventId, .eventFinalized eventId ∈ receipt.logs ↔
    ∃ account payout, .settled eventId account payout ∈ receipt.logs ∧
      ∃ i, (index.tell (.settled eventId account payout)).lookup eventId = some i ∧ i.phase = .resolved ∧ i.escrow = 0

section Printing
variable {index : LogIndex} {state : State}

theorem Prints.aborted (abort : Abort) : Prints index ⟨.error abort, [], []⟩ := by
  refine ⟨fun _ _ => rfl, ?_, ?_, ?_⟩
  all_goals simp

/-- A settlement prints that the event is final when the index has reached its end. -/
theorem Prints.settle {eventId : U64} {e final : Event} (retells : Retells index state.events)
    (found : state.events.lookup eventId = some e) {account : AccountId} {payout : U128}
    (paid : e.pay account payout = some final) (value : Value) (transfers : List Transfer) :
    Prints index ⟨.ok value, .settled eventId account payout ::
      (if e.Finalizes payout then [.eventFinalized eventId] else []), transfers⟩ := by
  obtain ⟨i, told, reads⟩ := retells.lookup found
  have settled : (index.tell (.settled eventId account payout)).lookup eventId = some (i.settle account payout.toNat) := by
    rw [LogIndex.tell, LogIndex.adjust, told]
    exact Finmap.lookup_insert _
  have last : (∃ i, (index.tell (.settled eventId account payout)).lookup eventId = some i ∧ i.phase = .resolved ∧
      i.escrow = 0) ↔ e.Finalizes payout := by
    rw [settled, ← reads.finalizes paid]
    simp
  refine ⟨by simp, ?_, ?_, fun other => ?_⟩
  · split_ifs <;> simp
  · split_ifs <;> simp
  · split_ifs with ended
    · constructor
      · intro printed
        simp only [List.mem_cons, Record.eventFinalized.injEq, reduceCtorEq, List.not_mem_nil, or_false, false_or] at printed
        subst printed
        exact ⟨account, payout, List.mem_cons_self, last.mpr ended⟩
      · rintro ⟨_, _, printed, _⟩
        simp only [List.mem_cons, Record.settled.injEq, reduceCtorEq, List.not_mem_nil, or_false] at printed
        obtain ⟨rfl, _⟩ := printed
        simp
    · constructor
      · intro printed
        simp at printed
      · rintro ⟨_, _, printed, reached⟩
        simp only [List.mem_singleton, Record.settled.injEq] at printed
        obtain ⟨rfl, rfl, rfl⟩ := printed
        exact absurd (last.mp reached) ended

theorem Acts.prints {env : Env} {call : Call} {eventId : U64} {e : Event} {effect : Effect Value}
    (acted : Acts env call eventId e effect) (retells : Retells index state.events)
    (found : state.events.lookup eventId = some e) : Prints index ⟨.ok effect.value, effect.records, effect.transfers⟩ := by
  obtain ⟨i, told, reads⟩ := retells.lookup found
  cases acted with
  | stake done =>
    obtain ⟨_, _, _, chosen, final, added, rfl⟩ := stakeAct_ok.mp done
    refine ⟨?_, ?_, ?_, ?_⟩
    all_goals simp [Effect.map]
  | resolve done =>
    obtain ⟨_, _, _, _, rfl⟩ := resolveAct_ok.mp done
    refine ⟨by simp, ?_, by simp [Effect.map], by simp [Effect.map]⟩
    intro other outcome poolYes poolNo printed
    simp only [Effect.map, List.mem_singleton, Record.eventResolved.injEq] at printed
    obtain ⟨rfl, _, rfl, rfl⟩ := printed
    exact ⟨i, told, reads.poolYes, reads.poolNo⟩
  | void done =>
    obtain ⟨_, _, rfl⟩ := voidAct_ok.mp done
    refine ⟨by simp, by simp [Effect.map], ?_, by simp [Effect.map]⟩
    intro other escrow printed
    simp only [Effect.map, List.mem_singleton, Record.eventVoided.injEq] at printed
    obtain ⟨rfl, rfl⟩ := printed
    exact ⟨i, told, reads.escrow⟩
  | settle done =>
    obtain ⟨_, _, payout, final, _, _, paid, rfl⟩ := settleAct_ok.mp done
    exact Prints.settle retells found paid _ _

theorem step_retells (valid : state.Valid) (retells : Retells index state.events) (input : Env × Call) :
    Retells ((machine.step state input).1.logs.foldl LogIndex.tell index) (machine.step state input).2.events ∧
      Prints index (machine.step state input).1 := by
  obtain ⟨env, call⟩ := input
  obtain ⟨abort, ran⟩ | ⟨resolver, closesAt, next, rfl, _, _, _, ran⟩ | ⟨eventId, e, effect, found, acted, ran⟩ :=
    step_cases state env call
  · rw [ran]
    exact ⟨retells, .aborted abort⟩
  · rw [ran]
    refine ⟨retells.insert (.fresh resolver closesAt), ?_, ?_, ?_, ?_⟩
    all_goals simp
  · rw [ran]
    exact ⟨acted.retells (valid.event found) retells found, acted.prints retells found⟩

end Printing

theorem logged_concat (inputs : List (Env × Call)) (input : Env × Call) :
    logged (inputs ++ [input]) = logged inputs ++ (machine.step (machine.after machine.init inputs) input).1.logs := by
  simp [logged, Machine.answers_concat]

theorem retells (inputs : List (Env × Call)) :
    Retells (LogIndex.retell (logged inputs)) (machine.after machine.init inputs).events := by
  induction inputs using List.reverseRecOn with
  | nil => exact fun _ => trivial
  | append_singleton inputs input ih =>
    rw [logged_concat, LogIndex.retell, List.foldl_append, Machine.after_concat]
    exact (step_retells (reachable_valid ⟨inputs, rfl⟩) ih input).1

/-- The log of a run retells the state it ends in, and what each call logs agrees with what
the log has told before it. -/
theorem log_retells (inputs : List (Env × Call)) :
    Retells (LogIndex.retell (logged inputs)) (machine.after machine.init inputs).events ∧
      ∀ before input after, inputs = before ++ input :: after →
        Prints (LogIndex.retell (logged before)) (machine.step (machine.after machine.init before) input).1 :=
  ⟨retells inputs, fun before input _ _ => (step_retells (reachable_valid ⟨before, rfl⟩) (retells before) input).2⟩

end NearRewards.Contract
