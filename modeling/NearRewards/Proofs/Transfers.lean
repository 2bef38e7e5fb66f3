import NearRewards.Library.Network
import NearRewards.Proofs.Lockstep

/-! Transfers the contract has scheduled, between the call that scheduled them and their
delivery or failure. The contract does not look back: what a failed transfer returns to it
belongs to no event. -/

namespace NearRewards.Contract

def Transfer.yocto (transfer : Transfer) : ℕ := transfer.amount.toNat

/-- The deposit a call was accepted with. -/
def accepted : (Env × Call) × Receipt → ℕ
  | ((env, .takePosition _ _), ⟨.ok _, _, _⟩) => env.attachedDeposit.toNat
  | _ => 0

def deposited (history : List ((Env × Call) × Receipt)) : ℕ := (history.map accepted).sum

def Settlemint.escrowed (state : State) : ℤ := Ledger.total (fun e : Event => (e.escrow.toNat : ℤ)) state.events

/-- The contract on the chain, with its transfers under way. -/
def chain : Machine (Network State Transfer) (Network.Move (Env × Call)) (Network.Seen (Env × Call) Receipt Transfer) :=
  Network.attach machine Receipt.promises

/-- Every staked yocto is with its account, in an event's escrow, or under way. -/
def Accounted (seen : List (Network.Seen (Env × Call) Receipt Transfer)) (network : Network State Transfer) : Prop :=
  (deposited (seen.filterMap Network.Seen.answered?) : ℤ) - Network.delivered Transfer.yocto seen =
    network.node.escrowed + Network.total Transfer.yocto network.inFlight

theorem deposited_concat (history : List ((Env × Call) × Receipt)) (entry : (Env × Call) × Receipt) :
    deposited (history ++ [entry]) = deposited history + accepted entry := by
  simp [deposited]

/-- What an action takes in stays in the event's escrow, and what leaves it is a transfer. -/
theorem Acts.escrow {env : Env} {call : Call} {eventId : U64} {e : Event} {effect : Effect Value}
    (acted : Acts env call eventId e effect) :
    accepted ((env, call), ⟨.ok effect.value, effect.records, effect.transfers⟩) + e.escrow.toNat =
      effect.event.escrow.toNat + Network.total Transfer.yocto effect.transfers := by
  cases acted with
  | stake done =>
    obtain ⟨_, _, _, chosen, final, added, rfl⟩ := stakeAct_ok.mp done
    obtain ⟨_, _, escrow, held, ⟨_, _, _, rfl⟩ | ⟨_, _, _, rfl⟩⟩ := EventContract.add_cases chosen added
    · exact (Nat.add_comm _ _).trans held.symm
    · exact (Nat.add_comm _ _).trans held.symm
  | resolve done =>
    obtain ⟨_, _, _, _, rfl⟩ := resolveAct_ok.mp done
    exact Nat.zero_add _
  | void done =>
    obtain ⟨_, _, rfl⟩ := voidAct_ok.mp done
    exact Nat.zero_add _
  | settle done =>
    obtain ⟨_, _, payout, final, _, _, paid, rfl⟩ := settleAct_ok.mp done
    exact (Nat.zero_add _).trans (EventContract.pay_escrow paid).symm

/-- One call moves deposits into escrow and escrow into transfers, and loses nothing. -/
theorem step_escrowed {state : State} (valid : state.Valid) (input : Env × Call) :
    state.escrowed + accepted (input, (machine.step state input).1) =
      (machine.step state input).2.escrowed + Network.total Transfer.yocto (machine.step state input).1.promises := by
  obtain ⟨env, call⟩ := input
  obtain ⟨abort, ran⟩ | ⟨resolver, closesAt, next, rfl, _, _, _, ran⟩ | ⟨eventId, e, effect, found, acted, ran⟩ :=
    step_cases state env call
  · rw [ran]
    cases call <;> rfl
  · have absent := Ledger.balance_of_lookup_none (fun e : Event => (e.escrow.toNat : ℤ)) valid.fresh
    rw [ran]
    dsimp only [Settlemint.escrowed, Settlemint.create]
    rw [Ledger.total_insert, absent]
    simp [accepted, Network.total]
  · have balance := Ledger.balance_of_lookup (fun e : Event => (e.escrow.toNat : ℤ)) found
    have kept := acted.escrow
    rw [ran]
    dsimp only [Settlemint.escrowed]
    rw [Ledger.total_insert, balance]
    omega

/-- Everything deposited is held in escrow or was scheduled for its account. -/
theorem deposited_eq (inputs : List (Env × Call)) :
    (deposited (machine.trace machine.init inputs) : ℤ) =
      (machine.after machine.init inputs).escrowed +
        Network.sent Transfer.yocto Receipt.promises (machine.trace machine.init inputs) := by
  have run := machine.history_invariant (P := fun history state => state.Valid ∧
    (deposited history : ℤ) = state.escrowed + Network.sent Transfer.yocto Receipt.promises history)
    ⟨reachable_valid .init, rfl⟩ ?_ inputs
  · exact run.2
  · intro history state input ⟨valid, kept⟩
    have moved := step_escrowed valid input
    refine ⟨valid.step input, ?_⟩
    rw [deposited_concat, Network.sent_concat]
    omega

/-- A transfer is scheduled for a positive amount only. -/
theorem promises_positive (state : State) (input : Env × Call) :
    ∀ transfer ∈ (machine.step state input).1.promises, 0 < transfer.yocto := by
  obtain ⟨env, call⟩ := input
  obtain ⟨abort, ran⟩ | ⟨resolver, closesAt, next, rfl, _, _, _, ran⟩ | ⟨eventId, e, effect, found, acted, ran⟩ :=
    step_cases state env call
  · simp [ran]
  · simp [ran]
  · rw [ran]
    cases acted with
    | stake done =>
      obtain ⟨_, _, _, _, _, _, rfl⟩ := stakeAct_ok.mp done
      simp [Effect.map]
    | resolve done =>
      obtain ⟨_, _, _, _, rfl⟩ := resolveAct_ok.mp done
      simp [Effect.map]
    | void done =>
      obtain ⟨_, _, rfl⟩ := voidAct_ok.mp done
      simp [Effect.map]
    | settle done =>
      obtain ⟨_, _, payout, _, _, positive, _, rfl⟩ := settleAct_ok.mp done
      rintro transfer member
      cases List.mem_singleton.mp member
      exact BitVec.lt_def.mp positive

/-- What is missing from the account is what failed transfers have brought back. -/
theorem accounted_up_to_returned (moves : List (Network.Move (Env × Call))) :
    (deposited ((chain.answers chain.init moves).filterMap Network.Seen.answered?) : ℤ) -
        Network.delivered Transfer.yocto (chain.answers chain.init moves) =
      (chain.after chain.init moves).node.escrowed + Network.total Transfer.yocto (chain.after chain.init moves).inFlight +
        Network.returned Transfer.yocto (chain.answers chain.init moves) := by
  have moved := Network.sent_eq machine Receipt.promises Transfer.yocto chain.init moves
  have kept := deposited_eq (moves.filterMap Network.Move.call?)
  obtain ⟨history, final⟩ := Network.calls_run machine Receipt.promises chain.init moves
  have start : machine.init = chain.init.node := rfl
  rw [start, ← final, ← history] at kept
  have quiet : Network.total Transfer.yocto chain.init.inFlight = 0 := rfl
  unfold chain at kept moved quiet ⊢
  omega

/-- A run accounts for every staked yocto exactly when no transfer under way fails. -/
theorem accounted_iff (moves : List (Network.Move (Env × Call))) :
    Accounted (chain.answers chain.init moves) (chain.after chain.init moves) ↔
      chain.Along Network.Harmless chain.init moves := by
  have lost := accounted_up_to_returned moves
  have clear : Network.returned Transfer.yocto (chain.answers chain.init moves) = 0 ↔ _ :=
    Network.returned_eq_zero machine Receipt.promises Transfer.yocto promises_positive (by rintro _ ⟨⟩) moves
  refine Iff.trans ?_ clear
  unfold Accounted
  omega

private def lostMoves : List (Network.Move (Env × Call)) :=
  [.call (⟨"creator.testnet", 0, 9⟩, .createEvent "resolver.testnet" 10),
    .call (⟨"alice.testnet", 5, 9⟩, .takePosition 0 .yes), .call (⟨"resolver.testnet", 0, 10⟩, .resolve 0 .yes),
    .call (⟨"operator.testnet", 0, 10⟩, .settle 0 "alice.testnet"), .fail 0]

/-- The only winner's transfer fails: the event is final with nothing in escrow, and the
winner cannot settle again. -/
theorem failed_transfer_lost :
    ¬Accounted (chain.answers chain.init lostMoves) (chain.after chain.init lostMoves) ∧
      ((chain.after chain.init lostMoves).node.events.lookup 0).map (fun e => (e.phase, e.escrow)) = some (.settled, 0) ∧
      (machine.step (chain.after chain.init lostMoves).node
        (⟨"operator.testnet", 0, 10⟩, .settle 0 "alice.testnet")).1.result = .error (.panicked "AlreadyClaimed") := by
  refine ⟨fun accounted => ?_, by decide, by decide⟩
  have lost := accounted_up_to_returned lostMoves
  have back : Network.returned Transfer.yocto (chain.answers chain.init lostMoves) = 5 := by decide
  unfold Accounted at accounted
  omega

end NearRewards.Contract
