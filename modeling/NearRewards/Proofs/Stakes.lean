import NearRewards.Proofs.LogText

/-! Staking commutes. What an open event becomes depends on how much every account staked on
either side, and not on the order of the stakes, their number or their times. -/

namespace NearRewards.Contract

/-- A stake: who attaches how much at what time, and on which side. -/
abbrev Position := Env × Outcome

/-- What an account stakes on a side, all together. -/
def stakedOn (positions : List Position) (account : AccountId) (side : Outcome) : ℕ :=
  ((positions.filter fun position => position.1.predecessorAccountId = account ∧ position.2 = side).map
    fun position => position.1.attachedDeposit.toNat).sum

def deposits (positions : List Position) : ℕ := (positions.map fun position => position.1.attachedDeposit.toNat).sum

/-- Stakes the event takes, as long as it is open. -/
structure Timely (e : Event) (positions : List Position) : Prop where
  early : ∀ position ∈ positions, position.1.blockTimestamp < e.closesAt
  paid : ∀ position ∈ positions, position.1.attachedDeposit > 0
  chosen : ∀ position ∈ positions, position.2 ≠ .unresolved

def take (eventId : U64) (position : Position) : Env × Call := (position.1, .takePosition eventId position.2)

section Totals
variable {positions others : List Position}

theorem stakedOn_cons (position : Position) (rest : List Position) (account : AccountId) (side : Outcome) :
    stakedOn (position :: rest) account side =
      (if position.1.predecessorAccountId = account ∧ position.2 = side then position.1.attachedDeposit.toNat else 0) +
        stakedOn rest account side := by
  unfold stakedOn
  by_cases own : position.1.predecessorAccountId = account ∧ position.2 = side
  · rw [if_pos own, List.filter_cons_of_pos (by simpa using own), List.map_cons, List.sum_cons]
  · rw [if_neg own, List.filter_cons_of_neg (by simpa using own), Nat.zero_add]

/-- The deposits are the stakes of all accounts on all sides. -/
theorem deposits_eq (stakers : Finset (AccountId × Outcome))
    (covers : ∀ position ∈ positions, (position.1.predecessorAccountId, position.2) ∈ stakers) :
    deposits positions = ∑ staker ∈ stakers, stakedOn positions staker.1 staker.2 := by
  induction positions with
  | nil => exact (Finset.sum_const_zero).symm
  | cons position rest ih =>
    have head := covers position List.mem_cons_self
    have tail := ih fun other member => covers other (List.mem_cons_of_mem _ member)
    have own : ∀ staker : AccountId × Outcome, (position.1.predecessorAccountId = staker.1 ∧ position.2 = staker.2) ↔
        (position.1.predecessorAccountId, position.2) = staker := fun staker => (Prod.mk_inj).symm
    simp only [stakedOn_cons, own, Finset.sum_add_distrib, Finset.sum_ite_eq, if_pos head, ← tail]
    rfl

theorem deposits_congr (same : ∀ account side, stakedOn positions account side = stakedOn others account side) :
    deposits positions = deposits others := by
  set staker := fun position : Position => (position.1.predecessorAccountId, position.2)
  rw [deposits_eq ((positions.map staker).toFinset ∪ (others.map staker).toFinset),
    deposits_eq ((positions.map staker).toFinset ∪ (others.map staker).toFinset)]
  · exact Finset.sum_congr rfl fun pair _ => same pair.1 pair.2
  · intro position member
    exact Finset.mem_union_right _ (List.mem_toFinset.mpr (List.mem_map_of_mem member))
  · intro position member
    exact Finset.mem_union_left _ (List.mem_toFinset.mpr (List.mem_map_of_mem member))

end Totals

/-- What stakes make of an event: the stakers' balances have grown by what they staked, and
besides the stakes only the pools and the escrow have changed. -/
structure Staked (e : Event) (positions : List Position) (final : Event) : Prop where
  frame : final = { e with yesStake := final.yesStake, noStake := final.noStake, poolYes := final.poolYes
                           poolNo := final.poolNo, escrow := final.escrow }
  yes : ∀ account, (final.yesOf account).toNat = (e.yesOf account).toNat + stakedOn positions account .yes
  no : ∀ account, (final.noOf account).toNat = (e.noOf account).toNat + stakedOn positions account .no
  escrow : final.escrow.toNat = e.escrow.toNat + deposits positions

section Taking
variable {state : State} {eventId : U64} {e : Event} {position : Position} {positions : List Position}

/-- One accepted stake. -/
theorem take_ok (valid : state.Valid) (found : state.events.lookup eventId = some e) (opened : e.phase = .opened)
    (timely : Timely e [position]) (fits : e.escrow.toNat + position.1.attachedDeposit.toNat < 2 ^ 128) :
    ∃ final receipt, machine.step state (take eventId position) =
        (receipt, { state with events := state.events.insert eventId final }) ∧
      receipt.result = .ok .nothing ∧ Staked e [position] final := by
  obtain ⟨env, side⟩ := position
  have chosen : side ≠ .unresolved := timely.chosen _ (List.mem_singleton.mpr rfl)
  obtain ⟨final, added, -⟩ := EventContract.add_mirror (valid.event found) opened env.predecessorAccountId side fits
  have acted : stakeAct env eventId side e = .ok _ := stakeAct_ok.mpr
    ⟨opened, timely.early _ (List.mem_singleton.mpr rfl), timely.paid _ (List.mem_singleton.mpr rfl), chosen, final, added, rfl⟩
  have ran : machine.step state (take eventId (env, side)) = _ := transact_takePosition state env eventId side
  rw [conclude, found] at ran
  dsimp only at ran acted
  rw [acted] at ran
  refine ⟨final, _, ran, rfl, ?_⟩
  have single : ∀ account other, stakedOn [(env, side)] account other =
      if env.predecessorAccountId = account ∧ side = other then env.attachedDeposit.toNat else 0 :=
    fun account other => stakedOn_cons (env, side) [] account other
  -- the staker's balance on that side grows, every other balance stays
  have raised : ∀ {stakes : Ledger AccountId U128} {stake : U128},
      stake.toNat = ((stakes.lookup env.predecessorAccountId).getD 0).toNat + env.attachedDeposit.toNat →
      ∀ account, (((stakes.insert env.predecessorAccountId stake).lookup account).getD 0).toNat =
        ((stakes.lookup account).getD 0).toNat + if env.predecessorAccountId = account then env.attachedDeposit.toNat else 0 := by
    intro stakes stake grown account
    rw [Ledger.lookup_insert]
    by_cases own : account = env.predecessorAccountId
    · rw [if_pos own, if_pos own.symm, own]
      exact grown
    · rw [if_neg own, if_neg (fun same => own same.symm), Nat.add_zero]
  obtain ⟨stake, pool, held, whole, ⟨rfl, grown, filled, rfl⟩ | ⟨rfl, grown, filled, rfl⟩⟩ :=
    EventContract.add_cases chosen added
  · refine ⟨rfl, fun account => ?_, fun account => ?_, whole⟩
    · simpa [single, EventContract.yesOf] using raised grown account
    · simp [single, EventContract.noOf]
  · refine ⟨rfl, fun account => ?_, fun account => ?_, whole⟩
    · simp [single, EventContract.yesOf]
    · simpa [single, EventContract.noOf] using raised grown account

theorem Staked.trans {middle final : Event} {later : List Position} (staked : Staked e positions middle)
    (more : Staked middle later final) : Staked e (positions ++ later) final := by
  have joined : ∀ account side, stakedOn (positions ++ later) account side =
      stakedOn positions account side + stakedOn later account side := by
    intro account side
    unfold stakedOn
    rw [List.filter_append, List.map_append, List.sum_append]
  have total : deposits (positions ++ later) = deposits positions + deposits later := by
    unfold deposits
    rw [List.map_append, List.sum_append]
  refine ⟨?_, fun account => ?_, fun account => ?_, ?_⟩
  · rw [more.frame, staked.frame]
  · rw [more.yes, staked.yes, joined, Nat.add_assoc]
  · rw [more.no, staked.no, joined, Nat.add_assoc]
  · rw [more.escrow, staked.escrow, total, Nat.add_assoc]

/-- As long as the deposits fit, every stake is accepted. -/
theorem take_all (reachable : machine.Reachable state) (found : state.events.lookup eventId = some e)
    (opened : e.phase = .opened) (timely : Timely e positions) (fits : e.escrow.toNat + deposits positions < 2 ^ 128) :
    (∀ receipt ∈ machine.answers state (positions.map (take eventId)), receipt.result = .ok .nothing) ∧
      ∃ final, machine.after state (positions.map (take eventId)) = { state with events := state.events.insert eventId final } ∧
        Staked e positions final := by
  induction positions generalizing state e with
  | nil =>
    refine ⟨fun _ member => (List.not_mem_nil member).elim, e, ?_, rfl, fun _ => rfl, fun _ => rfl, rfl⟩
    rw [Ledger.insert_self found]
    rfl
  | cons position rest ih =>
    have total : deposits (position :: rest) = position.1.attachedDeposit.toNat + deposits rest := List.sum_cons
    have first : Timely e [position] :=
      ⟨fun _ member => timely.early _ (List.mem_cons.mpr (Or.inl (List.mem_singleton.mp member))),
        fun _ member => timely.paid _ (List.mem_cons.mpr (Or.inl (List.mem_singleton.mp member))),
        fun _ member => timely.chosen _ (List.mem_cons.mpr (Or.inl (List.mem_singleton.mp member)))⟩
    obtain ⟨middle, receipt, ran, accepted, staked⟩ := take_ok (reachable_valid reachable) found opened first (by omega)
    have reached := reachable.step (take eventId position)
    rw [ran] at reached
    have held : middle.escrow.toNat = e.escrow.toNat + position.1.attachedDeposit.toNat := staked.escrow
    have later : Timely middle rest := by
      rw [staked.frame]
      exact ⟨fun other member => timely.early other (List.mem_cons_of_mem _ member),
        fun other member => timely.paid other (List.mem_cons_of_mem _ member),
        fun other member => timely.chosen other (List.mem_cons_of_mem _ member)⟩
    obtain ⟨answers, final, after, more⟩ := ih reached (Finmap.lookup_insert _) (by rw [staked.frame]; exact opened) later (by omega)
    rw [List.map_cons, Machine.answers_cons, Machine.after_cons, ran]
    refine ⟨?_, final, ?_, staked.trans more⟩
    · intro answer member
      rcases List.mem_cons.mp member with rfl | rest
      · exact accepted
      · exact answers answer rest
    · rw [after, Finmap.insert_insert]

/-- Staking is confluent: two series of stakes on an open event that amount to the same for
every account on either side are all accepted, and leave the same contract. No order, no
splitting of a stake and no timing before the close can change what anybody is paid. -/
theorem stakes_confluent {others : List Position} (reachable : machine.Reachable state)
    (found : state.events.lookup eventId = some e) (opened : e.phase = .opened) (timely : Timely e positions)
    (timelyToo : Timely e others) (fits : e.escrow.toNat + deposits positions < 2 ^ 128)
    (same : ∀ account side, stakedOn positions account side = stakedOn others account side) :
    (∀ receipt ∈ machine.answers state (positions.map (take eventId)) ++ machine.answers state (others.map (take eventId)),
        receipt.result = .ok .nothing) ∧
      machine.after state (positions.map (take eventId)) = machine.after state (others.map (take eventId)) := by
  obtain ⟨answers, final, after, staked⟩ := take_all reachable found opened timely fits
  obtain ⟨answersToo, other, afterToo, stakedToo⟩ :=
    take_all reachable found opened timelyToo (deposits_congr same ▸ fits)
  refine ⟨fun receipt member => (List.mem_append.mp member).elim (answers receipt) (answersToo receipt), ?_⟩
  have valid := reachable_valid (reachable.after (positions.map (take eventId)))
  have validToo := reachable_valid (reachable.after (others.map (take eventId)))
  rw [after] at valid ⊢
  rw [afterToo] at validToo ⊢
  have kept : final.Valid := valid.event (Finmap.lookup_insert _)
  have keptToo : other.Valid := validToo.event (Finmap.lookup_insert _)
  have event : final = other := by
    have distinct : Function.Injective fun stake : U128 => (stake.toNat : ℤ) :=
      fun _ _ equal => BitVec.eq_of_toNat_eq (Int.ofNat.inj equal)
    have yesStake : final.yesStake = other.yesStake := by
      refine Ledger.eq_of_balance _ distinct (positive_stakes kept).1 (positive_stakes keptToo).1 fun account => ?_
      have total := (staked.yes account).trans ((congrArg _ (same account .yes)).trans (stakedToo.yes account).symm)
      rw [balance_stakes, balance_stakes]
      exact congrArg Nat.cast total
    have noStake : final.noStake = other.noStake := by
      refine Ledger.eq_of_balance _ distinct (positive_stakes kept).2 (positive_stakes keptToo).2 fun account => ?_
      have total := (staked.no account).trans ((congrArg _ (same account .no)).trans (stakedToo.no account).symm)
      rw [balance_stakes, balance_stakes]
      exact congrArg Nat.cast total
    -- the pools are the totals of the stakes
    have poolYes : final.poolYes = other.poolYes := by
      have pools := kept.mirror.funded.poolYes.trans
        ((congrArg (fun stakes => Ledger.total id (amounts stakes)) yesStake).trans keptToo.mirror.funded.poolYes.symm)
      exact BitVec.eq_of_toNat_eq (Int.ofNat.inj pools)
    have poolNo : final.poolNo = other.poolNo := by
      have pools := kept.mirror.funded.poolNo.trans
        ((congrArg (fun stakes => Ledger.total id (amounts stakes)) noStake).trans keptToo.mirror.funded.poolNo.symm)
      exact BitVec.eq_of_toNat_eq (Int.ofNat.inj pools)
    have escrow : final.escrow = other.escrow := by
      apply BitVec.eq_of_toNat_eq
      rw [staked.escrow, stakedToo.escrow, deposits_congr same]
    rw [staked.frame, stakedToo.frame, yesStake, noStake, poolYes, poolNo, escrow]
  rw [event]

/-- Two stakes of three and four, or one of seven. -/
theorem stakes_confluent_split :
    let opening := machine.after machine.init [(⟨"creator.near", 0, 0⟩, .createEvent "r.near" 10)]
    let first : List Position := [(⟨"a.near", 3, 1⟩, .yes), (⟨"b.near", 1, 2⟩, .no), (⟨"a.near", 4, 3⟩, .yes)]
    let second : List Position := [(⟨"b.near", 1, 1⟩, .no), (⟨"a.near", 7, 9⟩, .yes)]
    machine.after opening (first.map (take 0)) = machine.after opening (second.map (take 0)) := by
  refine (stakes_confluent ⟨_, rfl⟩ (Finmap.lookup_insert _) rfl ⟨by decide, by decide, by decide⟩
    ⟨by decide, by decide, by decide⟩ (by decide) fun account side => ?_).2
  simp only [stakedOn_cons]
  by_cases alice : "a.near" = account <;> by_cases bob : "b.near" = account <;> cases side <;> simp_all [stakedOn]

end Taking
end NearRewards.Contract
