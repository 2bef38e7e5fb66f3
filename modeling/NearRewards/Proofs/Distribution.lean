import NearRewards.Proofs.Lifecycle
import NearRewards.Proofs.Waiting

/-! Who has received what. Over a whole run, whatever its order, the transfers of an event
divide its stakes: the rounded shares or the refunds of those who have claimed, and the dust
for the last of them. -/

namespace NearRewards.Contract
open Pot (Divides)

/-- What one call on the event has transferred to the account. -/
def transferred (eventId : U64) (account : AccountId) (entry : (Env × Call) × Receipt) : ℕ :=
  if entry.1.2.target = some eventId then
    ((entry.2.promises.filter fun sent => sent.account = account).map fun sent => sent.amount.toNat).sum
  else 0

def received (history : List ((Env × Call) × Receipt)) (eventId : U64) (account : AccountId) : ℕ :=
  (history.map (transferred eventId account)).sum

/-- The transfers of a run so far, as the division of what each event was staked. -/
structure Distributes (history : List ((Env × Call) × Receipt)) (eventId : U64) (e : Event) : Prop where
  opened : e.phase = .opened → ∀ account, received history eventId account = 0
  decided : e.phase ≠ .opened →
    Divides e.mirror.due e.mirror.dust e.mirror.entitled e.mirror.owed fun account => received history eventId account

def Distributed (history : List ((Env × Call) × Receipt)) (eventId : U64) : Option Event → Prop
  | none => ∀ account, received history eventId account = 0
  | some e => Distributes history eventId e

section Steps
variable {history : List ((Env × Call) × Receipt)} {state : State} {eventId : U64} {e : Event}

theorem received_concat (history : List ((Env × Call) × Receipt)) (entry : (Env × Call) × Receipt) (eventId : U64)
    (account : AccountId) :
    received (history ++ [entry]) eventId account = received history eventId account + transferred eventId account entry := by
  simp [received]

theorem received_skip (history : List ((Env × Call) × Receipt)) {entry : (Env × Call) × Receipt} {eventId : U64}
    (nothing : ∀ account, transferred eventId account entry = 0) :
    received (history ++ [entry]) eventId = received history eventId := by
  funext account
  rw [received_concat, nothing, Nat.add_zero]

/-- A call that pays nobody of an event it leaves alone. -/
theorem Distributed.skip {later : List ((Env × Call) × Receipt)} {stored : Option Event}
    (distributed : Distributed history eventId stored) (same : received later eventId = received history eventId) :
    Distributed later eventId stored := by
  cases stored with
  | none =>
    intro account
    rw [same]
    exact distributed account
  | some e =>
    refine ⟨?_, ?_⟩
    · rw [same]
      exact distributed.opened
    · rw [same]
      exact distributed.decided

theorem received_other (history : List ((Env × Call) × Receipt)) {entry : (Env × Call) × Receipt}
    (other : entry.1.2.target ≠ some eventId) : received (history ++ [entry]) eventId = received history eventId :=
  received_skip history fun _ => if_neg other

/-- A call that schedules no transfer pays nobody. -/
theorem received_quiet (history : List ((Env × Call) × Receipt)) {entry : (Env × Call) × Receipt}
    (quiet : entry.2.promises = []) : received (history ++ [entry]) eventId = received history eventId := by
  apply received_skip
  intro account
  unfold transferred
  rw [quiet]
  split <;> rfl

/-- A settlement transfers its payout to its account. -/
theorem received_settle (history : List ((Env × Call) × Receipt)) (env : Env) {receipt : Receipt} {claimant : AccountId}
    {payout : U128} (sent : receipt.promises = [⟨claimant, payout⟩]) (account : AccountId) :
    received (history ++ [((env, .settle eventId claimant), receipt)]) eventId account =
      received history eventId account + if account = claimant then payout.toNat else 0 := by
  have own : transferred eventId account ((env, .settle eventId claimant), receipt) =
      ((receipt.promises.filter fun sent => sent.account = account).map fun sent => sent.amount.toNat).sum := if_pos rfl
  rw [received_concat, own, sent]
  by_cases same : claimant = account
  · simp [same]
  · simp [same, Ne.symm same]

/-- An event that closes owes everyone entitled, and has paid nobody. -/
theorem Distributes.close {final : Event} {entry : (Env × Call) × Receipt} (valid : e.Valid) (opened : e.phase = .opened)
    (decided : final.phase ≠ .opened) (claimed : final.claimed = e.claimed) (quiet : entry.2.promises = [])
    (distributes : Distributes history eventId e) : Distributes (history ++ [entry]) eventId final := by
  refine ⟨fun reopened => absurd reopened decided, fun _ => ?_⟩
  have everyone : final.mirror.owed = final.mirror.entitled := by
    apply Finset.filter_true_of_mem
    intro account _
    have same : final.mirror.claimed = e.mirror.claimed := claimed
    rw [Market.Event.claimedBy, same, (valid.mirror.fresh opened).claimed]
    rfl
  rw [everyone]
  apply Divides.start
  intro account
  rw [received_quiet history quiet, distributes.opened opened]
  rfl

/-- What a settlement pays, in terms of the division. -/
theorem payout_divides {m : Market.Event} {account : AccountId} (valid : m.Valid) (decided : m.phase ≠ .opened)
    (member : account ∈ m.owed) :
    Market.payoutInner m account = m.due account + if m.owed = {account} then m.dust else 0 := by
  have closed := valid.closed decided
  have held := (Market.Event.pot valid.funded closed).held_eq
  rw [Market.Event.pot_slack valid.funded closed (Finset.ne_empty_of_mem member)] at held
  change m.escrow = ∑ account ∈ m.owed, m.due account + m.dust at held
  rw [Market.Event.payoutInner_eq valid.funded closed decided, if_pos member]
  change (if m.owed = {account} then m.escrow else m.due account) = _
  split
  next only => rw [held, only, Finset.sum_singleton]
  next => omega

theorem Acts.distributes {env : Env} {call : Call} {effect : Effect Value} (acted : Acts env call eventId e effect)
    (valid : e.Valid) (distributes : Distributes history eventId e) :
    Distributes (history ++ [((env, call), ⟨.ok effect.value, effect.records, effect.transfers⟩)]) eventId effect.event := by
  cases acted with
  | stake done =>
    obtain ⟨opened, _, _, chosen, final, added, rfl⟩ := stakeAct_ok.mp done
    have still : final.phase = .opened := (EventContract.add_frame added).2.2.1.trans opened
    refine ⟨fun _ account => ?_, fun decided => absurd still decided⟩
    exact (congrFun (received_quiet history rfl) account).trans (distributes.opened opened account)
  | resolve done =>
    obtain ⟨_, _, opened, _, rfl⟩ := resolveAct_ok.mp done
    exact .close valid opened (fun reopened => by cases reopened) rfl rfl distributes
  | void done =>
    obtain ⟨opened, _, rfl⟩ := voidAct_ok.mp done
    exact .close valid opened (fun reopened => by cases reopened) rfl rfl distributes
  | @settle _ claimant _ effect done =>
    obtain ⟨member, value, _, final, sent⟩ := settleAct_mirror valid done
    obtain ⟨decided, _⟩ := settleAct_ok.mp done
    have paid := (distributes.decided decided).pay member
    rw [← payout_divides valid.mirror decided member] at paid
    refine ⟨fun reopened => ?_, fun _ => ?_⟩
    · have acted : Acts env (.settle eventId claimant) eventId e (effect.map .payout) := .settle done
      obtain still | next := acted.phase
      · exact absurd (still.symm.trans reopened) decided
      · rw [show (effect.map Value.payout).event.phase = .opened from reopened] at next
        generalize e.phase = before at next
        cases next
    · change Divides effect.event.mirror.due effect.event.mirror.dust effect.event.mirror.entitled effect.event.mirror.owed _
      have due : effect.event.mirror.due = e.mirror.due := by
        rw [final]
        exact funext (Market.Event.pay_due _ _)
      rw [due, final, Market.Event.pay_dust, Market.Event.pay_entitled, Market.Event.pay_owed]
      convert paid using 2 with account
      rw [received_settle history env sent, ← value]
      split <;> push_cast <;> rfl

theorem distributed_step {state : State} (valid : state.Valid)
    (distributed : ∀ eventId, Distributed history eventId (state.events.lookup eventId)) (input : Env × Call) (eventId : U64) :
    Distributed (history ++ [(input, (machine.step state input).1)]) eventId
      ((machine.step state input).2.events.lookup eventId) := by
  obtain ⟨env, call⟩ := input
  have before := distributed eventId
  obtain ⟨abort, ran⟩ | ⟨resolver, closesAt, next, rfl, _, _, _, ran⟩ | ⟨target, e, effect, found, acted, ran⟩ :=
    step_cases state env call
  · rw [ran]
    exact before.skip (received_quiet history rfl)
  · rw [ran]
    dsimp only [Settlemint.create]
    rw [Ledger.lookup_insert]
    by_cases own : eventId = state.nextEventId
    · subst own
      rw [valid.fresh] at before
      rw [if_pos rfl]
      refine ⟨fun _ account => ?_, fun decided => absurd rfl decided⟩
      exact (congrFun (received_quiet history rfl) account).trans (before account)
    · rw [if_neg own]
      exact before.skip (received_quiet history rfl)
  · rw [ran]
    dsimp only
    rw [Ledger.lookup_insert]
    by_cases own : eventId = target
    · subst own
      rw [found] at before
      rw [if_pos rfl]
      exact acted.distributes (valid.event found) before
    · rw [if_neg own]
      apply before.skip
      apply received_other
      rw [acted.target]
      exact fun same => own (Option.some.inj same).symm

theorem distributes (inputs : List (Env × Call)) (eventId : U64) :
    Distributed (machine.trace machine.init inputs) eventId ((machine.after machine.init inputs).events.lookup eventId) := by
  have run := machine.history_invariant (P := fun history state => state.Valid ∧
    ∀ eventId, Distributed history eventId (state.events.lookup eventId)) ⟨reachable_valid .init, fun _ _ => rfl⟩
    (fun history state input ⟨valid, distributed⟩ => ⟨valid.step input, distributed_step valid distributed input⟩) inputs
  exact run.2 eventId

end Steps

/-- The account's share of the stakes, rounded down. -/
def EventContract.floorShare (e : Event) (account : AccountId) : ℕ :=
  (e.poolYes.toNat + e.poolNo.toNat) * (e.winOf account).toNat / e.winPool.toNat

section Shares
variable {e : Event}

theorem due_share (proRata : e.mirror.ProRata) (account : AccountId) : e.mirror.due account = e.floorShare account := by
  rw [Market.Event.due, if_pos proRata, ProRata.share, EventContract.mirror_staked, EventContract.mirror_winOf,
    EventContract.mirror_winPool]
  rfl

theorem due_refund (refund : ¬e.mirror.ProRata) (account : AccountId) :
    e.mirror.due account = (e.yesOf account).toNat + (e.noOf account).toNat := by
  rw [Market.Event.due, if_neg refund, EventContract.mirror_yesOf, EventContract.mirror_noOf]

/-- What the winners' shares leave of the stakes goes to whoever takes the dust. -/
theorem dust_share (proRata : e.mirror.ProRata) {last : AccountId} (winner : last ∈ e.mirror.winStake.keys) :
    (e.floorShare last : ℤ) + e.mirror.dust + ∑ other ∈ e.mirror.winStake.keys.erase last, (e.floorShare other : ℤ) =
      e.poolYes.toNat + e.poolNo.toNat := by
  have split_ := Finset.add_sum_erase e.mirror.winStake.keys (fun account => (e.floorShare account : ℤ)) winner
  have everyone : ∑ account ∈ e.mirror.entitled, e.mirror.due account =
      ∑ account ∈ e.mirror.winStake.keys, (e.floorShare account : ℤ) := by
    rw [Market.Event.entitled, if_pos proRata]
    exact Finset.sum_congr rfl fun account _ => due_share proRata account
  rw [Market.Event.dust, everyone, EventContract.mirror_staked]
  omega

/-- The final distribution. Whatever the order of the calls of a run, an account that has
not claimed has received nothing of a closed event. Without winners everyone who has claimed
was refunded. With winners, whoever claimed while something is left to claim received the
rounded share, and once nothing is left one winner has received all that the others' shares
have left. -/
theorem distribution {inputs : List (Env × Call)} {eventId : U64}
    (found : (machine.after machine.init inputs).events.lookup eventId = some e) (decided : e.phase ≠ .opened) :
    (∀ account, e.claimedBy account = false →
      received (machine.trace machine.init inputs) eventId account = 0) ∧
    (e.phase = .voided ∨ e.winPool = 0 → ∀ account, e.claimedBy account = true →
      received (machine.trace machine.init inputs) eventId account = (e.yesOf account).toNat + (e.noOf account).toNat) ∧
    (e.phase ≠ .voided → e.winPool ≠ 0 → e.escrow ≠ 0 → ∀ account, e.claimedBy account = true →
      received (machine.trace machine.init inputs) eventId account = e.floorShare account) ∧
    (e.phase ≠ .voided → e.winPool ≠ 0 → e.escrow = 0 → ∃ last ∈ e.mirror.winStake.keys,
      (∀ account, account ≠ last → received (machine.trace machine.init inputs) eventId account = e.floorShare account) ∧
      received (machine.trace machine.init inputs) eventId last + ∑ other ∈ e.mirror.winStake.keys.erase last, e.floorShare other =
        e.poolYes.toNat + e.poolNo.toNat) := by
  have valid := ((reachable_valid ⟨inputs, rfl⟩).event found).mirror
  have told := distributes inputs eventId
  rw [found] at told
  have divides := told.decided decided
  have closed := valid.closed decided
  have empty := closed.escrow_eq_zero valid.funded
  rw [EventContract.mirror_escrow, toInt_eq_zero] at empty
  have member : ∀ account, e.claimedBy account = true → account ∈ e.mirror.entitled := closed.claimed
  have paid : ∀ account, e.claimedBy account = true → account ∉ e.mirror.owed := by
    intro account claimed owed
    rw [Market.Event.mem_owed, EventContract.mirror_claimedBy, claimed] at owed
    cases owed.2
  have shared : e.phase ≠ .voided → e.winPool ≠ 0 → e.mirror.ProRata := by
    intro kept some
    rw [Market.Event.ProRata, EventContract.mirror_phase, EventContract.mirror_winPool, ne_eq, ne_eq, toInt_eq_zero]
    exact ⟨kept, some⟩
  refine ⟨fun account unclaimed => ?_, fun refund account claimed => ?_, fun kept some more account claimed => ?_,
    fun kept some nothing => ?_⟩
  · apply Int.ofNat.inj
    apply divides.unpaid account
    by_cases entitled : account ∈ e.mirror.entitled
    · exact Or.inr (Market.Event.mem_owed.mpr ⟨entitled, unclaimed⟩)
    · exact Or.inl entitled
  · have refund : ¬e.mirror.ProRata := by
      rw [Market.Event.ProRata, EventContract.mirror_phase, EventContract.mirror_winPool, ne_eq, ne_eq, toInt_eq_zero]
      exact fun both => refund.elim both.1 both.2
    have dust := valid.funded.dust_bounds.2.2 refund
    have received_due : (received (machine.trace machine.init inputs) eventId account : ℤ) = e.mirror.due account := by
      by_cases last : e.mirror.owed = ∅
      · obtain ⟨_, _, all⟩ := divides.emptied last (Finset.ne_empty_of_mem (member account claimed))
        rw [all account (member account claimed), dust, ite_self, Int.add_zero]
      · exact divides.owing last account (member account claimed) (paid account claimed)
    rw [due_refund refund] at received_due
    exact_mod_cast received_due
  · have owing : e.mirror.owed ≠ ∅ := fun last => more (empty.mpr last)
    have received_due := divides.owing owing account (member account claimed) (paid account claimed)
    rw [due_share (shared kept some)] at received_due
    exact_mod_cast received_due
  · have proRata := shared kept some
    have entitled : e.mirror.entitled = e.mirror.winStake.keys := if_pos proRata
    have winners : e.mirror.entitled ≠ ∅ := by
      have positive := valid.funded.winPool_pos proRata
      intro none
      rw [valid.funded.winPool_eq_sum, ← entitled, none, Finset.sum_empty] at positive
      exact lt_irrefl _ positive
    obtain ⟨last, winner, all⟩ := divides.emptied (empty.mp nothing) winners
    refine ⟨last, entitled ▸ winner, fun account different => ?_, ?_⟩
    · by_cases other : account ∈ e.mirror.entitled
      · have received_due := all account other
        rw [if_neg different, Int.add_zero, due_share proRata] at received_due
        exact_mod_cast received_due
      · have nothing := divides.unpaid account (Or.inl other)
        have loser : e.winOf account = 0 := by
          rw [entitled, ← valid.funded.winOf_ne_zero, not_not, EventContract.mirror_winOf, toInt_eq_zero] at other
          exact other
        rw [EventContract.floorShare, loser, show (0 : U128).toNat = 0 from rfl, Nat.mul_zero, Nat.zero_div]
        exact_mod_cast nothing
    · have received_due := all last winner
      have whole := dust_share proRata (entitled ▸ winner)
      rw [if_pos rfl, due_share proRata] at received_due
      rw [← received_due] at whole
      exact_mod_cast whole

/-- Two of the three winners have claimed. -/
theorem distribution_shared :
    let inputs := sharedRun ++ [(⟨"d.near", 0, 11⟩, .settle 0 "a.near"), (⟨"d.near", 0, 11⟩, .settle 0 "c.near")]
    ∃ e, (machine.after machine.init inputs).events.lookup 0 = some e ∧ e.phase ≠ .opened ∧
      e.claimedBy "c.near" = true ∧ received (machine.trace machine.init inputs) 0 "c.near" = e.floorShare "c.near" ∧
      received (machine.trace machine.init inputs) 0 "b.near" = 0 := by
  intro inputs
  have found : (machine.after machine.init inputs).events.lookup 0 = some _ := rfl
  have divided := distribution found (by decide +kernel)
  exact ⟨_, found, by decide +kernel, by decide +kernel,
    divided.2.2.1 (by decide +kernel) (by decide +kernel) (by decide +kernel) _ (by decide +kernel),
    divided.1 _ (by decide +kernel)⟩

end Shares
end NearRewards.Contract
