import NearRewards.Proofs.ContractActs
import NearRewards.Proofs.MarketInvariant

/-! The contract's state read as the mirror's: every fixed-width number becomes the integer
it stands for. An action on an event either ends as the mirror's action on its image, or
runs into one of the operations that can overflow. -/

namespace NearRewards.Contract

theorem toInt_injective : Function.Injective (fun id : U64 => (id.toNat : ℤ)) :=
  fun _ _ same => BitVec.eq_of_toNat_eq (Int.ofNat.inj same)

theorem toInt_eq_zero {x : U128} : (x.toNat : ℤ) = 0 ↔ x = 0 := by
  rw [BitVec.toNat_eq]
  simp

def amounts (stakes : Ledger AccountId U128) : Ledger AccountId ℤ :=
  stakes.relabel id Function.injective_id (fun stake => (stake.toNat : ℤ))

theorem lookup_amounts (stakes : Ledger AccountId U128) (account : AccountId) :
    (amounts stakes).lookup account = (stakes.lookup account).map (fun stake => (stake.toNat : ℤ)) :=
  Ledger.lookup_relabel Function.injective_id _ stakes account

theorem getD_amounts (stakes : Ledger AccountId U128) (account : AccountId) :
    ((amounts stakes).lookup account).getD 0 = ((stakes.lookup account).getD 0).toNat := by
  rw [lookup_amounts]
  cases stakes.lookup account <;> rfl

theorem amounts_insert (stakes : Ledger AccountId U128) (account : AccountId) (stake : U128) :
    amounts (stakes.insert account stake) = (amounts stakes).insert account (stake.toNat : ℤ) :=
  Ledger.relabel_insert Function.injective_id _ stakes account stake

namespace EventContract

def mirror (e : Event) : Market.Event where
  resolver := e.resolver
  closesAt := e.closesAt.toNat
  phase := e.phase
  outcome := e.outcome
  poolYes := e.poolYes.toNat
  poolNo := e.poolNo.toNat
  escrow := e.escrow.toNat
  unclaimedWinStake := e.unclaimedWinStake.toNat
  yesStake := amounts e.yesStake
  noStake := amounts e.noStake
  claimed := e.claimed

variable {e : Event}

@[simp] theorem mirror_resolver : e.mirror.resolver = e.resolver := rfl

@[simp] theorem mirror_closesAt : e.mirror.closesAt = e.closesAt.toNat := rfl

@[simp] theorem mirror_phase : e.mirror.phase = e.phase := rfl

@[simp] theorem mirror_escrow : e.mirror.escrow = e.escrow.toNat := rfl

@[simp] theorem mirror_unclaimedWinStake : e.mirror.unclaimedWinStake = e.unclaimedWinStake.toNat := rfl

@[simp] theorem mirror_yesOf (account : AccountId) : e.mirror.yesOf account = (e.yesOf account).toNat :=
  getD_amounts _ _

@[simp] theorem mirror_noOf (account : AccountId) : e.mirror.noOf account = (e.noOf account).toNat :=
  getD_amounts _ _

@[simp] theorem mirror_winOf (account : AccountId) : e.mirror.winOf account = (e.winOf account).toNat := by
  unfold Market.Event.winOf Market.Event.winStake winOf
  change ((if e.outcome = .yes then amounts e.yesStake else amounts e.noStake).lookup account).getD 0 = _
  split
  · exact getD_amounts _ _
  · exact getD_amounts _ _

@[simp] theorem mirror_winPool : e.mirror.winPool = e.winPool.toNat := by
  unfold Market.Event.winPool winPool
  change (if e.outcome = .yes then (e.poolYes.toNat : ℤ) else e.poolNo.toNat) = _
  split <;> rfl

@[simp] theorem mirror_staked : e.mirror.staked = e.poolYes.toNat + e.poolNo.toNat := rfl

@[simp] theorem mirror_claimedBy (account : AccountId) : e.mirror.claimedBy account = e.claimedBy account := rfl

/-- What keeps the contract's sums in range: an event's stakes fit in a `u128` together. -/
structure Valid (e : Event) : Prop where
  mirror : e.mirror.Valid
  fits : e.poolYes.toNat + e.poolNo.toNat < 2 ^ 128

namespace Valid

theorem escrow_opened (valid : e.Valid) (opened : e.phase = .opened) :
    e.escrow.toNat = e.poolYes.toNat + e.poolNo.toNat := by
  have escrow := (valid.mirror.fresh opened).escrow
  change (e.escrow.toNat : ℤ) = e.poolYes.toNat + e.poolNo.toNat at escrow
  omega

theorem yesOf_le (valid : e.Valid) (account : AccountId) : (e.yesOf account).toNat ≤ e.poolYes.toNat := by
  have funded := valid.mirror.funded
  have bound := Ledger.balance_le_total id funded.yesPositive account
  rw [← funded.poolYes, ← Market.Event.yesOf_eq, mirror_yesOf] at bound
  exact Int.ofNat_le.mp bound

theorem noOf_le (valid : e.Valid) (account : AccountId) : (e.noOf account).toNat ≤ e.poolNo.toNat := by
  have funded := valid.mirror.funded
  have bound := Ledger.balance_le_total id funded.noPositive account
  rw [← funded.poolNo, ← Market.Event.noOf_eq, mirror_noOf] at bound
  exact Int.ofNat_le.mp bound

theorem winOf_le (valid : e.Valid) (resolved : e.phase = .resolved) {account : AccountId}
    (unclaimed : e.claimedBy account = false) : (e.winOf account).toNat ≤ e.unclaimedWinStake.toNat := by
  have closed := valid.mirror.closed (by simp [resolved])
  have capped := closed.winOf_le valid.mirror.funded resolved unclaimed
  rw [mirror_winOf, mirror_unclaimedWinStake] at capped
  exact Int.ofNat_le.mp capped

end Valid

/-- Adding a stake fails only where the escrow does: the other two sums are smaller. -/
theorem add_mirror (valid : e.Valid) (opened : e.phase = .opened) (account : AccountId) (side : Outcome) {amount : U128}
    (fits : e.escrow.toNat + amount.toNat < 2 ^ 128) :
    ∃ final, e.add account side amount = some final ∧ final.mirror = e.mirror.add account side amount.toNat := by
  have escrow := valid.escrow_opened opened
  have yes := valid.yesOf_le account
  have no := valid.noOf_le account
  have sum : ∀ x : U128, x.toNat ≤ e.escrow.toNat → ∃ z : U128, Checked.add x amount = some z ∧
      (z.toNat : ℤ) = x.toNat + amount.toNat := by
    intro x small
    refine ⟨x + amount, if_pos (by omega), ?_⟩
    rw [BitVec.toNat_add_of_lt (by omega), Int.natCast_add]
  obtain ⟨final, total, held⟩ := sum e.escrow (le_refl _)
  cases side with
  | unresolved => exact ⟨e, rfl, rfl⟩
  | yes =>
    obtain ⟨stake, mine, added⟩ := sum (e.yesOf account) (by omega)
    obtain ⟨pool, ours, grown⟩ := sum e.poolYes (by omega)
    refine ⟨_, by rw [add, mine, ours, total], ?_⟩
    simp only [mirror, Market.Event.add, amounts_insert, getD_amounts, added, grown, held]
    rfl
  | no =>
    obtain ⟨stake, mine, added⟩ := sum (e.noOf account) (by omega)
    obtain ⟨pool, ours, grown⟩ := sum e.poolNo (by omega)
    refine ⟨_, by rw [add, mine, ours, total], ?_⟩
    simp only [mirror, Market.Event.add, amounts_insert, getD_amounts, added, grown, held]
    rfl

theorem add_overflow (account : AccountId) {side : Outcome} (chosen : side ≠ .unresolved) {amount : U128}
    (exceeds : 2 ^ 128 ≤ e.escrow.toNat + amount.toNat) : e.add account side amount = none := by
  have total : Checked.add e.escrow amount = none := Checked.add_eq_none.mpr exceeds
  cases side with
  | unresolved => exact absurd rfl chosen
  | yes | no =>
    simp only [add, total]
    split
    next impossible => cases impossible
    next => rfl

theorem record_mirror (outcome : Outcome) : (e.record outcome).mirror = e.mirror.record outcome := by
  unfold record Market.Event.record mirror
  dsimp only
  split <;> rfl

/-- A winner that has not claimed, with the stakes on the event times their own stake beyond
a `u128`: the contract cannot compute their share. -/
structure Oversized (e : Event) (account : AccountId) : Prop where
  closed : e.phase ≠ .opened
  unclaimed : e.claimedBy account = false
  proRata : e.phase ≠ .voided ∧ e.winPool ≠ 0
  winner : e.winOf account ≠ 0
  exceeds : 2 ^ 128 ≤ (e.poolYes.toNat + e.poolNo.toNat) * (e.winOf account).toNat

instance (e : Event) (account : AccountId) : Decidable (e.Oversized account) :=
  decidable_of_iff
    (e.phase ≠ .opened ∧ e.claimedBy account = false ∧ (e.phase ≠ .voided ∧ e.winPool ≠ 0) ∧ e.winOf account ≠ 0 ∧
      2 ^ 128 ≤ (e.poolYes.toNat + e.poolNo.toNat) * (e.winOf account).toNat)
    ⟨fun ⟨closed, unclaimed, proRata, winner, exceeds⟩ => ⟨closed, unclaimed, proRata, winner, exceeds⟩,
      fun oversized => ⟨oversized.closed, oversized.unclaimed, oversized.proRata, oversized.winner, oversized.exceeds⟩⟩

/-- The one operation of a settlement that can leave the range: the last winner sweeps and
needs no share. -/
structure PayoutOverflows (e : Event) (account : AccountId) : Prop extends Oversized e account where
  more : e.winOf account < e.unclaimedWinStake

theorem payout_overflow (valid : e.Valid) {account : AccountId} (overflows : e.PayoutOverflows account) :
    e.payout account = .error (.panicked "PayoutOverflow") := by
  obtain ⟨⟨closed, unclaimed, ⟨unvoided, winners⟩, winner, exceeds⟩, more⟩ := overflows
  have total : Checked.add e.poolYes e.poolNo = some (e.poolYes + e.poolNo) := if_pos valid.fits
  have product : Checked.mul (e.poolYes + e.poolNo) (e.winOf account) = none := by
    rw [Checked.mul_eq_none, BitVec.toNat_add_of_lt valid.fits]
    exact exceeds
  have shared : ¬(e.phase = .voided ∨ e.winPool = 0) := by
    rintro (voided | nobody)
    · exact unvoided voided
    · exact winners nobody
  rw [payout, if_neg closed, if_neg (by simp [unclaimed]), if_neg shared, if_neg winner,
    if_neg (BitVec.not_le.mpr more), share, total]
  dsimp only
  rw [product]

/-- Outside that overflow the contract's payout is the mirror's. -/
theorem payout_mirror (valid : e.Valid) {account : AccountId} (clear : ¬e.PayoutOverflows account) :
    ∃ payout, e.payout account = .ok payout ∧ Market.payoutInner e.mirror account = payout.toNat := by
  have yes := valid.yesOf_le account
  have no := valid.noOf_le account
  have fits := valid.fits
  have last : (e.winOf account).toNat ≥ (e.unclaimedWinStake.toNat : ℤ) ↔ e.winOf account ≥ e.unclaimedWinStake := by
    simp only [ge_iff_le, BitVec.le_def, Int.ofNat_le]
  rw [Market.Event.payoutInner_cases, payout]
  simp only [mirror_phase, mirror_claimedBy, mirror_winPool, mirror_yesOf, mirror_noOf, mirror_winOf, mirror_staked,
    mirror_unclaimedWinStake, mirror_escrow, toInt_eq_zero, last]
  split_ifs with opened claimed refunded loser sweep
  · exact ⟨0, rfl, rfl⟩
  · exact ⟨0, rfl, rfl⟩
  · have sum : Checked.add (e.yesOf account) (e.noOf account) = some (e.yesOf account + e.noOf account) :=
      if_pos (by omega)
    refine ⟨_, by rw [refund, sum], ?_⟩
    rw [BitVec.toNat_add_of_lt (by omega), Int.natCast_add]
  · exact ⟨0, rfl, rfl⟩
  · exact ⟨e.escrow, rfl, rfl⟩
  · have total : Checked.add e.poolYes e.poolNo = some (e.poolYes + e.poolNo) := if_pos fits
    have small : (e.poolYes.toNat + e.poolNo.toNat) * (e.winOf account).toNat < 2 ^ 128 := by
      by_contra exceeds
      exact clear ⟨⟨opened, by simpa using claimed, not_or.mp refunded, loser, by omega⟩, BitVec.not_le.mp sweep⟩
    have whole : (e.poolYes + e.poolNo).toNat = e.poolYes.toNat + e.poolNo.toNat := BitVec.toNat_add_of_lt fits
    have product : Checked.mul (e.poolYes + e.poolNo) (e.winOf account) =
        some ((e.poolYes + e.poolNo) * e.winOf account) := if_pos (by rw [whole]; exact small)
    refine ⟨_, by rw [share, total]; dsimp only; rw [product], ?_⟩
    rw [BitVec.toNat_udiv, BitVec.toNat_mul_of_lt (by rw [whole]; exact small), whole,
      Int.fdiv_eq_ediv_of_nonneg _ (Int.natCast_nonneg _)]
    push_cast
    rfl

/-- Neither subtraction of a settlement can fail: the stake taken off the unclaimed is capped
by it, and the escrow covers the payout. -/
theorem pay_mirror (account : AccountId) {payout : U128} (covered : payout.toNat ≤ e.escrow.toNat) :
    ∃ final, e.pay account payout = some final ∧ final.mirror = e.mirror.pay account payout.toNat := by
  have left : Checked.sub e.escrow payout = some (e.escrow - payout) := if_pos covered
  have escrow : ((e.escrow - payout).toNat : ℤ) = e.escrow.toNat - payout.toNat := by
    rw [BitVec.toNat_sub_of_le covered]
    omega
  have emptied : e.escrow - payout = 0 ↔ (e.escrow.toNat : ℤ) - payout.toNat = 0 := by
    rw [← escrow, toInt_eq_zero]
  have capped : (if e.winOf account > e.unclaimedWinStake then e.unclaimedWinStake else e.winOf account).toNat ≤
      e.unclaimedWinStake.toNat := by
    split
    · exact le_refl _
    next small => exact BitVec.not_lt.mp small
  have taken : ∃ unclaimed : U128,
      (if e.phase = .resolved then Checked.sub e.unclaimedWinStake
        (if e.winOf account > e.unclaimedWinStake then e.unclaimedWinStake else e.winOf account)
        else some e.unclaimedWinStake) = some unclaimed ∧
      (unclaimed.toNat : ℤ) = if e.phase = .resolved then
        e.unclaimedWinStake.toNat - (if ((e.winOf account).toNat : ℤ) > e.unclaimedWinStake.toNat
          then (e.unclaimedWinStake.toNat : ℤ) else (e.winOf account).toNat)
        else e.unclaimedWinStake.toNat := by
    split
    · refine ⟨_, if_pos capped, ?_⟩
      rw [BitVec.toNat_sub_of_le capped, Int.ofNat_sub capped]
      simp only [gt_iff_lt, BitVec.lt_def, Int.ofNat_lt]
      split <;> rfl
    · exact ⟨_, rfl, rfl⟩
  obtain ⟨unclaimed, subtracted, value⟩ := taken
  refine ⟨{ e with claimed := e.claimed.insert account true, unclaimedWinStake := unclaimed
                   escrow := e.escrow - payout, phase := if e.Finalizes payout then .settled else e.phase }, ?_, ?_⟩
  · simp only [pay, subtracted, left]
  · have mine : (e.mirror.winStake.lookup account).getD 0 = (e.winOf account).toNat := mirror_winOf account
    have phase : (if e.Finalizes payout then .settled else e.phase) =
        if (e.escrow.toNat : ℤ) - payout.toNat = 0 ∧ e.phase = .resolved then .settled else e.phase :=
      if_congr (and_congr emptied Iff.rfl) rfl rfl
    rw [Market.Event.pay, mine]
    simp only [mirror, value, escrow, phase]
    rfl

end EventContract

/-- The abort of an integer operation that leaves its range. -/
def Abort.Arithmetic : Abort → Prop
  | .overflow => True
  | .panicked message => message = "PayoutOverflow"

theorem Abort.arithmetic_overflow : Abort.overflow.Arithmetic := trivial

theorem Abort.arithmetic_payout : (Abort.panicked "PayoutOverflow").Arithmetic := rfl

/-- An action and the mirror's: both succeed alike, both refuse in the same words, or the
action runs into an overflow, and that exactly when the condition says so. -/
inductive Tracks {α β : Type} (value : α → β) (overflows : Prop) :
    Except Abort (Effect α) → Except Market.SettlementError (β × Market.Event) → Prop where
  | succeeds (clear : ¬overflows) (effect : Effect α) :
      Tracks value overflows (.ok effect) (.ok (value effect.value, effect.event.mirror))
  | refuses (clear : ¬overflows) {message : String} (named : message ≠ "PayoutOverflow") :
      Tracks value overflows (.error (.panicked message)) (.error ⟨message⟩)
  | exceeds (overflow : overflows) {abort : Abort} (arithmetic : abort.Arithmetic)
      (theirs : Except Market.SettlementError (β × Market.Event)) : Tracks value overflows (.error abort) theirs

structure StakeOverflows (env : Env) (side : Outcome) (e : Event) : Prop where
  opened : e.phase = .opened
  before : env.blockTimestamp < e.closesAt
  positive : env.attachedDeposit > 0
  chosen : side ≠ .unresolved
  exceeds : 2 ^ 128 ≤ e.escrow.toNat + env.attachedDeposit.toNat

structure VoidOverflows (e : Event) : Prop where
  opened : e.phase = .opened
  exceeds : 2 ^ 64 ≤ e.closesAt.toNat + voidGraceNs

section Tracking
variable {e : Event} (valid : e.Valid) (env : Env) (eventId : U64)

include valid in
theorem stakeAct_tracks (side : Outcome) :
    Tracks (fun _ => ()) (StakeOverflows env side e) (stakeAct env eventId side e)
      (Market.stakeAct env.predecessorAccountId side env.attachedDeposit.toNat env.blockTimestamp.toNat e.mirror) := by
  have late : (env.blockTimestamp.toNat : ℤ) ≥ e.closesAt.toNat ↔ ¬env.blockTimestamp < e.closesAt := by
    rw [BitVec.lt_def]
    omega
  have nothing : (env.attachedDeposit.toNat : ℤ) ≤ 0 ↔ ¬env.attachedDeposit > 0 := by
    rw [gt_iff_lt, BitVec.lt_def]
    change _ ↔ ¬0 < _
    omega
  unfold stakeAct Market.stakeAct
  simp only [EventContract.mirror_phase, EventContract.mirror_closesAt, late, nothing, ne_eq]
  split_ifs with opened before positive unresolved
  · exact .refuses (fun overflows => overflows.chosen unresolved) (by decide)
  · by_cases exceeds : 2 ^ 128 ≤ e.escrow.toNat + env.attachedDeposit.toNat
    · rw [EventContract.add_overflow _ unresolved exceeds]
      exact .exceeds ⟨opened, before, positive, unresolved, exceeds⟩ Abort.arithmetic_overflow _
    · obtain ⟨final, added, image⟩ := EventContract.add_mirror valid opened env.predecessorAccountId side
        (show _ + env.attachedDeposit.toNat < _ by omega)
      rw [added, ← image]
      exact .succeeds (fun overflows => exceeds overflows.exceeds)
        (Effect.mk () final [.positionTaken eventId env.predecessorAccountId side env.attachedDeposit] [])
  · exact .refuses (fun overflows => positive overflows.positive) (by decide)
  · exact .refuses (fun overflows => before overflows.before) (by decide)
  · exact .refuses (fun overflows => opened overflows.opened) (by decide)

theorem resolveAct_tracks (outcome : Outcome) :
    Tracks (fun _ => ()) False (resolveAct env eventId outcome e)
      (Market.resolveAct env.predecessorAccountId outcome env.blockTimestamp.toNat e.mirror) := by
  have early : (env.blockTimestamp.toNat : ℤ) < e.closesAt.toNat ↔ ¬env.blockTimestamp ≥ e.closesAt := by
    rw [ge_iff_le, BitVec.le_def]
    omega
  unfold resolveAct Market.resolveAct
  simp only [EventContract.mirror_phase, EventContract.mirror_closesAt, EventContract.mirror_resolver, early, ne_eq, not_not]
  split_ifs
  all_goals first | exact .refuses not_false (by decide) | skip
  rw [← EventContract.record_mirror]
  exact .succeeds not_false (Effect.mk () (e.record outcome) [.eventResolved eventId outcome e.poolYes e.poolNo] [])

theorem voidAct_tracks :
    Tracks (fun _ => ()) (VoidOverflows e) (voidAct env eventId e)
      (Market.voidAct env.blockTimestamp.toNat e.mirror) := by
  have bound := env.blockTimestamp.isLt
  unfold voidAct Market.voidAct
  by_cases opened : e.phase = .opened
  · have image : ¬e.mirror.phase ≠ .opened := not_not.mpr opened
    rw [if_neg (not_not.mpr opened), if_neg image]
    cases sum : Checked.add e.closesAt voidGrace with
    | none =>
      rw [Checked.add_eq_none, voidGrace_toNat] at sum
      exact .exceeds ⟨opened, sum⟩ Abort.arithmetic_overflow _
    | some voidableAt =>
      rw [Checked.add_eq_some, voidGrace_toNat] at sum
      have clear : ¬VoidOverflows e := by
        intro overflows
        have inside := voidableAt.isLt
        have exceeds := overflows.exceeds
        omega
      have early : (env.blockTimestamp.toNat : ℤ) < e.mirror.closesAt + voidGraceNs ↔ ¬env.blockTimestamp ≥ voidableAt := by
        rw [ge_iff_le, BitVec.le_def, sum, EventContract.mirror_closesAt]
        omega
      simp only [early]
      split_ifs
      · exact .succeeds clear (Effect.mk () { e with phase := .voided } [.eventVoided eventId e.escrow] [])
      · exact .refuses clear (by decide)
  · have image : e.mirror.phase ≠ .opened := opened
    rw [if_pos opened, if_pos image]
    exact .refuses (fun overflows => opened overflows.opened) (by decide)

include valid in
theorem settleAct_tracks (account : AccountId) :
    Tracks (fun payout => (payout.toNat : ℤ)) (e.PayoutOverflows account) (settleAct eventId account e)
      (Market.settleAct account e.mirror) := by
  unfold settleAct Market.settleAct
  by_cases opened : e.phase = .opened
  · have image : e.mirror.phase = .opened := opened
    rw [if_pos (not_not.mpr opened), if_pos image]
    exact .refuses (fun overflows => overflows.closed opened) (by decide)
  have decided : e.mirror.phase ≠ .opened := opened
  rw [if_neg (not_not.mpr opened), if_neg decided]
  change Tracks _ _ _ (if e.claimedBy account then _ else _)
  by_cases claimed : e.claimedBy account = true
  · rw [if_pos claimed, if_pos claimed]
    exact .refuses (fun overflows => by simp [overflows.unclaimed] at claimed) (by decide)
  rw [if_neg claimed, if_neg claimed]
  by_cases overflows : e.PayoutOverflows account
  · rw [EventContract.payout_overflow valid overflows]
    exact .exceeds overflows Abort.arithmetic_payout _
  obtain ⟨payout, computed, value⟩ := EventContract.payout_mirror valid overflows
  have covered := valid.mirror.payout_le_escrow decided account
  rw [computed, value] at *
  dsimp only
  by_cases positive : payout > 0
  · have paying : ¬(payout.toNat : ℤ) = 0 := by
      rw [toInt_eq_zero]
      rintro rfl
      exact absurd positive (by decide)
    obtain ⟨final, paid, image⟩ := EventContract.pay_mirror account (Int.ofNat_le.mp covered)
    rw [if_neg (not_not.mpr positive), if_neg paying, paid, ← image]
    exact .succeeds overflows (Effect.mk payout final
      (.settled eventId account payout :: if e.Finalizes payout then [.eventFinalized eventId] else []) [⟨account, payout⟩])
  · have nothing : (payout.toNat : ℤ) = 0 := by
      rw [toInt_eq_zero]
      rw [gt_iff_lt, BitVec.lt_def] at positive
      exact BitVec.eq_of_toNat_eq (by simpa using positive)
    rw [if_pos positive, if_pos nothing]
    exact .refuses overflows (by decide)

end Tracking

end NearRewards.Contract
