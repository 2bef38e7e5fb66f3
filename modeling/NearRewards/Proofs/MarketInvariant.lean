import NearRewards.Library.Pot
import NearRewards.Library.ProRata
import NearRewards.Proofs.MarketActs

/-! The market's representation invariant. An open event holds its stakes; once it is
closed, what it still holds is a pot owed to the entitled accounts that have not claimed,
and settling one of them is paying that pot. -/

namespace NearRewards.Market
namespace Event
variable (e : Event)

def yesOf (account : AccountId) : ℤ := (e.yesStake.lookup account).getD 0

def noOf (account : AccountId) : ℤ := (e.noStake.lookup account).getD 0

def winOf (account : AccountId) : ℤ := (e.winStake.lookup account).getD 0

def claimedBy (account : AccountId) : Bool := (e.claimed.lookup account).getD false

/-- All that was ever staked on the event. -/
def staked : ℤ := e.poolYes + e.poolNo

/-- The event divides its stakes among the winners, instead of refunding everyone. -/
def ProRata : Prop := e.phase ≠ .voided ∧ e.winPool ≠ 0

instance : Decidable e.ProRata := inferInstanceAs (Decidable (_ ∧ _))

/-- The accounts a closed event pays, claimed or not. -/
def entitled : Finset AccountId := if e.ProRata then e.winStake.keys else e.yesStake.keys ∪ e.noStake.keys

def owed : Finset AccountId := e.entitled.filter (fun account => e.claimedBy account = false)

/-- What a closed event pays an entitled account, before the sweep. -/
def due (account : AccountId) : ℤ :=
  if e.ProRata then ProRata.share e.staked e.winPool (e.winOf account) else e.yesOf account + e.noOf account

/-- What rounding the shares down leaves over. -/
def dust : ℤ := e.staked - ∑ account ∈ e.entitled, e.due account

/-- Stakes are positive and the pools are their totals. -/
structure Funded : Prop where
  yesPositive : ∀ account stake, e.yesStake.lookup account = some stake → 0 < stake
  noPositive : ∀ account stake, e.noStake.lookup account = some stake → 0 < stake
  poolYes : e.poolYes = Ledger.total id e.yesStake
  poolNo : e.poolNo = Ledger.total id e.noStake

structure Fresh : Prop where
  outcome : e.outcome = .unresolved
  claimed : e.claimed = ∅
  unclaimed : e.unclaimedWinStake = 0
  escrow : e.escrow = e.staked

structure Closed : Prop where
  outcome : e.phase = .voided ∧ e.outcome = .unresolved ∨
    (e.phase = .resolved ∨ e.phase = .settled) ∧ (e.outcome = .yes ∨ e.outcome = .no)
  claimed : ∀ account, e.claimedBy account = true → account ∈ e.entitled
  unclaimed : e.unclaimedWinStake = if e.ProRata then ∑ account ∈ e.owed, e.winOf account else 0
  escrow : e.escrow = if e.owed = ∅ then 0 else ∑ account ∈ e.owed, e.due account + e.dust
  settled : e.phase = .settled → e.owed = ∅
  resolved : e.phase = .resolved → e.owed = ∅ → e.entitled = ∅

structure Valid : Prop where
  funded : e.Funded
  fresh : e.phase = .opened → e.Fresh
  closed : e.phase ≠ .opened → e.Closed

variable {e}

theorem yesOf_eq (account : AccountId) : e.yesOf account = Ledger.balance id e.yesStake account :=
  (Ledger.balance_id _ _).symm

theorem noOf_eq (account : AccountId) : e.noOf account = Ledger.balance id e.noStake account :=
  (Ledger.balance_id _ _).symm

theorem winOf_eq (account : AccountId) : e.winOf account = Ledger.balance id e.winStake account :=
  (Ledger.balance_id _ _).symm

theorem mem_owed {account : AccountId} : account ∈ e.owed ↔ account ∈ e.entitled ∧ e.claimedBy account = false :=
  Finset.mem_filter

namespace Funded

theorem winPositive (funded : e.Funded) :
    ∀ account stake, e.winStake.lookup account = some stake → 0 < stake := by
  unfold winStake
  split
  · exact funded.yesPositive
  · exact funded.noPositive

theorem winPool (funded : e.Funded) : e.winPool = Ledger.total id e.winStake := by
  unfold Event.winPool winStake
  split
  · exact funded.poolYes
  · exact funded.poolNo

theorem yesOf_nonneg (funded : e.Funded) (account : AccountId) : 0 ≤ e.yesOf account := by
  rw [yesOf_eq]
  exact Ledger.balance_nonneg id funded.yesPositive account

theorem noOf_nonneg (funded : e.Funded) (account : AccountId) : 0 ≤ e.noOf account := by
  rw [noOf_eq]
  exact Ledger.balance_nonneg id funded.noPositive account

theorem winOf_nonneg (funded : e.Funded) (account : AccountId) : 0 ≤ e.winOf account := by
  rw [winOf_eq]
  exact Ledger.balance_nonneg id funded.winPositive account

theorem winOf_ne_zero (funded : e.Funded) {account : AccountId} :
    e.winOf account ≠ 0 ↔ account ∈ e.winStake.keys := by
  rw [winOf_eq]
  exact (Ledger.mem_keys_iff_balance id funded.winPositive).symm

theorem refund_ne_zero (funded : e.Funded) {account : AccountId} :
    e.yesOf account + e.noOf account ≠ 0 ↔ account ∈ e.yesStake.keys ∪ e.noStake.keys := by
  have yes := funded.yesOf_nonneg account
  have no := funded.noOf_nonneg account
  rw [Finset.mem_union, Ledger.mem_keys_iff_balance id funded.yesPositive, ← yesOf_eq,
    Ledger.mem_keys_iff_balance id funded.noPositive, ← noOf_eq]
  omega

theorem pools_nonneg (funded : e.Funded) : 0 ≤ e.poolYes ∧ 0 ≤ e.poolNo := by
  rw [funded.poolYes, funded.poolNo]
  exact ⟨Finset.sum_nonneg (fun account _ => Ledger.balance_nonneg id funded.yesPositive account),
    Finset.sum_nonneg (fun account _ => Ledger.balance_nonneg id funded.noPositive account)⟩

theorem winPool_le_staked (funded : e.Funded) : e.winPool ≤ e.staked := by
  have pools := funded.pools_nonneg
  unfold Event.winPool staked
  split <;> omega

theorem winPool_pos (funded : e.Funded) (proRata : e.ProRata) : 0 < e.winPool := by
  have pools := funded.pools_nonneg
  have some := proRata.2
  unfold Event.winPool at some ⊢
  split at some <;> simp_all <;> omega

theorem staked_eq_sum (funded : e.Funded) :
    e.staked = ∑ account ∈ e.yesStake.keys ∪ e.noStake.keys, (e.yesOf account + e.noOf account) := by
  simp only [yesOf_eq, noOf_eq, staked, funded.poolYes, funded.poolNo, Finset.sum_add_distrib]
  rw [Ledger.total_eq_sum id Finset.subset_union_left, Ledger.total_eq_sum id Finset.subset_union_right]

theorem winPool_eq_sum (funded : e.Funded) : e.winPool = ∑ account ∈ e.winStake.keys, e.winOf account := by
  simp only [winOf_eq, funded.winPool, Ledger.total]

theorem due_ne_zero (funded : e.Funded) {account : AccountId} (member : account ∈ e.entitled) :
    0 < e.due account := by
  unfold entitled at member
  unfold due
  split at member
  next proRata =>
    rw [if_pos proRata]
    have stake := funded.winOf_ne_zero.mpr member
    have nonneg := funded.winOf_nonneg account
    have share := ProRata.stake_le_share (funded.winPool_pos proRata) funded.winPool_le_staked nonneg
    omega
  next refund =>
    rw [if_neg refund]
    have stake := funded.refund_ne_zero.mpr member
    have yes := funded.yesOf_nonneg account
    have no := funded.noOf_nonneg account
    omega

/-- Refunds are exact, and the shares of the winners round down by less than one each. -/
theorem dust_bounds (funded : e.Funded) :
    0 ≤ e.dust ∧ (e.ProRata → e.dust < e.winStake.keys.card) ∧ (¬e.ProRata → e.dust = 0) := by
  unfold dust entitled due
  by_cases proRata : e.ProRata
  · simp only [if_pos proRata]
    have positive := funded.winPool_pos proRata
    have whole := funded.winPool_eq_sum.symm
    have below := ProRata.sum_share_le e.staked e.winOf e.winStake.keys positive whole
    have above := ProRata.total_lt_sum_share e.staked e.winOf e.winStake.keys positive whole
    exact ⟨by omega, fun _ => by omega, fun refund => absurd proRata refund⟩
  · simp only [if_neg proRata, ← funded.staked_eq_sum]
    exact ⟨by omega, fun winners => absurd winners proRata, fun _ => by omega⟩

end Funded

/-- What a closed event still holds, as a pot owed to those who have not claimed. -/
def pot (funded : e.Funded) (closed : e.Closed) : Pot AccountId where
  owed := e.owed
  due := e.due
  held := e.escrow
  positive := fun _ member => funded.due_ne_zero (mem_owed.mp member).1
  covered := by
    have dust := funded.dust_bounds.1
    rw [closed.escrow]
    split
    next empty => simp [empty]
    next => omega
  emptied := fun empty => by rw [closed.escrow, if_pos empty]

/-- The surplus of the pot is the dust, until the last claim. -/
theorem pot_slack (funded : e.Funded) (closed : e.Closed) (more : e.owed ≠ ∅) :
    (pot funded closed).slack = e.dust := by
  change e.escrow - ∑ account ∈ e.owed, e.due account = e.dust
  rw [closed.escrow, if_neg more]
  omega

namespace Closed

theorem escrow_eq_zero (funded : e.Funded) (closed : e.Closed) : e.escrow = 0 ↔ e.owed = ∅ :=
  (pot funded closed).held_eq_zero

/-- Without winners an event holds exactly the stakes of those it has not refunded. -/
theorem escrow_refund (funded : e.Funded) (closed : e.Closed) (refund : ¬e.ProRata) :
    e.escrow = ∑ account ∈ e.owed, (e.yesOf account + e.noOf account) := by
  have dust := funded.dust_bounds.2.2 refund
  rw [closed.escrow]
  split
  next empty => rw [empty, Finset.sum_empty]
  next =>
    rw [dust, Int.add_zero]
    exact Finset.sum_congr rfl (fun account _ => if_neg refund)

/-- With winners it holds what is left of the stakes once the claimed shares are paid. -/
theorem escrow_shares (closed : e.Closed) (proRata : e.ProRata) (more : e.owed ≠ ∅) :
    e.escrow = e.staked -
      ∑ account ∈ e.entitled.filter (fun account => ¬e.claimedBy account = false),
        ProRata.share e.staked e.winPool (e.winOf account) := by
  have parts := Finset.sum_filter_add_sum_filter_not e.entitled (fun account => e.claimedBy account = false) e.due
  have shares : ∑ account ∈ e.entitled.filter (fun account => ¬e.claimedBy account = false), e.due account =
      ∑ account ∈ e.entitled.filter (fun account => ¬e.claimedBy account = false),
        ProRata.share e.staked e.winPool (e.winOf account) :=
    Finset.sum_congr rfl (fun account _ => if_pos proRata)
  rw [closed.escrow, if_neg more, dust, ← shares]
  change ∑ account ∈ e.owed, e.due account + _ = _ at parts
  omega

/-- The winners' claims on the stakes, taken together before any rounding, are covered. -/
theorem backed (funded : e.Funded) (closed : e.Closed) (proRata : e.ProRata) :
    e.staked * e.unclaimedWinStake ≤ e.escrow * e.winPool := by
  have positive := funded.winPool_pos proRata
  have unclaimed := closed.unclaimed
  rw [if_pos proRata] at unclaimed
  by_cases empty : e.owed = ∅
  · rw [(closed.escrow_eq_zero funded).mpr empty, unclaimed, empty, Finset.sum_empty]
    omega
  · have parts := Finset.sum_filter_add_sum_filter_not e.entitled (fun account => e.claimedBy account = false) e.winOf
    have rounded := ProRata.sum_share_mul_le e.staked e.winOf
      (e.entitled.filter (fun account => ¬e.claimedBy account = false)) positive
    change ∑ account ∈ e.owed, e.winOf account + _ = _ at parts
    have whole : ∑ account ∈ e.entitled, e.winOf account = e.winPool := by
      rw [entitled, if_pos proRata, funded.winPool_eq_sum]
    rw [← unclaimed, whole] at parts
    rw [closed.escrow_shares proRata empty, Int.sub_mul]
    have split_ := congrArg (e.staked * ·) parts
    simp only [Int.mul_add] at split_
    omega

/-- A resolved event that holds nothing never held anything. -/
theorem resolved_empty (funded : e.Funded) (closed : e.Closed) (resolved : e.phase = .resolved) (nothing : e.escrow = 0) :
    e.staked = 0 := by
  have empty := closed.resolved resolved ((closed.escrow_eq_zero funded).mp nothing)
  by_cases proRata : e.ProRata
  · rw [entitled, if_pos proRata] at empty
    have whole := funded.winPool_eq_sum
    rw [empty, Finset.sum_empty] at whole
    exact absurd whole proRata.2
  · rw [entitled, if_neg proRata] at empty
    rw [funded.staked_eq_sum, empty, Finset.sum_empty]

theorem unclaimed_eq_zero (funded : e.Funded) (closed : e.Closed) (proRata : e.ProRata) :
    e.unclaimedWinStake = 0 ↔ e.owed = ∅ := by
  rw [closed.unclaimed, if_pos proRata]
  refine ⟨fun nothing => ?_, fun empty => by rw [empty, Finset.sum_empty]⟩
  rw [Finset.eq_empty_iff_forall_notMem]
  intro account member
  have entitled := (mem_owed.mp member).1
  rw [Event.entitled, if_pos proRata] at entitled
  have stake := (Finset.sum_eq_zero_iff_of_nonneg (fun other _ => funded.winOf_nonneg other)).mp nothing account member
  exact funded.winOf_ne_zero.mpr entitled stake

end Closed

section Payout
variable (funded : e.Funded) (closed : e.Closed) (decided : e.phase ≠ .opened)

/-- The payout by cases, in the words of the invariant. -/
theorem payoutInner_cases (e : Event) (account : AccountId) :
    payoutInner e account =
      if e.phase = .opened then 0
      else if e.claimedBy account then 0
      else if e.phase = .voided ∨ e.winPool = 0 then e.yesOf account + e.noOf account
      else if e.winOf account = 0 then 0
      else if e.winOf account ≥ e.unclaimedWinStake then e.escrow
      else (e.staked * e.winOf account).fdiv e.winPool := by
  have mine : (if e.outcome = .yes then (e.yesStake.lookup account).getD 0 else (e.noStake.lookup account).getD 0) =
      e.winOf account := by
    unfold winOf winStake
    split <;> rfl
  unfold payoutInner
  simp only [mine]
  change (if _ then _ else if e.claimedBy account then _ else if _ then e.yesOf account + e.noOf account else
    if e.winPool = 0 then e.yesOf account + e.noOf account else _) = _
  by_cases voided : e.phase = .voided
  · simp only [voided, true_or, if_true]
  · by_cases nobody : e.winPool = 0
    · simp only [nobody, or_true, if_true, ite_self]
    · rw [if_neg (not_or.mpr ⟨voided, nobody⟩), if_neg voided, if_neg nobody]
      rfl

private theorem payout_shares (proRata : e.ProRata) (account : AccountId) (unclaimed : e.claimedBy account = false)
    (decided : e.phase ≠ .opened) :
    payoutInner e account =
      if e.winOf account = 0 then 0
      else if e.winOf account ≥ e.unclaimedWinStake then e.escrow
      else (e.staked * e.winOf account).fdiv e.winPool := by
  rw [payoutInner_cases, if_neg decided, if_neg (by simp [unclaimed]), if_neg (not_or.mpr proRata)]

private theorem payout_refund (refund : ¬e.ProRata) (account : AccountId) (unclaimed : e.claimedBy account = false)
    (decided : e.phase ≠ .opened) : payoutInner e account = e.yesOf account + e.noOf account := by
  have refunded : e.phase = .voided ∨ e.winPool = 0 := by
    by_contra shared
    exact refund (not_or.mp shared)
  rw [payoutInner_cases, if_neg decided, if_neg (by simp [unclaimed]), if_pos refunded]

theorem due_share (funded : e.Funded) (proRata : e.ProRata) (account : AccountId) :
    e.due account = (e.staked * e.winOf account).fdiv e.winPool := by
  rw [Int.fdiv_eq_ediv_of_nonneg _ (funded.winPool_pos proRata).le, due, if_pos proRata]
  rfl

/-- The sweep condition of the code, a stake as large as all unclaimed winning stakes, holds
exactly for the last one owed, because stakes are positive. -/
theorem sweeps_iff (funded : e.Funded) (closed : e.Closed) (proRata : e.ProRata) {account : AccountId}
    (member : account ∈ e.owed) : e.winOf account ≥ e.unclaimedWinStake ↔ e.owed = {account} := by
  have positive : ∀ other ∈ e.owed, 0 < e.winOf other := by
    intro other present
    have entitled := (mem_owed.mp present).1
    rw [Event.entitled, if_pos proRata] at entitled
    have nonneg := funded.winOf_nonneg other
    have stake := funded.winOf_ne_zero.mpr entitled
    omega
  rw [closed.unclaimed, if_pos proRata]
  exact ProRata.sum_le_single_iff positive member

include decided in
/-- The code's payout is the pot's payment, and nothing for an account that is owed nothing. -/
theorem payoutInner_eq (account : AccountId) :
    payoutInner e account = if account ∈ e.owed then (pot funded closed).payment account else 0 := by
  by_cases unclaimed : e.claimedBy account = false
  · by_cases proRata : e.ProRata
    · rw [payout_shares proRata account unclaimed decided]
      by_cases member : account ∈ e.owed
      · have entitled := (mem_owed.mp member).1
        have winner : e.winOf account ≠ 0 := by
          rw [Event.entitled, if_pos proRata] at entitled
          exact funded.winOf_ne_zero.mpr entitled
        simp only [if_neg winner, sweeps_iff funded closed proRata member, ← due_share funded proRata, if_pos member]
        rfl
      · have loser : e.winOf account = 0 := by
          by_contra winner
          apply member
          rw [mem_owed, Event.entitled, if_pos proRata]
          exact ⟨funded.winOf_ne_zero.mp winner, unclaimed⟩
        rw [if_pos loser, if_neg member]
    · rw [payout_refund proRata account unclaimed decided]
      by_cases member : account ∈ e.owed
      · have due : (pot funded closed).due account = e.yesOf account + e.noOf account := if_neg proRata
        have slack := pot_slack funded closed (Finset.ne_empty_of_mem member)
        rw [if_pos member, Pot.payment, ← due]
        split
        next only =>
          have held := (pot funded closed).held_eq
          rw [only, Finset.sum_singleton, slack, funded.dust_bounds.2.2 proRata] at held
          omega
        next => rfl
      · rw [if_neg member]
        by_contra stake
        apply member
        rw [mem_owed, Event.entitled, if_neg proRata]
        exact ⟨funded.refund_ne_zero.mp stake, unclaimed⟩
  · have claimed : (e.claimed.lookup account).getD false = true := by
      change e.claimedBy account = true
      simpa using unclaimed
    have settled : account ∉ e.owed := fun member => unclaimed (mem_owed.mp member).2
    rw [if_neg settled, payoutInner, if_neg decided, if_pos claimed]

end Payout

section Pay
variable (account : AccountId) (payout : ℤ)

theorem pay_proRata : (e.pay account payout).ProRata ↔ e.ProRata := by
  unfold ProRata winPool pay
  split_ifs <;> simp_all

theorem pay_entitled : (e.pay account payout).entitled = e.entitled := by
  unfold entitled
  simp only [pay_proRata]
  rfl

theorem pay_owed : (e.pay account payout).owed = e.owed.erase account := by
  ext other
  rw [mem_owed, pay_entitled, Finset.mem_erase, mem_owed, claimedBy, claimedBy, pay, Ledger.lookup_insert]
  split
  next same => simp [same]
  next different => simp [different]

theorem pay_due (other : AccountId) : (e.pay account payout).due other = e.due other := by
  unfold due
  simp only [pay_proRata]
  rfl

theorem pay_dust : (e.pay account payout).dust = e.dust := by
  unfold dust
  simp only [pay_entitled, pay_due]
  rfl

end Pay

/-- Before they claim, nobody's winning stake exceeds what is left unclaimed. -/
theorem Closed.winOf_le (funded : e.Funded) (closed : e.Closed) (resolved : e.phase = .resolved) {account : AccountId}
    (unclaimed : e.claimedBy account = false) : e.winOf account ≤ e.unclaimedWinStake := by
  have rest := closed.unclaimed
  by_cases proRata : e.ProRata
  · rw [if_pos proRata] at rest
    rw [rest]
    by_cases member : account ∈ e.owed
    · exact Finset.single_le_sum (fun other _ => funded.winOf_nonneg other) member
    · have loser : e.winOf account = 0 := by
        by_contra winner
        refine member (mem_owed.mpr ⟨?_, unclaimed⟩)
        rw [entitled, if_pos proRata]
        exact funded.winOf_ne_zero.mp winner
      rw [loser]
      exact Finset.sum_nonneg (fun other _ => funded.winOf_nonneg other)
  · have nobody : e.winPool = 0 := by
      by_contra winners
      exact proRata ⟨by simp [resolved], winners⟩
    have bound := Ledger.balance_le_total id funded.winPositive account
    rw [← winOf_eq, ← funded.winPool, nobody] at bound
    rw [rest, if_neg proRata]
    exact bound

private theorem pay_unclaimed (funded : e.Funded) (closed : e.Closed) {account : AccountId} (member : account ∈ e.owed)
    (payout : ℤ) :
    (e.pay account payout).unclaimedWinStake =
      if e.ProRata then ∑ other ∈ e.owed.erase account, e.winOf other else 0 := by
  have unclaimed := closed.unclaimed
  have nonneg := funded.winOf_nonneg account
  change (if e.phase = .resolved then
    e.unclaimedWinStake - (if e.winOf account > e.unclaimedWinStake then e.unclaimedWinStake else e.winOf account)
    else e.unclaimedWinStake) = _
  by_cases proRata : e.ProRata
  · rw [if_pos proRata] at unclaimed ⊢
    have split_ := Finset.add_sum_erase e.owed e.winOf member
    have resolved : e.phase = .resolved := by
      rcases closed.outcome with voided | decided
      · exact absurd voided.1 proRata.1
      · exact decided.1.resolve_right (fun settled => Finset.ne_empty_of_mem member (closed.settled settled))
    have capped := closed.winOf_le funded resolved (mem_owed.mp member).2
    rw [if_pos resolved, if_neg (by omega)]
    omega
  · rw [if_neg proRata] at unclaimed ⊢
    split
    next resolved =>
      have capped := closed.winOf_le funded resolved (mem_owed.mp member).2
      rw [if_neg (by omega)]
      omega
    next => exact unclaimed

/-- Settling an account that is owed pays the pot, whatever remains of it. -/
theorem Closed.pay (funded : e.Funded) (closed : e.Closed) {account : AccountId} (member : account ∈ e.owed) :
    (e.pay account ((pot funded closed).payment account)).Closed := by
  set payout := (pot funded closed).payment account
  have owed : account ∈ (pot funded closed).owed := member
  have owing : e.owed ≠ ∅ := Finset.ne_empty_of_mem member
  have unsettled : e.phase ≠ .settled := fun settled => owing (closed.settled settled)
  have left : e.escrow - payout = ((pot funded closed).pay account).held := (Pot.pay_held owed).symm
  have emptied : e.escrow - payout = 0 ↔ (e.pay account payout).owed = ∅ := by
    rw [left, Pot.held_eq_zero, Pot.pay_owed owed, pay_owed]
    rfl
  refine ⟨?_, ?_, ?_, ?_, ?_, ?_⟩
  · have outcome := closed.outcome
    change (if _ then _ else _) = _ ∧ e.outcome = _ ∨
      ((if _ then _ else _) = _ ∨ (if _ then _ else _) = _) ∧ (e.outcome = _ ∨ e.outcome = _)
    split
    next last => simpa [last.2] using outcome
    next => exact outcome
  · intro other claimed
    rw [pay_entitled]
    by_cases same : other = account
    · exact same ▸ (mem_owed.mp member).1
    · apply closed.claimed
      rwa [claimedBy, Event.pay, Ledger.lookup_insert, if_neg same] at claimed
  · rw [pay_unclaimed funded closed member, pay_owed]
    simp only [pay_proRata]
    rfl
  · by_cases last : (e.pay account payout).owed = ∅
    · rw [if_pos last]
      exact emptied.mpr last
    · rw [if_neg last, pay_owed, pay_dust]
      have more : (pot funded closed).owed ≠ {account} := by
        intro only
        apply last
        change e.owed = {account} at only
        rw [pay_owed, only, Finset.erase_singleton]
      have held := ((pot funded closed).pay account).held_eq
      rw [Pot.pay_slack owed more, pot_slack funded closed owing, Pot.pay_owed owed, Pot.pay_due owed, ← left] at held
      simp only [pay_due]
      exact held
  · intro settled
    rw [← emptied]
    by_contra more
    have same : (e.pay account payout).phase = e.phase := if_neg (fun last => more last.1)
    exact unsettled (same ▸ settled)
  · intro resolved empty
    have last := emptied.mpr empty
    change (if _ then _ else _) = _ at resolved
    grind

theorem Funded.pay (funded : e.Funded) (account : AccountId) (payout : ℤ) : (e.pay account payout).Funded :=
  ⟨funded.yesPositive, funded.noPositive, funded.poolYes, funded.poolNo⟩

/-- On the pot the event is, settling is the pot's own payment. -/
theorem pot_pay (funded : e.Funded) (closed : e.Closed) {account : AccountId} (member : account ∈ e.owed) :
    pot (funded.pay account _) (closed.pay funded member) = (pot funded closed).pay account := by
  have owed : account ∈ (pot funded closed).owed := member
  ext other
  · rw [Pot.pay_owed owed]
    change other ∈ (e.pay _ _).owed ↔ other ∈ e.owed.erase account
    rw [pay_owed]
  · rw [Pot.pay_due owed]
    exact pay_due _ _ other
  · rw [Pot.pay_held owed]
    rfl

private theorem credit {ledger : Ledger AccountId ℤ} {amount pool : ℤ} (positive : 0 < amount)
    (entries : ∀ account stake, ledger.lookup account = some stake → 0 < stake)
    (total : pool = Ledger.total id ledger) (account : AccountId) :
    (∀ other stake, (ledger.insert account ((ledger.lookup account).getD 0 + amount)).lookup other = some stake → 0 < stake) ∧
      pool + amount = Ledger.total id (ledger.insert account ((ledger.lookup account).getD 0 + amount)) := by
  have balance := Ledger.balance_nonneg id entries account
  rw [Ledger.balance_id] at balance
  constructor
  · intro other stake found
    rw [Ledger.lookup_insert] at found
    split at found
    · cases found
      omega
    · exact entries other stake found
  · rw [Ledger.total_insert, Ledger.balance_id, total, id]
    omega

theorem Valid.add (valid : e.Valid) (opened : e.phase = .opened) {amount : ℤ} (positive : 0 < amount)
    (account : AccountId) {side : Outcome} (chosen : side ≠ .unresolved) : (e.add account side amount).Valid := by
  obtain ⟨outcome, claimed, unclaimed, escrow⟩ := valid.fresh opened
  have funded := valid.funded
  unfold staked at escrow
  cases side with
  | unresolved => exact absurd rfl chosen
  | yes =>
    obtain ⟨entries, total⟩ := credit positive funded.yesPositive funded.poolYes account
    refine ⟨⟨entries, funded.noPositive, total, funded.poolNo⟩, fun _ => ⟨outcome, claimed, unclaimed, ?_⟩,
      fun closed => absurd opened closed⟩
    change e.escrow + amount = e.poolYes + amount + e.poolNo
    omega
  | no =>
    obtain ⟨entries, total⟩ := credit positive funded.noPositive funded.poolNo account
    refine ⟨⟨funded.yesPositive, entries, funded.poolYes, total⟩, fun _ => ⟨outcome, claimed, unclaimed, ?_⟩,
      fun closed => absurd opened closed⟩
    change e.escrow + amount = e.poolYes + (e.poolNo + amount)
    omega

/-- An event that closes before anyone has claimed owes everyone entitled. -/
private theorem closes (funded : e.Funded) (claimed : e.claimed = ∅) (escrow : e.escrow = e.staked)
    (outcome : e.phase = .voided ∧ e.outcome = .unresolved ∨ e.phase = .resolved ∧ (e.outcome = .yes ∨ e.outcome = .no))
    (unclaimed : e.unclaimedWinStake = if e.ProRata then e.winPool else 0) : e.Closed := by
  have nobody : ∀ account, e.claimedBy account = false := by
    intro account
    rw [claimedBy, claimed]
    rfl
  have everyone : e.owed = e.entitled := Finset.filter_true_of_mem (fun account _ => nobody account)
  refine ⟨?_, ?_, ?_, ?_, ?_, ?_⟩
  · exact outcome.imp id (fun decided => ⟨Or.inl decided.1, decided.2⟩)
  · intro account claims
    rw [nobody account] at claims
    cases claims
  · rw [unclaimed, everyone]
    split
    next proRata => rw [entitled, if_pos proRata, funded.winPool_eq_sum]
    next => rfl
  · rw [everyone, escrow, dust]
    split
    next empty =>
      by_cases proRata : e.ProRata
      · rw [entitled, if_pos proRata] at empty
        have whole := funded.winPool_eq_sum
        rw [empty, Finset.sum_empty] at whole
        exact absurd whole proRata.2
      · rw [entitled, if_neg proRata] at empty
        rw [funded.staked_eq_sum, empty, Finset.sum_empty]
    next => omega
  · intro settled
    rcases outcome with voided | decided
    · rw [voided.1] at settled
      cases settled
    · rw [decided.1] at settled
      cases settled
  · intro _ empty
    exact everyone ▸ empty

theorem Valid.record (valid : e.Valid) (opened : e.phase = .opened) {outcome : Outcome}
    (decided : outcome = .yes ∨ outcome = .no) : (e.record outcome).Valid := by
  obtain ⟨_, claimed, _, escrow⟩ := valid.fresh opened
  have funded : (e.record outcome).Funded :=
    ⟨valid.funded.yesPositive, valid.funded.noPositive, valid.funded.poolYes, valid.funded.poolNo⟩
  have unclaimed : (e.record outcome).unclaimedWinStake = if (e.record outcome).ProRata then (e.record outcome).winPool else 0 := by
    change (e.record outcome).winPool = _
    split
    next => rfl
    next refund =>
      by_contra winners
      exact refund ⟨by simp [Event.record], winners⟩
  exact ⟨funded, fun reopened => (by cases reopened), fun _ => closes funded claimed escrow (Or.inr ⟨rfl, decided⟩) unclaimed⟩

theorem Valid.void (valid : e.Valid) (opened : e.phase = .opened) : ({ e with phase := .voided } : Event).Valid := by
  obtain ⟨outcome, claimed, unclaimed, escrow⟩ := valid.fresh opened
  have funded : ({ e with phase := .voided } : Event).Funded :=
    ⟨valid.funded.yesPositive, valid.funded.noPositive, valid.funded.poolYes, valid.funded.poolNo⟩
  have refund : ¬({ e with phase := .voided } : Event).ProRata := fun proRata => proRata.1 rfl
  exact ⟨funded, fun reopened => (by cases reopened),
    fun _ => closes funded claimed escrow (Or.inl ⟨rfl, outcome⟩) (by rw [if_neg refund]; exact unclaimed)⟩

theorem Valid.pay (valid : e.Valid) (decided : e.phase ≠ .opened) {account : AccountId}
    (payable : payoutInner e account ≠ 0) : account ∈ e.owed ∧ (e.pay account (payoutInner e account)).Valid := by
  have closed := valid.closed decided
  have payout := payoutInner_eq valid.funded closed decided account
  have member : account ∈ e.owed := by
    by_contra absent
    rw [if_neg absent] at payout
    exact payable payout
  rw [if_pos member] at payout
  refine ⟨member, valid.funded.pay _ _, ?_, fun _ => ?_⟩
  · intro reopened
    change (if _ then _ else _) = _ at reopened
    grind
  · rw [payout]
    exact closed.pay valid.funded member

/-- An event can always pay what it says it pays. -/
theorem Valid.payout_le_escrow (valid : e.Valid) (decided : e.phase ≠ .opened) (account : AccountId) :
    payoutInner e account ≤ e.escrow := by
  have closed := valid.closed decided
  rw [payoutInner_eq valid.funded closed decided account]
  split
  next member =>
    have owed : account ∈ (pot valid.funded closed).owed := member
    exact (Pot.payment_bounds owed).2
  next => exact (pot valid.funded closed).held_nonneg

theorem Valid.create (resolver : AccountId) (closesAt : ℤ) : ({ resolver, closesAt } : Event).Valid := by
  refine ⟨⟨?_, ?_, rfl, rfl⟩, fun _ => ⟨rfl, rfl, rfl, rfl⟩, fun decided => absurd rfl decided⟩
  all_goals
    intro account stake found
    cases found

/-- Every action on an event keeps its invariant. -/
theorem Valid.acts {call : Call} {eventId : ℤ} {value : Option ℤ} {final : Event} (valid : e.Valid)
    (acted : Acts call eventId e value final) : final.Valid := by
  cases acted with
  | stake done =>
    obtain ⟨opened, _, positive, chosen, rfl⟩ := stakeAct_ok.mp done
    exact valid.add opened positive _ chosen
  | resolve done =>
    obtain ⟨_, decided, opened, _, rfl⟩ := resolveAct_ok.mp done
    exact valid.record opened decided
  | void done =>
    obtain ⟨opened, _, rfl⟩ := voidAct_ok.mp done
    exact valid.void opened
  | settle done =>
    obtain ⟨decided, _, rfl, payable, rfl⟩ := settleAct_ok.mp done
    exact (valid.pay decided payable).2

end Event

structure EventMarket.Valid (market : EventMarket) : Prop where
  events : ∀ eventId e, market.events.lookup eventId = some e → e.Valid
  ids : ∀ eventId e, market.events.lookup eventId = some e → 0 ≤ eventId ∧ eventId < market.nextId
  next : 0 ≤ market.nextId

/-- The next id is not taken. -/
theorem EventMarket.Valid.fresh {market : EventMarket} (valid : market.Valid) : market.events.lookup market.nextId = none := by
  cases found : market.events.lookup market.nextId with
  | none => rfl
  | some e => exact absurd (valid.ids _ e found).2 (Int.lt_irrefl _)

theorem EventMarket.Valid.step {market : EventMarket} (valid : market.Valid) (call : Call) :
    (machine.step market call).2.Valid := by
  obtain ⟨error, ran⟩ | ⟨resolver, closesAt, nowNs, _, _, ran⟩ | ⟨eventId, e, value, final, found, acted, ran⟩ :=
    step_cases market call
  · rw [ran]
    exact valid
  · rw [ran]
    have next := valid.next
    refine ⟨?_, ?_, Int.add_nonneg next (by omega)⟩
    · intro eventId e found
      rw [EventMarket.create, Ledger.lookup_insert] at found
      split at found
      · cases found
        exact Event.Valid.create resolver closesAt
      · exact valid.events eventId e found
    · intro eventId e found
      rw [EventMarket.create, Ledger.lookup_insert] at found
      change 0 ≤ eventId ∧ eventId < market.nextId + 1
      split at found
      · omega
      · have bound := valid.ids eventId e found
        omega
  · rw [ran]
    refine ⟨?_, ?_, valid.next⟩
    · intro other f present
      rw [Ledger.lookup_insert] at present
      split at present
      · cases present
        exact (valid.events eventId e found).acts acted
      · exact valid.events other f present
    · intro other f present
      rw [Ledger.lookup_insert] at present
      split at present
      next same => exact same ▸ valid.ids eventId e found
      next => exact valid.ids other f present

theorem reachable_valid {market : EventMarket} (reachable : machine.Reachable market) : market.Valid := by
  refine reachable.invariant ⟨?_, ?_, le_refl _⟩ (fun _ call valid => valid.step call)
  all_goals
    intro eventId e found
    cases found

end NearRewards.Market
