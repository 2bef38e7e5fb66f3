import NearRewards.Proofs.Lockstep

/-! The contract's escrow invariant, in its own fixed-width numbers. It is the mirror's
invariant read back through the image of the state. -/

namespace NearRewards.Contract
namespace EventContract

/-- Everyone with a stake on the event. -/
def stakers (e : Event) : Finset AccountId := e.yesStake.keys ∪ e.noStake.keys

/-- Everyone whose claim flag is set. -/
def claimants (e : Event) : Finset AccountId := e.claimed.keys.filter (fun account => e.claimedBy account = true)

def total (e : Event) : ℕ := e.poolYes.toNat + e.poolNo.toNat

/-- What the event owes a winner, before the sweep. -/
def proRataShare (e : Event) (account : AccountId) : ℕ := e.total * (e.winOf account).toNat / e.winPool.toNat

structure EscrowInvariant (e : Event) : Prop where
  poolYes : e.poolYes.toNat = ∑ account ∈ e.yesStake.keys, (e.yesOf account).toNat
  poolNo : e.poolNo.toNat = ∑ account ∈ e.noStake.keys, (e.noOf account).toNat
  opened : e.phase = .opened →
    e.outcome = .unresolved ∧ e.claimants = ∅ ∧ e.unclaimedWinStake.toNat = 0 ∧ e.escrow.toNat = e.total
  refunded : e.phase = .voided ∨ (e.phase = .resolved ∨ e.phase = .settled) ∧ e.winPool.toNat = 0 →
    e.unclaimedWinStake.toNat = 0 ∧
      e.escrow.toNat = ∑ account ∈ e.stakers \ e.claimants, ((e.yesOf account).toNat + (e.noOf account).toNat)
  shared : (e.phase = .resolved ∨ e.phase = .settled) ∧ 0 < e.winPool.toNat →
    (∀ account ∈ e.claimants, 0 < (e.winOf account).toNat) ∧
      e.unclaimedWinStake.toNat = ∑ account ∈ e.stakers \ e.claimants, (e.winOf account).toNat ∧
      (0 < e.unclaimedWinStake.toNat → e.escrow.toNat = e.total - ∑ account ∈ e.claimants, e.proRataShare account) ∧
      (e.escrow.toNat = 0 ↔ e.unclaimedWinStake.toNat = 0) ∧
      e.total * e.unclaimedWinStake.toNat ≤ e.escrow.toNat * e.winPool.toNat
  settled : e.phase = .settled → e.escrow.toNat = 0
  resolved : e.phase = .resolved → e.escrow.toNat = 0 → e.total = 0
  payable : e.phase ≠ .opened → ∀ account payout, e.payout account = .ok payout → ∃ final, e.pay account payout = some final

variable {e : Event}

theorem mem_claimants {account : AccountId} : account ∈ e.claimants ↔ e.claimedBy account = true := by
  unfold claimants
  rw [Finset.mem_filter, Ledger.mem_keys_iff]
  refine ⟨fun member => member.2, fun claimed => ⟨?_, claimed⟩⟩
  unfold claimedBy at claimed
  cases found : e.claimed.lookup account with
  | none => simp [found] at claimed
  | some flag => exact ⟨flag, rfl⟩

theorem keys_amounts (stakes : Ledger AccountId U128) : (amounts stakes).keys = stakes.keys := by
  ext account
  simp only [Ledger.mem_keys_iff, lookup_amounts, Option.map_eq_some_iff]
  constructor
  · rintro ⟨_, stake, found, _⟩
    exact ⟨stake, found⟩
  · rintro ⟨stake, found⟩
    exact ⟨_, stake, found, rfl⟩

theorem mirror_proRata : e.mirror.ProRata ↔ e.phase ≠ .voided ∧ 0 < e.winPool.toNat := by
  have positive : (e.winPool.toNat : ℤ) ≠ 0 ↔ 0 < e.winPool.toNat := by omega
  unfold Market.Event.ProRata
  rw [mirror_phase, mirror_winPool, positive]

namespace Valid

theorem poolYes_eq (valid : e.Valid) : e.poolYes.toNat = ∑ account ∈ e.yesStake.keys, (e.yesOf account).toNat := by
  have total : (e.poolYes.toNat : ℤ) = _ := valid.mirror.funded.poolYes
  have sum : Ledger.total id e.mirror.yesStake = ∑ account ∈ e.yesStake.keys, ((e.yesOf account).toNat : ℤ) := by
    rw [Ledger.total, ← keys_amounts]
    exact Finset.sum_congr rfl (fun account _ => by rw [← Market.Event.yesOf_eq, mirror_yesOf])
  rw [sum] at total
  exact_mod_cast total

theorem poolNo_eq (valid : e.Valid) : e.poolNo.toNat = ∑ account ∈ e.noStake.keys, (e.noOf account).toNat := by
  have total : (e.poolNo.toNat : ℤ) = _ := valid.mirror.funded.poolNo
  have sum : Ledger.total id e.mirror.noStake = ∑ account ∈ e.noStake.keys, ((e.noOf account).toNat : ℤ) := by
    rw [Ledger.total, ← keys_amounts]
    exact Finset.sum_congr rfl (fun account _ => by rw [← Market.Event.noOf_eq, mirror_noOf])
  rw [sum] at total
  exact_mod_cast total

theorem total_toInt : (e.total : ℤ) = e.mirror.staked := Int.natCast_add _ _

/-- Who the event owes, in the refund regime: the stakers that have not claimed. -/
theorem owed_refund (refund : ¬e.mirror.ProRata) : e.mirror.owed = e.stakers \ e.claimants := by
  ext account
  rw [Market.Event.mem_owed, Market.Event.entitled, if_neg refund, mirror_claimedBy, Finset.mem_sdiff, mem_claimants,
    Bool.not_eq_true]
  change _ ∈ (amounts e.yesStake).keys ∪ (amounts e.noStake).keys ∧ _ ↔ _
  rw [keys_amounts, keys_amounts]
  rfl

/-- In the pro-rata regime: the winners that have not claimed, who are the only stakers
with a winning stake. -/
theorem sum_owed (valid : e.Valid) (proRata : e.mirror.ProRata) :
    ∑ account ∈ e.mirror.owed, e.mirror.winOf account = ∑ account ∈ e.stakers \ e.claimants, ((e.winOf account).toNat : ℤ) := by
  have subset : e.mirror.owed ⊆ e.stakers \ e.claimants := by
    intro account member
    rw [Market.Event.mem_owed, Market.Event.entitled, if_pos proRata, mirror_claimedBy] at member
    rw [Finset.mem_sdiff, mem_claimants, Bool.not_eq_true]
    refine ⟨?_, member.2⟩
    unfold Market.Event.winStake at member
    unfold stakers
    rw [Finset.mem_union, ← keys_amounts, ← keys_amounts]
    have side := member.1
    split at side
    · exact Or.inl side
    · exact Or.inr side
  simp only [← mirror_winOf]
  refine Finset.sum_subset subset (fun account present absent => ?_)
  rw [Finset.mem_sdiff, mem_claimants, Bool.not_eq_true] at present
  by_contra winner
  apply absent
  rw [Market.Event.mem_owed, Market.Event.entitled, if_pos proRata, mirror_claimedBy]
  exact ⟨valid.mirror.funded.winOf_ne_zero.mp winner, present.2⟩

/-- The claimants of the pro-rata regime are winners. -/
theorem claimants_eq (closed : e.mirror.Closed) :
    e.claimants = e.mirror.entitled.filter (fun account => ¬e.mirror.claimedBy account = false) := by
  ext account
  rw [mem_claimants, Finset.mem_filter, mirror_claimedBy, Bool.not_eq_false]
  exact ⟨fun claimed => ⟨closed.claimed account claimed, claimed⟩, fun member => member.2⟩

end Valid

namespace Valid
variable (valid : e.Valid)
include valid

private theorem opened_clause (opened : e.phase = .opened) :
    e.outcome = .unresolved ∧ e.claimants = ∅ ∧ e.unclaimedWinStake.toNat = 0 ∧ e.escrow.toNat = e.total := by
  have fresh := valid.mirror.fresh opened
  have unclaimed : (e.unclaimedWinStake.toNat : ℤ) = 0 := fresh.unclaimed
  have nobody : e.claimed = ∅ := fresh.claimed
  refine ⟨fresh.outcome, ?_, Int.ofNat_eq_zero.mp unclaimed, valid.escrow_opened opened⟩
  rw [claimants, nobody]
  rfl

private theorem refunded_clause (decided : e.phase ≠ .opened) (refund : ¬e.mirror.ProRata) :
    e.unclaimedWinStake.toNat = 0 ∧
      e.escrow.toNat = ∑ account ∈ e.stakers \ e.claimants, ((e.yesOf account).toNat + (e.noOf account).toNat) := by
  have closed := valid.mirror.closed decided
  have unclaimed : (e.unclaimedWinStake.toNat : ℤ) = _ := closed.unclaimed
  have escrow : (e.escrow.toNat : ℤ) = _ := closed.escrow_refund valid.mirror.funded refund
  rw [if_neg refund] at unclaimed
  rw [owed_refund refund] at escrow
  simp only [mirror_yesOf, mirror_noOf] at escrow
  exact ⟨Int.ofNat_eq_zero.mp unclaimed, by exact_mod_cast escrow⟩

private theorem shared_clause (decided : e.phase ≠ .opened) (proRata : e.mirror.ProRata) :
    (∀ account ∈ e.claimants, 0 < (e.winOf account).toNat) ∧
      e.unclaimedWinStake.toNat = ∑ account ∈ e.stakers \ e.claimants, (e.winOf account).toNat ∧
      (0 < e.unclaimedWinStake.toNat → e.escrow.toNat = e.total - ∑ account ∈ e.claimants, e.proRataShare account) ∧
      (e.escrow.toNat = 0 ↔ e.unclaimedWinStake.toNat = 0) ∧
      e.total * e.unclaimedWinStake.toNat ≤ e.escrow.toNat * e.winPool.toNat := by
  have funded := valid.mirror.funded
  have closed := valid.mirror.closed decided
  have unclaimed : (e.unclaimedWinStake.toNat : ℤ) = _ := closed.unclaimed
  have nobody : (e.unclaimedWinStake.toNat : ℤ) = 0 ↔ _ := closed.unclaimed_eq_zero funded proRata
  have empty : (e.escrow.toNat : ℤ) = 0 ↔ _ := closed.escrow_eq_zero funded
  have backed := closed.backed funded proRata
  rw [if_pos proRata, valid.sum_owed proRata] at unclaimed
  refine ⟨?_, by exact_mod_cast unclaimed, ?_, ?_, ?_⟩
  · intro account member
    rw [claimants_eq closed, Finset.mem_filter, Market.Event.entitled, if_pos proRata] at member
    have stake := funded.winOf_ne_zero.mpr member.1
    rw [mirror_winOf] at stake
    omega
  · intro more
    have owing : e.mirror.owed ≠ ∅ := fun none_ => by
      have zero := nobody.mpr none_
      omega
    have escrow : (e.escrow.toNat : ℤ) = _ := closed.escrow_shares proRata owing
    have share : ∀ account, ProRata.share e.mirror.staked e.mirror.winPool (e.mirror.winOf account) =
        (e.proRataShare account : ℤ) := by
      intro account
      rw [ProRata.share, mirror_winPool, mirror_winOf, ← total_toInt, proRataShare]
      push_cast
      rfl
    have shares : ∑ account ∈ e.mirror.entitled.filter (fun account => ¬e.mirror.claimedBy account = false),
        ProRata.share e.mirror.staked e.mirror.winPool (e.mirror.winOf account) =
        ((∑ account ∈ e.claimants, e.proRataShare account : ℕ) : ℤ) := by
      rw [← claimants_eq closed, Nat.cast_sum]
      exact Finset.sum_congr rfl (fun account _ => share account)
    rw [shares, ← total_toInt] at escrow
    omega
  · rw [← Int.ofNat_eq_zero, ← Int.ofNat_eq_zero]
    exact empty.trans nobody.symm
  · rw [← total_toInt, mirror_winPool, mirror_escrow, mirror_unclaimedWinStake] at backed
    exact_mod_cast backed

theorem invariant : e.EscrowInvariant := by
  refine ⟨valid.poolYes_eq, valid.poolNo_eq, valid.opened_clause, ?_, ?_, ?_, ?_, ?_⟩
  · intro refunding
    refine valid.refunded_clause ?_ ?_
    · rcases refunding with voided | ⟨resolved | settled, _⟩ <;> simp [*]
    · rw [mirror_proRata]
      rintro ⟨unvoided, winners⟩
      rcases refunding with voided | ⟨_, nobody⟩
      · exact unvoided voided
      · omega
  · rintro ⟨decided, winners⟩
    refine valid.shared_clause ?_ (mirror_proRata.mpr ⟨?_, winners⟩)
    · rcases decided with resolved | settled <;> simp [*]
    · rcases decided with resolved | settled <;> simp [*]
  · intro settled
    have closed := valid.mirror.closed (by simp [settled])
    exact Int.ofNat_eq_zero.mp ((closed.escrow_eq_zero valid.mirror.funded).mpr (closed.settled settled))
  · intro resolved nothing
    have closed := valid.mirror.closed (by simp [resolved])
    have staked := closed.resolved_empty valid.mirror.funded resolved (by simp [nothing])
    rw [← total_toInt] at staked
    exact Int.ofNat_eq_zero.mp staked
  · intro decided account payout computed
    have clear : ¬e.PayoutOverflows account := by
      intro overflows
      rw [payout_overflow valid overflows] at computed
      cases computed
    obtain ⟨value, same, image⟩ := payout_mirror valid clear
    rw [computed] at same
    cases same
    have covered := valid.mirror.payout_le_escrow decided account
    rw [image] at covered
    obtain ⟨final, paid, _⟩ := pay_mirror account (Int.ofNat_le.mp covered)
    exact ⟨final, paid⟩

end Valid

end EventContract

/-- Every event of every reachable state satisfies the escrow invariant. -/
theorem escrow_invariant {state : State} (reachable : machine.Reachable state) {eventId : U64} {e : Event}
    (found : state.events.lookup eventId = some e) : e.EscrowInvariant :=
  ((reachable_valid reachable).event found).invariant

private def partlyPaidRun : List (Env × Call) :=
  [(⟨"creator.testnet", 0, 9⟩, .createEvent "resolver.testnet" 10), (⟨"alice.testnet", 2, 9⟩, .takePosition 0 .yes),
    (⟨"carol.testnet", 1, 9⟩, .takePosition 0 .yes), (⟨"bob.testnet", 2, 9⟩, .takePosition 0 .no),
    (⟨"resolver.testnet", 0, 10⟩, .resolve 0 .yes), (⟨"operator.testnet", 0, 10⟩, .settle 0 "alice.testnet")]

/-- Three of the five staked are paid to one of two winners; the event is not final yet. -/
theorem escrow_invariant_partlyPaid :
    ∃ e, (machine.after machine.init partlyPaidRun).events.lookup 0 = some e ∧ e.phase = .resolved ∧
      e.EscrowInvariant := by
  have held : ((machine.after machine.init partlyPaidRun).events.lookup 0).map EventContract.phase = some .resolved := by
    decide
  obtain ⟨e, found, resolved⟩ := Option.map_eq_some_iff.mp held
  exact ⟨e, found, resolved, escrow_invariant ⟨partlyPaidRun, rfl⟩ found⟩

end NearRewards.Contract
