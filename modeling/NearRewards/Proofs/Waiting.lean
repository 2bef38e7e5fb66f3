import NearRewards.Proofs.Lockstep

/-! Waiting to claim. Whoever else claims in the meantime, an account that has not claimed is
quoted no less than before, and only the dust more. -/

namespace NearRewards.Market.Event

/-- What a closed event is to an account that waits while others claim. -/
structure Waits (account : AccountId) (e later : Event) : Prop where
  decided : later.phase ≠ .opened
  proRata : later.ProRata ↔ e.ProRata
  staked : later.staked = e.staked
  winOf : later.winOf account = e.winOf account
  due : later.due account = e.due account
  dust : later.dust = e.dust
  entitled : later.entitled = e.entitled
  unclaimed : later.unclaimedWinStake ≤ e.unclaimedWinStake
  claimed : later.claimedBy account = e.claimedBy account
  payout : payoutInner e account ≤ payoutInner later account

namespace Waits
variable {account other : AccountId} {e middle later : Event}

theorem refl (decided : e.phase ≠ .opened) : Waits account e e :=
  ⟨decided, Iff.rfl, rfl, rfl, rfl, rfl, rfl, le_refl _, rfl, le_refl _⟩

theorem trans (first : Waits account e middle) (second : Waits account middle later) : Waits account e later where
  decided := second.decided
  proRata := second.proRata.trans first.proRata
  staked := second.staked.trans first.staked
  winOf := second.winOf.trans first.winOf
  due := second.due.trans first.due
  dust := second.dust.trans first.dust
  entitled := second.entitled.trans first.entitled
  unclaimed := second.unclaimed.trans first.unclaimed
  claimed := second.claimed.trans first.claimed
  payout := first.payout.trans second.payout

/-- Another account claims. -/
theorem pay (valid : e.Valid) (decided : e.phase ≠ .opened) (payable : payoutInner e other ≠ 0) (different : account ≠ other) :
    Waits account e (e.pay other (payoutInner e other)) := by
  obtain ⟨member, paid⟩ := valid.pay decided payable
  have closed := valid.closed decided
  have payout := payoutInner_eq valid.funded closed decided other
  rw [if_pos member] at payout
  have still : (e.pay other (payoutInner e other)).phase ≠ .opened := by
    intro reopened
    change (if _ then _ else _) = _ at reopened
    grind
  have same : (e.pay other (payoutInner e other)).claimedBy account = e.claimedBy account := by
    rw [claimedBy, Event.pay, Ledger.lookup_insert, if_neg different]
    rfl
  refine ⟨still, pay_proRata _ _, rfl, rfl, pay_due _ _ _, pay_dust _ _, pay_entitled _ _, ?_, same, ?_⟩
  · have stake := valid.funded.winOf_nonneg other
    have unclaimed : 0 ≤ e.unclaimedWinStake := by
      rw [closed.unclaimed]
      split
      · exact Finset.sum_nonneg fun winner _ => valid.funded.winOf_nonneg winner
      · exact le_refl _
    change (if e.phase = .resolved then
      e.unclaimedWinStake - (if e.winOf other > e.unclaimedWinStake then e.unclaimedWinStake else e.winOf other)
      else e.unclaimedWinStake) ≤ _
    split_ifs <;> omega
  · rw [payoutInner_eq valid.funded closed decided account, payoutInner_eq paid.funded (paid.closed still) still account]
    generalize payoutInner e other = amount at *
    subst payout
    rw [pay_owed, pot_pay valid.funded closed member]
    by_cases owed : account ∈ e.owed
    · rw [if_pos owed, if_pos (Finset.mem_erase.mpr ⟨different, owed⟩)]
      exact Pot.payment_le_pay owed member different
    · rw [if_neg owed, if_neg (fun still => owed (Finset.mem_of_mem_erase still))]

/-- The wait gains no more than the dust. -/
theorem payout_le (waits : Waits account e later) (valid : e.Valid) (validToo : later.Valid) (decided : e.phase ≠ .opened) :
    payoutInner later account ≤ payoutInner e account + e.dust := by
  have closed := valid.closed decided
  have closedToo := validToo.closed waits.decided
  have same : account ∈ later.owed ↔ account ∈ e.owed := by
    rw [mem_owed, mem_owed, waits.entitled, waits.claimed]
  rw [payoutInner_eq valid.funded closed decided account, payoutInner_eq validToo.funded closedToo waits.decided account]
  by_cases owed : account ∈ e.owed
  · have owedToo := same.mpr owed
    have least : (pot valid.funded closed).due account ≤ (pot valid.funded closed).payment account :=
      (Pot.payment_bounds owed).1
    have most : (pot validToo.funded closedToo).payment account ≤
        (pot validToo.funded closedToo).due account + (pot validToo.funded closedToo).slack := Pot.payment_le_slack
    rw [pot_slack validToo.funded closedToo (Finset.ne_empty_of_mem owedToo), waits.dust] at most
    change e.due account ≤ _ at least
    change _ ≤ later.due account + _ at most
    rw [waits.due] at most
    rw [if_pos owed, if_pos owedToo]
    omega
  · rw [if_neg owed, if_neg (fun owedToo => owed (same.mp owedToo)), zero_add]
    exact valid.funded.dust_bounds.1

end Waits
end NearRewards.Market.Event

namespace NearRewards.Contract
open Market.Event (Waits)

section Quotes
variable {state : State} {eventId : U64} {account : AccountId} {e : Event}

/-- The overflow, in the words of the mirror. -/
theorem payoutOverflows_iff : e.PayoutOverflows account ↔
    e.mirror.phase ≠ .opened ∧ e.mirror.claimedBy account = false ∧ e.mirror.ProRata ∧ e.mirror.winOf account ≠ 0 ∧
      2 ^ 128 ≤ e.mirror.staked * e.mirror.winOf account ∧ e.mirror.winOf account < e.mirror.unclaimedWinStake := by
  simp only [Market.Event.ProRata, EventContract.mirror_phase, EventContract.mirror_claimedBy, EventContract.mirror_winPool,
    EventContract.mirror_winOf, EventContract.mirror_staked, EventContract.mirror_unclaimedWinStake, ne_eq, toInt_eq_zero]
  constructor
  · rintro ⟨⟨closed, unclaimed, proRata, winner, exceeds⟩, more⟩
    exact ⟨closed, unclaimed, proRata, winner, by exact_mod_cast exceeds, Int.ofNat_lt.mpr (BitVec.lt_def.mp more)⟩
  · rintro ⟨closed, unclaimed, proRata, winner, exceeds, more⟩
    exact ⟨⟨closed, unclaimed, proRata, winner, by exact_mod_cast exceeds⟩, BitVec.lt_def.mpr (Int.ofNat_lt.mp more)⟩

/-- A wait does not lead into the overflow. -/
theorem clear_of_waits {later : Event} (waits : Waits account e.mirror later.mirror) (decided : e.phase ≠ .opened)
    (clear : ¬e.PayoutOverflows account) : ¬later.PayoutOverflows account := by
  rw [payoutOverflows_iff] at clear ⊢
  rintro ⟨_, unclaimed, proRata, winner, exceeds, more⟩
  rw [waits.claimed] at unclaimed
  rw [waits.winOf] at winner exceeds more
  rw [waits.staked] at exceeds
  exact clear ⟨decided, unclaimed, waits.proRata.mp proRata, winner, exceeds, more.trans_le waits.unclaimed⟩

/-- A settlement pays an account that is owed what the mirror pays it. -/
theorem settleAct_mirror (valid : e.Valid) {effect : Effect U128} (done : settleAct eventId account e = .ok effect) :
    account ∈ e.mirror.owed ∧ (effect.value.toNat : ℤ) = Market.payoutInner e.mirror account ∧
      Market.payoutInner e.mirror account ≠ 0 ∧
      effect.event.mirror = e.mirror.pay account (Market.payoutInner e.mirror account) ∧
      effect.transfers = [⟨account, effect.value⟩] := by
  have tracked := settleAct_tracks valid eventId account
  rw [done] at tracked
  have sent : effect.transfers = [⟨account, effect.value⟩] := by
    obtain ⟨_, _, payout, final, _, _, _, rfl⟩ := settleAct_ok.mp done
    rfl
  generalize theirs : Market.settleAct account e.mirror = answer at tracked
  cases tracked with
  | succeeds clear effect =>
    obtain ⟨decided, _, paid, payable, final⟩ := Market.settleAct_ok.mp theirs
    rw [paid] at payable final
    exact ⟨(valid.mirror.pay decided payable).1, paid, payable, final, sent⟩

/-- An event that is closed is touched by settlements only, and whoever does not claim waits. -/
theorem Acts.waits {env : Env} {call : Call} {effect : Effect Value} (acted : Acts env call eventId e effect) (valid : e.Valid)
    (decided : e.phase ≠ .opened) (idle : call ≠ .settle eventId account) : Waits account e.mirror effect.event.mirror := by
  cases acted with
  | stake done => exact absurd (stakeAct_ok.mp done).1 decided
  | resolve done => exact absurd (resolveAct_ok.mp done).2.2.1 decided
  | void done => exact absurd (voidAct_ok.mp done).1 decided
  | @settle _ other _ effect done =>
    have different : account ≠ other := fun same => idle (same ▸ rfl)
    obtain ⟨_, _, payable, final, _⟩ := settleAct_mirror valid done
    change Waits account e.mirror effect.event.mirror
    rw [final]
    exact .pay valid.mirror decided payable different

/-- The view, as long as the quote does not overflow. -/
theorem quoted_iff (valid : e.Valid) (found : state.events.lookup eventId = some e) {payout : U128} :
    view (payoutOf eventId account) state = .ok payout ↔
      ¬e.PayoutOverflows account ∧ Market.payoutInner e.mirror account = payout.toNat := by
  rw [view_payoutOf, found]
  dsimp only
  by_cases overflows : e.PayoutOverflows account
  · rw [EventContract.payout_overflow valid overflows]
    exact iff_of_false (fun quoted => by cases quoted) (fun both => both.1 overflows)
  · obtain ⟨amount, computed, value⟩ := EventContract.payout_mirror valid overflows
    rw [computed, value]
    constructor
    · intro same
      cases same
      exact ⟨overflows, rfl⟩
    · rintro ⟨_, same⟩
      rw [BitVec.eq_of_toNat_eq (Int.ofNat.inj same)]

theorem waits_run {later : List (Env × Call)} (reachable : machine.Reachable state)
    (found : state.events.lookup eventId = some e) (decided : e.phase ≠ .opened)
    (idle : ∀ entry ∈ machine.trace state later, entry.1.2 = .settle eventId account → entry.2.result.toOption = none) :
    ∃ final, (machine.after state later).events.lookup eventId = some final ∧ Waits account e.mirror final.mirror := by
  induction later generalizing state e with
  | nil => exact ⟨e, found, .refl decided⟩
  | cons input rest ih =>
    have here := idle _ List.mem_cons_self
    have tail := fun entry member => idle entry (List.mem_cons_of_mem _ member)
    have reached := reachable.step input
    have valid := reachable_valid reachable
    obtain ⟨env, call⟩ := input
    rw [Machine.after_cons]
    obtain ⟨abort, ran⟩ | ⟨resolver, closesAt, next, rfl, _, _, _, ran⟩ | ⟨target, held, effect, present, acted, ran⟩ :=
      step_cases state env call
    · rw [ran] at tail reached ⊢
      exact ih reached found decided tail
    · rw [ran] at tail reached ⊢
      have fresh : eventId ≠ state.nextEventId := by
        rintro rfl
        rw [valid.fresh] at found
        cases found
      exact ih reached ((Finmap.lookup_insert_of_ne _ fresh).trans found) decided tail
    · rw [ran] at here tail reached ⊢
      by_cases own : eventId = target
      · subst own
        cases found.symm.trans present
        have idle : call ≠ .settle eventId account := fun same => by cases here same
        have waits := acted.waits (valid.event found) decided idle
        obtain ⟨final, stored, more⟩ := ih reached (Finmap.lookup_insert _) waits.decided tail
        exact ⟨final, stored, waits.trans more⟩
      · exact ih reached ((Finmap.lookup_insert_of_ne _ own).trans found) decided tail

/-- Waiting never hurts. Once an event is closed, what an account is quoted cannot fall while
others call the contract, and cannot rise by more than the rounding of the other winners'
shares; a quote that could be computed still can be. -/
theorem waiting_never_hurts {before later : List (Env × Call)} {payout : U128}
    (found : (machine.after machine.init before).events.lookup eventId = some e) (decided : e.phase ≠ .opened)
    (quoted : view (payoutOf eventId account) (machine.after machine.init before) = .ok payout)
    (idle : ∀ entry ∈ machine.trace (machine.after machine.init before) later,
      entry.1.2 = .settle eventId account → entry.2.result.toOption = none) :
    ∃ grown, view (payoutOf eventId account) (machine.after (machine.after machine.init before) later) = .ok grown ∧
      payout.toNat ≤ grown.toNat ∧ grown.toNat ≤ payout.toNat + (e.mirror.winStake.keys.card - 1) := by
  have reachable : machine.Reachable (machine.after machine.init before) := ⟨before, rfl⟩
  have valid := (reachable_valid reachable).event found
  obtain ⟨clear, value⟩ := (quoted_iff valid found).mp quoted
  obtain ⟨final, stored, waits⟩ := waits_run reachable found decided idle
  have validToo := (reachable_valid (reachable.after later)).event stored
  obtain ⟨grown, -, amount⟩ := EventContract.payout_mirror validToo (clear_of_waits waits decided clear)
  refine ⟨grown, (quoted_iff validToo stored).mpr ⟨clear_of_waits waits decided clear, amount⟩, ?_, ?_⟩
  · have least := waits.payout
    rw [value, amount] at least
    exact Int.ofNat_le.mp least
  · have most := waits.payout_le valid.mirror validToo.mirror decided
    rw [value, amount] at most
    have dust := valid.mirror.funded.dust_bounds
    by_cases proRata : e.mirror.ProRata
    · have rounding := dust.2.1 proRata
      omega
    · have exact_ := dust.2.2 proRata
      omega

/-- Three winners share four: one of them waits while another claims. -/
def sharedRun : List (Env × Call) :=
  [(⟨"creator.near", 0, 0⟩, .createEvent "r.near" 10), (⟨"a.near", 1, 1⟩, .takePosition 0 .yes),
    (⟨"b.near", 1, 1⟩, .takePosition 0 .yes), (⟨"c.near", 1, 1⟩, .takePosition 0 .yes), (⟨"d.near", 1, 1⟩, .takePosition 0 .no),
    (⟨"r.near", 0, 10⟩, .resolve 0 .yes)]

theorem waiting_never_hurts_shared :
    ∃ grown, view (payoutOf 0 "b.near") (machine.after (machine.after machine.init sharedRun)
        [(⟨"d.near", 0, 11⟩, .settle 0 "a.near"), (⟨"d.near", 0, 11⟩, .settle 0 "c.near")]) = .ok grown ∧
      1 ≤ grown.toNat ∧ grown.toNat ≤ 1 + (3 - 1) :=
  waiting_never_hurts (show (machine.after machine.init sharedRun).events.lookup 0 = some _ from rfl) (by decide)
    (show view (payoutOf 0 "b.near") (machine.after machine.init sharedRun) = .ok 1 by decide +kernel) (by decide +kernel)

end Quotes
end NearRewards.Contract
