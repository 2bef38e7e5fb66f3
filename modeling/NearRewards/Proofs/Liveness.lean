import NearRewards.Proofs.Lockstep

/-! Whether a closed event can always be emptied. It can, one claimant after the other, as
long as the share of at most one of them is too large to compute: that one claims last and
sweeps. Two such winners block each other for good. -/

namespace NearRewards.Contract

/-- The account's settlement goes through and pays something. -/
def Paid (state : State) (eventId : U64) (account : AccountId) : Prop :=
  ∃ payout : U128, 0 < payout.toNat ∧ ∀ env, env.attachedDeposit = 0 →
    (machine.step state (env, .settle eventId account)).1.result = .ok (.payout payout)

/-- Some sequence of settlements brings the event's escrow to zero. -/
def Drains (state : State) (eventId : U64) : Prop :=
  ∃ settlements : List (Env × AccountId), ∃ final,
    (machine.after state (settlements.map fun settlement => (settlement.1, .settle eventId settlement.2))).events.lookup
      eventId = some final ∧ final.escrow = 0

section Settling
variable {state : State} {eventId : U64} {e : Event}

/-- Everyone the event owes can be paid, unless their share overflows. -/
theorem settle_owed (valid : state.Valid) (found : state.events.lookup eventId = some e) (decided : e.phase ≠ .opened)
    {account : AccountId} (member : account ∈ e.mirror.owed) (clear : ¬e.PayoutOverflows account) :
    ∃ payout final, 0 < payout.toNat ∧ e.pay account payout = some final ∧ final.phase ≠ .opened ∧
      final.mirror.owed = e.mirror.owed.erase account ∧
      ∀ env, env.attachedDeposit = 0 →
        (machine.step state (env, .settle eventId account)).1.result = .ok (.payout payout) ∧
        (machine.step state (env, .settle eventId account)).2 = { state with events := state.events.insert eventId final } := by
  have whole := valid.event found
  obtain ⟨payout, computed, value⟩ := EventContract.payout_mirror whole clear
  have covered := whole.mirror.payout_le_escrow decided account
  rw [value] at covered
  obtain ⟨final, paid, image⟩ := EventContract.pay_mirror account (Int.ofNat_le.mp covered)
  have closed := whole.mirror.closed decided
  have payment := Market.Event.payoutInner_eq whole.mirror.funded closed decided account
  have positive := Pot.payment_pos (show account ∈ (Market.Event.pot whole.mirror.funded closed).owed from member)
  rw [if_pos member] at payment
  rw [← payment, value] at positive
  have some_ : 0 < payout.toNat := by omega
  refine ⟨payout, final, some_, paid, ?_, by rw [image, Market.Event.pay_owed], fun env undeposited => ?_⟩
  · obtain ⟨unclaimed, rfl⟩ := EventContract.pay_frame paid
    dsimp only
    split
    · exact fun reopened => by cases reopened
    · exact decided
  have acted : settleAct eventId account e = .ok _ := settleAct_ok.mpr
    ⟨decided, (Market.Event.mem_owed.mp member).2, payout, final, computed, BitVec.lt_def.mpr some_, paid, rfl⟩
  change (transact state (env, .settle eventId account)).1.result = _ ∧ (transact state (env, .settle eventId account)).2 = _
  rw [transact_settle, if_neg (not_not.mpr undeposited), conclude, found]
  dsimp only
  rw [acted]
  exact ⟨rfl, rfl⟩

/-- Only an account the event owes is ever paid, and not while its share overflows. -/
theorem settled_owed (valid : e.Valid) (decided : e.phase ≠ .opened) {account : AccountId} {payout : U128}
    (computed : e.payout account = .ok payout) (positive : payout > 0) :
    account ∈ e.mirror.owed ∧ ¬e.PayoutOverflows account := by
  have clear : ¬e.PayoutOverflows account := by
    intro overflows
    rw [EventContract.payout_overflow valid overflows] at computed
    cases computed
  refine ⟨?_, clear⟩
  obtain ⟨value, same, image⟩ := EventContract.payout_mirror valid clear
  rw [computed] at same
  cases same
  have payment := Market.Event.payoutInner_eq valid.mirror.funded (valid.mirror.closed decided) decided account
  by_contra absent
  rw [if_neg absent, image, toInt_eq_zero] at payment
  rw [payment] at positive
  exact absurd positive (by decide)

theorem oversized_proRata {account : AccountId} (oversized : e.Oversized account) : e.mirror.ProRata := by
  refine ⟨oversized.proRata.1, ?_⟩
  rw [EventContract.mirror_winPool, ne_eq, toInt_eq_zero]
  exact oversized.proRata.2

theorem oversized_owed (valid : e.Valid) {account : AccountId} (oversized : e.Oversized account) :
    account ∈ e.mirror.owed := by
  rw [Market.Event.mem_owed, Market.Event.entitled, if_pos (oversized_proRata oversized)]
  refine ⟨valid.mirror.funded.winOf_ne_zero.mp ?_, oversized.unclaimed⟩
  rw [EventContract.mirror_winOf, ne_eq, toInt_eq_zero]
  exact oversized.winner

/-- While an event has an oversized winner, its unclaimed stake is what the owed have won with. -/
private theorem unclaimed_sum (valid : e.Valid) {account : AccountId} (oversized : e.Oversized account) :
    (e.unclaimedWinStake.toNat : ℤ) = ∑ other ∈ e.mirror.owed, e.mirror.winOf other := by
  have unclaimed := (valid.mirror.closed oversized.closed).unclaimed
  rw [if_pos (oversized_proRata oversized)] at unclaimed
  exact unclaimed

/-- The last account owed sweeps, so its share is not computed. -/
theorem last_clear (valid : e.Valid) {account : AccountId} (only : e.mirror.owed = {account}) :
    ¬e.PayoutOverflows account := by
  intro overflows
  have unclaimed := unclaimed_sum valid overflows.toOversized
  have more := BitVec.lt_def.mp overflows.more
  rw [only, Finset.sum_singleton, EventContract.mirror_winOf] at unclaimed
  omega

/-- Two oversized winners block each other: neither is the last one. -/
theorem oversized_blocks (valid : e.Valid) {first second : AccountId} (different : first ≠ second)
    (blocked : e.Oversized first) (other : e.Oversized second) : e.PayoutOverflows first := by
  refine ⟨blocked, BitVec.lt_def.mpr ?_⟩
  have unclaimed := unclaimed_sum valid blocked
  have pair : ({first, second} : Finset AccountId) ⊆ e.mirror.owed := by
    intro account member
    rcases Finset.mem_insert.mp member with rfl | member
    · exact oversized_owed valid blocked
    · exact Finset.mem_singleton.mp member ▸ oversized_owed valid other
  have bound := Finset.sum_le_sum_of_subset_of_nonneg (f := e.mirror.winOf) pair
    (fun account _ _ => valid.mirror.funded.winOf_nonneg account)
  have positive : (e.winOf second).toNat ≠ 0 := by
    intro zero
    exact other.winner (BitVec.eq_of_toNat_eq zero)
  rw [Finset.sum_pair different, ← unclaimed, EventContract.mirror_winOf, EventContract.mirror_winOf] at bound
  omega

/-- Paying one account leaves the others as oversized as they were. -/
theorem oversized_pay {final : Event} {account other : AccountId} {payout : U128}
    (paid : e.pay account payout = some final) (different : other ≠ account) :
    final.Oversized other ↔ e.Oversized other := by
  obtain ⟨unclaimed, rfl⟩ := EventContract.pay_frame paid
  have flag : EventContract.claimedBy { e with
      claimed := e.claimed.insert account true, unclaimedWinStake := unclaimed, escrow := e.escrow - payout
      phase := if e.Finalizes payout then .settled else e.phase } other = e.claimedBy other := by
    rw [EventContract.claimedBy, Ledger.lookup_insert, if_neg different]
    rfl
  by_cases final : e.Finalizes payout
  · have resolved : e.phase = .resolved := final.2
    constructor
    · rintro ⟨_, unclaimed, proRata, winner, exceeds⟩
      exact ⟨by simp [resolved], flag ▸ unclaimed, ⟨by simp [resolved], proRata.2⟩, winner, exceeds⟩
    · rintro ⟨_, unclaimed, proRata, winner, exceeds⟩
      exact ⟨by simp [final], flag.trans unclaimed, ⟨by simp [final], proRata.2⟩, winner, exceeds⟩
  · have same : (if e.Finalizes payout then .settled else e.phase) = e.phase := if_neg final
    constructor
    · rintro ⟨closed, unclaimed, proRata, winner, exceeds⟩
      dsimp only at closed proRata
      rw [same] at closed proRata
      exact ⟨closed, flag ▸ unclaimed, proRata, winner, exceeds⟩
    · rintro ⟨closed, unclaimed, proRata, winner, exceeds⟩
      refine ⟨?_, flag.trans unclaimed, ⟨?_, proRata.2⟩, winner, exceeds⟩
      · dsimp only
        rw [same]
        exact closed
      · dsimp only
        rw [same]
        exact proRata.1

/-- Settling everyone, with no oversized winner before the last, empties the event. -/
theorem drain {light : List AccountId} {last : AccountId} (valid : state.Valid)
    (found : state.events.lookup eventId = some e) (decided : e.phase ≠ .opened) (distinct : (light ++ [last]).Nodup)
    (complete : ∀ account, account ∈ light ++ [last] ↔ account ∈ e.mirror.owed)
    (clear : ∀ account ∈ light, ¬e.Oversized account) : Drains state eventId := by
  let env : Env := ⟨last, 0, 0⟩
  induction light generalizing state e with
  | nil =>
    have only : e.mirror.owed = {last} := by
      ext account
      rw [← complete account, List.nil_append, List.mem_singleton, Finset.mem_singleton]
    have member : last ∈ e.mirror.owed := by simp [only]
    obtain ⟨payout, final, _, paid, closed, owed, ran⟩ :=
      settle_owed valid found decided member (last_clear (valid.event found) only)
    have next := valid.step (env, .settle eventId last)
    rw [(ran env rfl).2] at next
    have stored : (state.events.insert eventId final).lookup eventId = some final := by
      rw [Ledger.lookup_insert, if_pos rfl]
    refine ⟨[(env, last)], final, ?_, ?_⟩
    · change (machine.step state (env, .settle eventId last)).2.events.lookup eventId = some final
      rw [(ran env rfl).2]
      exact stored
    · rw [only, Finset.erase_singleton] at owed
      have image := (next.event stored).mirror
      exact toInt_eq_zero.mp (((image.closed closed).escrow_eq_zero image.funded).mpr owed)
  | cons account light ih =>
    have member : account ∈ e.mirror.owed := (complete account).mp (by simp)
    obtain ⟨fresh, rest⟩ := List.nodup_cons.mp distinct
    obtain ⟨payout, final, _, paid, closed, owed, ran⟩ :=
      settle_owed valid found decided member (fun overflows => clear account (by simp) overflows.toOversized)
    have next := valid.step (env, .settle eventId account)
    rw [(ran env rfl).2] at next
    have stored : (state.events.insert eventId final).lookup eventId = some final := by
      rw [Ledger.lookup_insert, if_pos rfl]
    have remaining : ∀ other, other ∈ light ++ [last] ↔ other ∈ final.mirror.owed := by
      intro other
      rw [owed, Finset.mem_erase, ← complete other, List.cons_append, List.mem_cons]
      constructor
      · exact fun present => ⟨fun same => fresh (same ▸ present), Or.inr present⟩
      · rintro ⟨different, same | present⟩
        · exact absurd same different
        · exact present
    have lighter : ∀ other ∈ light, ¬final.Oversized other := by
      intro other present oversized
      have different : other ≠ account := fun same => fresh (same ▸ List.mem_append_left _ present)
      exact clear other (List.mem_cons_of_mem _ present) ((oversized_pay paid different).mp oversized)
    obtain ⟨settlements, emptied, present, escrow⟩ := ih next stored closed rest remaining lighter
    refine ⟨(env, account) :: settlements, emptied, ?_, escrow⟩
    rw [List.map_cons, Machine.after_cons, (ran env rfl).2]
    exact present

/-- With at most one oversized winner, everyone else can be listed before that one. -/
theorem drain_order (valid : e.Valid) (owing : e.mirror.owed ≠ ∅)
    (clear : ¬∃ first second, first ≠ second ∧ e.Oversized first ∧ e.Oversized second) :
    ∃ light last, (light ++ [last]).Nodup ∧ (∀ account, account ∈ light ++ [last] ↔ account ∈ e.mirror.owed) ∧
      ∀ account ∈ light, ¬e.Oversized account := by
  obtain ⟨last, member, light⟩ : ∃ last ∈ e.mirror.owed, ∀ account ∈ e.mirror.owed.erase last, ¬e.Oversized account := by
    by_cases some_ : ∃ account, e.Oversized account
    · obtain ⟨last, oversized⟩ := some_
      refine ⟨last, oversized_owed valid oversized, fun account present other => ?_⟩
      exact clear ⟨account, last, Finset.ne_of_mem_erase present, other, oversized⟩
    · obtain ⟨last, member⟩ := Finset.nonempty_iff_ne_empty.mpr owing
      exact ⟨last, member, fun account _ oversized => some_ ⟨account, oversized⟩⟩
  refine ⟨(e.mirror.owed.erase last).toList, last, ?_, fun account => ?_, ?_⟩
  · rw [List.nodup_append]
    refine ⟨Finset.nodup_toList _, List.nodup_singleton _, ?_⟩
    intro account present other same
    rw [Finset.mem_toList] at present
    exact fun equal => Finset.ne_of_mem_erase present (equal.trans (List.mem_singleton.mp same))
  · rw [List.mem_append, Finset.mem_toList, Finset.mem_erase, List.mem_singleton]
    by_cases same : account = last
    · simp [same, member]
    · simp [same]
  · exact fun account present => light account (Finset.mem_toList.mp present)

/-- The first in such an order can be paid at once. -/
theorem first_clear {light : List AccountId} {last : AccountId} (valid : e.Valid)
    (complete : ∀ account, account ∈ light ++ [last] ↔ account ∈ e.mirror.owed)
    (clear : ∀ account ∈ light, ¬e.Oversized account) : ∃ account ∈ e.mirror.owed, ¬e.PayoutOverflows account := by
  cases light with
  | nil =>
    have only : e.mirror.owed = {last} := by
      ext account
      rw [← complete account, List.nil_append, List.mem_singleton, Finset.mem_singleton]
    exact ⟨last, by simp [only], last_clear valid only⟩
  | cons account light =>
    have member : account ∈ e.mirror.owed := (complete account).mp (by simp)
    exact ⟨account, member, fun overflows => clear account (by simp) overflows.toOversized⟩

/-- Once two oversized winners are left, no call changes that. -/
theorem blocked_step (valid : state.Valid) (found : state.events.lookup eventId = some e) {first second : AccountId}
    (different : first ≠ second) (blocked : e.Oversized first) (other : e.Oversized second) (input : Env × Call) :
    ∃ final, (machine.step state input).2.events.lookup eventId = some final ∧ final.Oversized first ∧
      final.Oversized second := by
  obtain ⟨env, call⟩ := input
  obtain ⟨abort, ran⟩ | ⟨resolver, closesAt, next, _, _, _, _, ran⟩ | ⟨target, before, effect, present, acted, ran⟩ :=
    step_cases state env call
  · rw [ran]
    exact ⟨e, found, blocked, other⟩
  · have earlier : eventId ≠ state.nextEventId := by
      rintro rfl
      exact absurd (valid.id_lt found) (lt_irrefl _)
    rw [ran, Settlemint.create, Ledger.lookup_insert, if_neg earlier]
    exact ⟨e, found, blocked, other⟩
  · rw [ran, Ledger.lookup_insert]
    by_cases same : eventId = target
    · rw [if_pos same]
      subst same
      obtain rfl := Option.some.inj (found.symm.trans present)
      cases acted with
      | stake done => exact absurd (stakeAct_ok.mp done).1 blocked.closed
      | resolve done => exact absurd (resolveAct_ok.mp done).2.2.1 blocked.closed
      | void done => exact absurd (voidAct_ok.mp done).1 blocked.closed
      | @settle _ account _ _ done =>
        obtain ⟨decided, _, payout, final, computed, positive, paid, rfl⟩ := settleAct_ok.mp done
        have clear := (settled_owed (valid.event found) decided computed positive).2
        have notFirst : first ≠ account := by
          rintro rfl
          exact clear (oversized_blocks (valid.event found) different blocked other)
        have notSecond : second ≠ account := by
          rintro rfl
          exact clear (oversized_blocks (valid.event found) different.symm other blocked)
        exact ⟨final, rfl, (oversized_pay paid notFirst).mpr blocked, (oversized_pay paid notSecond).mpr other⟩
    · rw [if_neg same]
      exact ⟨e, found, blocked, other⟩

/-- Whatever is called afterwards, an event with two oversized winners keeps its escrow. -/
theorem locked (valid : state.Valid) (found : state.events.lookup eventId = some e) {first second : AccountId}
    (different : first ≠ second) (blocked : e.Oversized first) (other : e.Oversized second) (inputs : List (Env × Call)) :
    ∃ final, (machine.after state inputs).events.lookup eventId = some final ∧ final.escrow ≠ 0 := by
  induction inputs generalizing state e with
  | nil =>
    refine ⟨e, found, fun empty => ?_⟩
    have whole := valid.event found
    have owed := ((whole.mirror.closed blocked.closed).escrow_eq_zero whole.mirror.funded).mp (by simp [empty])
    exact Finset.ne_empty_of_mem (oversized_owed whole blocked) owed
  | cons input rest ih =>
    obtain ⟨final, present, first, second⟩ := blocked_step valid found different blocked other input
    exact ih (valid.step input) present first second

theorem paid_owed (valid : state.Valid) (found : state.events.lookup eventId = some e) (decided : e.phase ≠ .opened)
    {account : AccountId} (paid : Paid state eventId account) :
    account ∈ e.mirror.owed ∧ ¬e.PayoutOverflows account := by
  obtain ⟨payout, _, paid⟩ := paid
  have result := paid ⟨account, 0, 0⟩ rfl
  obtain ⟨abort, ran⟩ | ⟨_, _, _, impossible, _⟩ | ⟨_, before, effect, present, acted, _⟩ :=
    step_cases state ⟨account, 0, 0⟩ (.settle eventId account)
  · rw [ran] at result
    cases result
  · cases impossible
  · cases acted with
    | settle done =>
      obtain rfl := Option.some.inj (found.symm.trans present)
      obtain ⟨_, _, _, _, computed, positive, _, _⟩ := settleAct_ok.mp done
      exact settled_owed (valid.event found) decided computed positive

end Settling

/-- A closed event that holds something pays someone and can be emptied exactly when no two
of the winners that have not claimed are oversized. -/
theorem drains_iff {state : State} (reachable : machine.Reachable state) {eventId : U64} {e : Event}
    (found : state.events.lookup eventId = some e) (closed : e.phase = .resolved ∨ e.phase = .voided)
    (funded : 0 < e.escrow.toNat) :
    ((∃ account, Paid state eventId account) ∧ Drains state eventId) ↔
      ¬∃ first second, first ≠ second ∧ e.Oversized first ∧ e.Oversized second := by
  have valid := reachable_valid reachable
  have decided : e.phase ≠ .opened := by
    rcases closed with resolved | voided <;> simp [*]
  constructor
  · rintro ⟨_, settlements, final, present, empty⟩ ⟨first, second, different, blocked, other⟩
    obtain ⟨kept, there, held⟩ := locked valid found different blocked other
      (settlements.map fun settlement => (settlement.1, .settle eventId settlement.2))
    obtain rfl := Option.some.inj (present.symm.trans there)
    exact held empty
  · intro clear
    have whole := valid.event found
    have owing : e.mirror.owed ≠ ∅ := by
      intro none_
      have empty := ((whole.mirror.closed decided).escrow_eq_zero whole.mirror.funded).mpr none_
      change (e.escrow.toNat : ℤ) = 0 at empty
      omega
    -- the one oversized winner, if there is one, claims last
    obtain ⟨light, last, distinct, complete, free⟩ := drain_order whole owing clear
    refine ⟨?_, drain valid found decided distinct complete free⟩
    obtain ⟨account, owed, payable⟩ := first_clear whole complete free
    obtain ⟨payout, _, positive, _, _, _, ran⟩ := settle_owed valid found decided owed payable
    exact ⟨account, payout, positive, fun env undeposited => (ran env undeposited).1⟩

private def twoYoctoRun : List (Env × Call) :=
  [(⟨"creator.testnet", 0, 9⟩, .createEvent "resolver.testnet" 10), (⟨"alice.testnet", 2, 9⟩, .takePosition 0 .yes),
    (⟨"carol.testnet", 1, 9⟩, .takePosition 0 .yes), (⟨"resolver.testnet", 0, 10⟩, .resolve 0 .yes)]

/-- With stakes of a few yocto nothing is oversized, and the event can be emptied. -/
theorem drains_iff_twoYocto :
    (∃ account, Paid (machine.after machine.init twoYoctoRun) 0 account) ∧
      Drains (machine.after machine.init twoYoctoRun) 0 := by
  have facts : ((machine.after machine.init twoYoctoRun).events.lookup 0).map (fun e => (e.phase, e.outcome, e.escrow, e.poolYes,
      e.poolNo)) = some (.resolved, .yes, 3, 3, 0) := by
    decide +kernel
  obtain ⟨e, found, facts⟩ := Option.map_eq_some_iff.mp facts
  simp only [Prod.mk.injEq] at facts
  obtain ⟨resolved, yes, escrow, poolYes, poolNo⟩ := facts
  have reachable : machine.Reachable (machine.after machine.init twoYoctoRun) := ⟨twoYoctoRun, rfl⟩
  refine (drains_iff reachable found (Or.inl resolved) (by rw [escrow]; decide)).mpr ?_
  rintro ⟨account, _, _, oversized, _⟩
  have stake := ((reachable_valid reachable).event found).yesOf_le account
  have exceeds := oversized.exceeds
  rw [poolYes] at stake
  rw [poolYes, poolNo, EventContract.winOf, if_pos yes] at exceeds
  change _ ≤ 3 at stake
  change 2 ^ 128 ≤ 3 * _ at exceeds
  omega

private def twoNearRun : List (Env × Call) :=
  [(⟨"creator.testnet", 0, 9⟩, .createEvent "resolver.testnet" 10),
    (⟨"alice.testnet", 1000000000000000000000000, 9⟩, .takePosition 0 .yes),
    (⟨"carol.testnet", 1000000000000000000000000, 9⟩, .takePosition 0 .yes),
    (⟨"resolver.testnet", 0, 10⟩, .resolve 0 .yes)]

/-- Two winners with one NEAR each: nobody can be paid. -/
theorem two_winners_locked :
    ¬∀ state, machine.Reachable state → ∀ eventId e, state.events.lookup eventId = some e →
      e.phase = .resolved ∨ e.phase = .voided → 0 < e.escrow.toNat → ∃ account, Paid state eventId account := by
  intro everyone
  have facts : ((machine.after machine.init twoNearRun).events.lookup 0).map (fun e => (e.phase, e.escrow, e.mirror.owed,
      decide (e.Oversized "alice.testnet" ∧ e.Oversized "carol.testnet"))) =
      some (.resolved, 2000000000000000000000000, {"alice.testnet", "carol.testnet"}, true) := by
    decide +kernel
  obtain ⟨e, found, facts⟩ := Option.map_eq_some_iff.mp facts
  simp only [Prod.mk.injEq, decide_eq_true_eq] at facts
  obtain ⟨resolved, escrow, owed, alice, carol⟩ := facts
  have reachable : machine.Reachable (machine.after machine.init twoNearRun) := ⟨twoNearRun, rfl⟩
  have valid := reachable_valid reachable
  obtain ⟨account, paid⟩ := everyone _ reachable 0 e found (Or.inl resolved) (by rw [escrow]; decide)
  obtain ⟨member, clear⟩ := paid_owed valid found alice.closed paid
  rw [owed, Finset.mem_insert, Finset.mem_singleton] at member
  rcases member with rfl | rfl
  · exact clear (oversized_blocks (valid.event found) (by decide) alice carol)
  · exact clear (oversized_blocks (valid.event found) (by decide) carol alice)

end NearRewards.Contract
