import NearRewards.Proofs.MarketInvariant

/-! Settling a closed market event: whatever the order of the claims, everyone is paid and
nothing is left over. The payments are those of the pot the event holds. -/

namespace NearRewards.Market

/-- What one answered call adds to the deposits on an event. -/
def depositOn (eventId : ℤ) : Call × Answer → ℤ
  | (.takePosition id _ _ amount _, .ok _) => if id = eventId then amount else 0
  | _ => 0

/-- What one answered call has paid out for an event. -/
def payoutOn (eventId : ℤ) : Call × Answer → ℤ
  | (.settle id _, .ok (some payout)) => if id = eventId then payout else 0
  | _ => 0

def deposited (history : List (Call × Answer)) (eventId : ℤ) : ℤ := (history.map (depositOn eventId)).sum

def paidOut (history : List (Call × Answer)) (eventId : ℤ) : ℤ := (history.map (payoutOn eventId)).sum

theorem Acts.target {call : Call} {eventId : ℤ} {e final : Event} {value : Option ℤ}
    (acted : Acts call eventId e value final) (other : ℤ) (different : other ≠ eventId) :
    depositOn other (call, .ok value) = 0 ∧ payoutOn other (call, .ok value) = 0 := by
  cases acted <;> simp [depositOn, payoutOn, different.symm]

/-- An action moves the stakes and the escrow by what it takes in and pays out. -/
theorem Acts.accounts {call : Call} {eventId : ℤ} {e final : Event} {value : Option ℤ}
    (acted : Acts call eventId e value final) :
    final.staked = e.staked + depositOn eventId (call, .ok value) ∧
      final.escrow = e.escrow + depositOn eventId (call, .ok value) - payoutOn eventId (call, .ok value) := by
  cases acted with
  | @stake eventId account side amount nowNs _ _ done =>
    obtain ⟨_, _, _, chosen, rfl⟩ := stakeAct_ok.mp done
    cases side with
    | unresolved => exact absurd rfl chosen
    | yes | no => simp [depositOn, payoutOn, Event.add, Event.staked]; omega
  | resolve done =>
    obtain ⟨_, _, _, _, rfl⟩ := resolveAct_ok.mp done
    simp [depositOn, payoutOn, Event.record, Event.staked]
  | void done =>
    obtain ⟨_, _, rfl⟩ := voidAct_ok.mp done
    simp [depositOn, payoutOn, Event.staked]
  | settle done =>
    obtain ⟨_, _, _, _, rfl⟩ := settleAct_ok.mp done
    simp [depositOn, payoutOn, Event.pay, Event.staked]

/-- The books of a run: an event's stakes are the deposits made on it, and what it has paid
out is what its escrow lacks of them. -/
structure Booked (history : List (Call × Answer)) (market : EventMarket) : Prop where
  valid : market.Valid
  absent : ∀ eventId, market.events.lookup eventId = none → deposited history eventId = 0 ∧ paidOut history eventId = 0
  present : ∀ eventId e, market.events.lookup eventId = some e →
    deposited history eventId = e.staked ∧ paidOut history eventId + e.escrow = e.staked

theorem deposited_concat (history : List (Call × Answer)) (answered : Call × Answer) (eventId : ℤ) :
    deposited (history ++ [answered]) eventId = deposited history eventId + depositOn eventId answered := by
  simp [deposited]

theorem paidOut_concat (history : List (Call × Answer)) (answered : Call × Answer) (eventId : ℤ) :
    paidOut (history ++ [answered]) eventId = paidOut history eventId + payoutOn eventId answered := by
  simp [paidOut]

/-- A call that adds nothing for an event leaves its books as they were. -/
theorem booked_skip (history : List (Call × Answer)) {answered : Call × Answer} {eventId : ℤ}
    (nothing : depositOn eventId answered = 0 ∧ payoutOn eventId answered = 0) :
    deposited (history ++ [answered]) eventId = deposited history eventId ∧
      paidOut (history ++ [answered]) eventId = paidOut history eventId := by
  rw [deposited_concat, paidOut_concat, nothing.1, nothing.2]
  exact ⟨Int.add_zero _, Int.add_zero _⟩

namespace Booked
variable {history : List (Call × Answer)} {market : EventMarket}

theorem refused (books : Booked history market) (call : Call) (error : SettlementError) :
    Booked (history ++ [(call, .error error)]) market := by
  have nothing : ∀ eventId, depositOn eventId (call, .error error) = 0 ∧ payoutOn eventId (call, .error error) = 0 := by
    intro eventId
    cases call <;> exact ⟨rfl, rfl⟩
  refine ⟨books.valid, fun eventId missing => ?_, fun eventId e found => ?_⟩
  · obtain ⟨deposits, payouts⟩ := booked_skip history (nothing eventId)
    rw [deposits, payouts]
    exact books.absent eventId missing
  · obtain ⟨deposits, payouts⟩ := booked_skip history (nothing eventId)
    rw [deposits, payouts]
    exact books.present eventId e found

theorem create (books : Booked history market) (resolver : AccountId) (closesAt nowNs : ℤ) (value : Option ℤ)
    (valid : (market.create resolver closesAt).Valid) :
    Booked (history ++ [(.createEvent resolver closesAt nowNs, .ok value)]) (market.create resolver closesAt) := by
  have nothing : ∀ eventId, depositOn eventId (.createEvent resolver closesAt nowNs, .ok value) = 0 ∧
      payoutOn eventId (.createEvent resolver closesAt nowNs, .ok value) = 0 := fun _ => ⟨rfl, rfl⟩
  refine ⟨valid, fun eventId missing => ?_, fun eventId e found => ?_⟩
  · rw [EventMarket.create, Ledger.lookup_insert] at missing
    obtain ⟨deposits, payouts⟩ := booked_skip history (nothing eventId)
    rw [deposits, payouts]
    split at missing
    next => cases missing
    next => exact books.absent eventId missing
  · rw [EventMarket.create, Ledger.lookup_insert] at found
    obtain ⟨deposits, payouts⟩ := booked_skip history (nothing eventId)
    rw [deposits, payouts]
    split at found
    next same =>
      cases found
      subst same
      have nothing := books.absent market.nextId books.valid.fresh
      simpa [Event.staked] using nothing
    next => exact books.present eventId e found

theorem act (books : Booked history market) {call : Call} {target : ℤ} {e final : Event} {value : Option ℤ}
    (found : market.events.lookup target = some e) (acted : Acts call target e value final)
    (valid : ({ market with events := market.events.insert target final } : EventMarket).Valid) :
    Booked (history ++ [(call, .ok value)]) { market with events := market.events.insert target final } := by
  refine ⟨valid, fun eventId missing => ?_, fun eventId f present => ?_⟩
  · rw [Ledger.lookup_insert] at missing
    split at missing
    next => cases missing
    next different =>
      obtain ⟨deposits, payouts⟩ := booked_skip history (acted.target eventId different)
      rw [deposits, payouts]
      exact books.absent eventId missing
  · rw [Ledger.lookup_insert] at present
    split at present
    next same =>
      subst same
      cases present
      obtain ⟨deposited, paid⟩ := books.present eventId e found
      obtain ⟨stakes, escrow⟩ := acted.accounts
      rw [deposited_concat, paidOut_concat]
      exact ⟨by omega, by omega⟩
    next different =>
      obtain ⟨deposits, payouts⟩ := booked_skip history (acted.target eventId different)
      rw [deposits, payouts]
      exact books.present eventId f present

theorem step (books : Booked history market) (call : Call) :
    Booked (history ++ [(call, (machine.step market call).1)]) (machine.step market call).2 := by
  have valid := books.valid.step call
  obtain ⟨error, ran⟩ | ⟨resolver, closesAt, nowNs, rfl, _, ran⟩ | ⟨target, e, value, final, found, acted, ran⟩ :=
    step_cases market call
  · rw [ran]
    exact books.refused call error
  · rw [ran] at valid ⊢
    exact books.create resolver closesAt nowNs _ valid
  · rw [ran] at valid ⊢
    exact books.act found acted valid

end Booked

theorem booked (calls : List Call) :
    Booked (machine.trace machine.init calls) (machine.after machine.init calls) :=
  machine.history_invariant (P := Booked)
    ⟨reachable_valid Machine.Reachable.init, fun _ _ => ⟨rfl, rfl⟩, fun _ _ found => by cases found⟩
    (fun _ _ call books => books.step call) calls

section Settling
variable {market : EventMarket} {eventId : ℤ} {e : Event}

/-- Settling an account that is owed never raises, and pays the pot the event holds. -/
theorem settle_owed (funded : e.Funded) (closed : e.Closed) (decided : e.phase ≠ .opened)
    (found : market.events.lookup eventId = some e) {account : AccountId} (member : account ∈ e.owed) :
    machine.step market (.settle eventId account) =
      (.ok (some ((Event.pot funded closed).payment account)),
        { market with events := market.events.insert eventId (e.pay account ((Event.pot funded closed).payment account)) }) := by
  have payout := Event.payoutInner_eq funded closed decided account
  rw [if_pos member] at payout
  have owed : account ∈ (Event.pot funded closed).owed := member
  have positive := Pot.payment_pos owed
  have acted := settleAct_ok.mpr ⟨decided, (Event.mem_owed.mp member).2, rfl, by omega, rfl⟩
  simp only [machine, Call.execute, EStateM.map_apply, settle_eq, onEvent, found, acted]
  rw [payout]

theorem pay_phase (funded : e.Funded) (closed : e.Closed) {account : AccountId} (member : account ∈ e.owed) :
    (e.pay account ((Event.pot funded closed).payment account)).phase =
      if e.phase = .resolved ∧ e.owed = {account} then .settled else e.phase := by
  have owed : account ∈ (Event.pot funded closed).owed := member
  have left : e.escrow - (Event.pot funded closed).payment account = 0 ↔ e.owed = {account} := by
    change (Event.pot funded closed).held - _ = 0 ↔ _
    rw [← Pot.pay_held owed, Pot.held_eq_zero, Pot.pay_owed owed]
    change e.owed.erase account = ∅ ↔ _
    rw [Finset.erase_eq_empty_iff]
    exact ⟨fun last => last.resolve_left (Finset.ne_empty_of_mem member), Or.inr⟩
  change (if _ then _ else _) = _
  simp only [left, and_comm]

/-- Settling everyone who is owed, in any order, makes the payments of the pot and leaves
nothing in escrow. -/
theorem settle_everyone (order : List AccountId) (funded : e.Funded) (closed : e.Closed) (decided : e.phase ≠ .opened)
    (found : market.events.lookup eventId = some e) (ordered : (Event.pot funded closed).Order order) :
    machine.answers market (order.map (.settle eventId)) =
        ((Event.pot funded closed).payments order).map (fun payout => .ok (some payout)) ∧
      ∃ final, (machine.after market (order.map (.settle eventId))).events.lookup eventId = some final ∧
        final.escrow = 0 ∧ final.phase = if e.phase = .resolved ∧ order ≠ [] then .settled else e.phase := by
  induction order generalizing market e with
  | nil =>
    have held : e.escrow = 0 := by
      have paid := ordered.payments_sum
      exact paid.symm
    exact ⟨rfl, e, found, held, by simp⟩
  | cons account rest ih =>
    have member : account ∈ e.owed := ordered.owed
    have ran := settle_owed funded closed decided found member
    have phase := pay_phase funded closed member
    set paid := e.pay account ((Event.pot funded closed).payment account)
    have paidPot := Event.pot_pay funded closed member
    have still : paid.phase ≠ .opened := by
      rw [phase]
      split
      · exact fun reopened => by cases reopened
      · exact decided
    have stored : ({ market with events := market.events.insert eventId paid } : EventMarket).events.lookup eventId =
        some paid := by
      rw [Ledger.lookup_insert, if_pos rfl]
    have tail := ordered.tail
    rw [← paidPot] at tail
    obtain ⟨answers, final, present, escrow, ended⟩ :=
      ih (funded.pay account _) (closed.pay funded member) still stored tail
    rw [paidPot] at answers
    simp only [List.map_cons, Machine.answers_cons, Machine.after_cons, ran, Pot.payments]
    refine ⟨congrArg _ answers, final, present, escrow, ?_⟩
    rw [ended, phase]
    by_cases only : rest = []
    · subst only
      have last : e.owed = {account} := ordered.only
      simp [last]
    · have more : e.owed ≠ {account} := ordered.more only
      simp [more, only]

end Settling

section Paying
variable {e : Event} (funded : e.Funded) (closed : e.Closed)
include funded

/-- Pro rata, everyone but the last gets the rounded share, the last one the share and at
most the dust. -/
theorem payments_shares (proRata : e.ProRata) {first : List AccountId} {last : AccountId}
    (ordered : (Event.pot funded closed).Order (first ++ [last])) :
    let share := fun account => (e.staked * e.winOf account).fdiv e.winPool
    ∃ sweep, (Event.pot funded closed).payments (first ++ [last]) = first.map share ++ [sweep] ∧
      share last ≤ sweep ∧ sweep ≤ share last + (e.winStake.keys.card - 1) := by
  intro share
  have due : ∀ account, e.due account = share account := Event.due_share funded proRata
  have surplus := (Event.pot funded closed).slack_nonneg
  have owed : last ∈ e.owed := (ordered.complete last).mp (by simp)
  have dust := Event.pot_slack funded closed (Finset.ne_empty_of_mem owed)
  have bound := funded.dust_bounds.2.1 proRata
  refine ⟨e.due last + (Event.pot funded closed).slack, ?_, ?_, ?_⟩
  · rw [ordered.payments_eq]
    congr 1
    exact List.map_congr_left (fun account _ => due account)
  · rw [due last]
    omega
  · rw [due last]
    omega

/-- Refunds are exact, the last one included. -/
theorem payments_refund (refund : ¬e.ProRata) {order : List AccountId} (ordered : (Event.pot funded closed).Order order) :
    (Event.pot funded closed).payments order = order.map (fun account => e.yesOf account + e.noOf account) := by
  rcases List.eq_nil_or_concat order with rfl | ⟨first, last, rfl⟩
  · rfl
  · rw [List.concat_eq_append] at ordered ⊢
    have owed : last ∈ e.owed := (ordered.complete last).mp (by simp)
    have dust := Event.pot_slack funded closed (Finset.ne_empty_of_mem owed)
    have due : ∀ account, (Event.pot funded closed).due account = e.yesOf account + e.noOf account :=
      fun account => if_neg refund
    rw [ordered.payments_eq, dust, funded.dust_bounds.2.2 refund, List.map_append]
    simp [due]

/-- Nobody is paid less than the due. -/
theorem due_le_payments {order : List AccountId} (ordered : (Event.pot funded closed).Order order) :
    List.Forall₂ (fun account payout => e.due account ≤ payout) order ((Event.pot funded closed).payments order) := by
  rcases List.eq_nil_or_concat order with rfl | ⟨first, last, rfl⟩
  · exact .nil
  · rw [List.concat_eq_append] at ordered ⊢
    rw [ordered.payments_eq]
    have surplus := (Event.pot funded closed).slack_nonneg
    refine List.rel_append ?_ (.cons ?_ .nil)
    · rw [List.forall₂_map_right_iff]
      exact List.forall₂_same.mpr (fun _ _ => le_refl _)
    · change e.due last ≤ e.due last + _
      omega

end Paying

/-- Settling the unclaimed entitled accounts of a closed event, in any order: nothing
raises, every winner but the last is paid the rounded share and the last one the share and
at most the dust, refunds are exact, and the event's deposits are paid out in full. -/
theorem settlement_complete (calls : List Call) (eventId : ℤ) (e : Event)
    (found : (machine.after machine.init calls).events.lookup eventId = some e)
    (closed : e.phase = .resolved ∨ e.phase = .voided) (order : List AccountId) (distinct : order.Nodup)
    (complete : ∀ account, account ∈ order ↔ account ∈ e.entitled ∧ e.claimedBy account = false) :
    let market := machine.after machine.init calls
    let settlements := order.map (Call.settle eventId)
    let share := fun account => (e.staked * e.winOf account).fdiv e.winPool
    ∃ payouts final,
      machine.answers market settlements = payouts.map (fun payout => .ok (some payout)) ∧
      (machine.after market settlements).events.lookup eventId = some final ∧
      (e.ProRata →
        (∀ first last, order = first ++ [last] → ∃ sweep, payouts = first.map share ++ [sweep] ∧
          share last ≤ sweep ∧ sweep ≤ share last + (e.winStake.keys.card - 1)) ∧
        List.Forall₂ (fun account payout => e.winOf account ≤ payout) order payouts) ∧
      (¬e.ProRata → payouts = order.map (fun account => e.yesOf account + e.noOf account)) ∧
      payouts.sum + paidOut (machine.trace machine.init calls) eventId =
        deposited (machine.trace machine.init calls) eventId ∧
      deposited (machine.trace machine.init calls) eventId = e.staked ∧
      final.escrow = 0 ∧
      final.phase = if e.phase = .resolved ∧ order ≠ [] then .settled else e.phase := by
  intro market settlements share
  have books := booked calls
  have valid := books.valid.events eventId e found
  have decided : e.phase ≠ .opened := by
    rcases closed with resolved | voided
    · simp [resolved]
    · simp [voided]
  have funded := valid.funded
  have owing := valid.closed decided
  have ordered : (Event.pot funded owing).Order order :=
    ⟨distinct, fun account => (complete account).trans Event.mem_owed.symm⟩
  obtain ⟨answers, final, present, escrow, phase⟩ := settle_everyone order funded owing decided found ordered
  have paid := ordered.payments_sum
  obtain ⟨stakes, settled⟩ := books.present eventId e found
  refine ⟨(Event.pot funded owing).payments order, final, answers, present, ?_, ?_, ?_, stakes, escrow, phase⟩
  · intro proRata
    refine ⟨?_, ?_⟩
    · rintro first last rfl
      exact payments_shares funded owing proRata ordered
    · refine (due_le_payments funded owing ordered).imp (fun account payout enough => le_trans ?_ enough)
      rw [Event.due_share funded proRata, Int.fdiv_eq_ediv_of_nonneg _ (funded.winPool_pos proRata).le]
      exact ProRata.stake_le_share (funded.winPool_pos proRata) funded.winPool_le_staked (funded.winOf_nonneg account)
  · intro refund
    exact payments_refund funded owing refund ordered
  · have held : (Event.pot funded owing).held = e.escrow := rfl
    omega

private def unevenRun : List Call :=
  [.createEvent "resolver.testnet" 10 9, .takePosition 0 "alice.testnet" .yes 2 9, .takePosition 0 "carol.testnet" .yes 1 9,
    .takePosition 0 "bob.testnet" .no 2 9, .resolve 0 "resolver.testnet" .yes 10]

private def unevenEvent : Event :=
  { resolver := "resolver.testnet", closesAt := 10, phase := .resolved, outcome := .yes, poolYes := 3, poolNo := 2,
    escrow := 5, unclaimedWinStake := 3,
    yesStake := (Finmap.insert "carol.testnet" 1 (Finmap.insert "alice.testnet" 2 ∅)),
    noStake := Finmap.insert "bob.testnet" 2 ∅ }

/-- Five staked, three of them on the winning side: whoever claims last sweeps the remainder. -/
theorem settlement_complete_uneven :
    ∃ (payouts : List ℤ) (final : Event),
      machine.answers (machine.after machine.init unevenRun)
        (["carol.testnet", "alice.testnet"].map (Call.settle 0)) = payouts.map (fun payout => .ok (some payout)) ∧
      (machine.after (machine.after machine.init unevenRun)
        (["carol.testnet", "alice.testnet"].map (Call.settle 0))).events.lookup 0 = some final ∧
      final.escrow = 0 ∧ final.phase = .settled := by
  have owed : unevenEvent.owed = {"carol.testnet", "alice.testnet"} := by decide
  obtain ⟨payouts, final, answers, present, _, _, _, _, escrow, phase⟩ :=
    settlement_complete unevenRun 0 unevenEvent (by rfl) (Or.inl rfl) ["carol.testnet", "alice.testnet"] (by decide)
      (fun account => by rw [← Event.mem_owed, owed]; simp)
  exact ⟨payouts, final, answers, present, escrow, phase⟩

end NearRewards.Market
