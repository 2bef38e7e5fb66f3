import NearRewards.Library.Fields
import NearRewards.Proofs.LogIndex

/-! The printed log. Account ids contain no space, so every line can be read back, and runs
that print the same lines leave the same contract. -/

namespace NearRewards.Contract
open Fields

/-- Which kind of line a record prints. -/
def Record.kind : Record → Fin 6
  | .eventCreated .. => 0
  | .positionTaken .. => 1
  | .eventResolved .. => 2
  | .eventVoided .. => 3
  | .settled .. => 4
  | .eventFinalized _ => 5

def title (kind : Fin 6) : List Char :=
  (["EventCreated", "PositionTaken", "EventResolved", "EventVoided", "Settled", "EventFinalized"][kind]).toList

def labels (kind : Fin 6) : List String :=
  [["id=", "resolver=", "closes_at="], ["id=", "account=", "side=", "amount="], ["id=", "outcome=", "pool_yes=", "pool_no="],
    ["id=", "escrow="], ["id=", "account=", "payout="], ["id="]][kind]

def Record.values : Record → List (List Char)
  | .eventCreated id resolver closesAt => [decimal id.toNat, resolver.toList, decimal closesAt.toNat]
  | .positionTaken id account side amount => [decimal id.toNat, account.toList, side.value.toList, decimal amount.toNat]
  | .eventResolved id outcome poolYes poolNo =>
    [decimal id.toNat, outcome.value.toList, decimal poolYes.toNat, decimal poolNo.toNat]
  | .eventVoided id escrow => [decimal id.toNat, decimal escrow.toNat]
  | .settled id account payout => [decimal id.toNat, account.toList, decimal payout.toNat]
  | .eventFinalized id => [decimal id.toNat]

/-- The words of a line. -/
def Record.words (record : Record) : List (List Char) := title record.kind :: labelled (labels record.kind) record.values

/-- The accounts a line names. -/
def Record.accounts : Record → List AccountId
  | .eventCreated _ resolver _ => [resolver]
  | .positionTaken _ account _ _ => [account]
  | .settled _ account _ => [account]
  | _ => []

def Plain (account : AccountId) : Prop := Word account.toList

instance (account : AccountId) : Decidable (Plain account) := inferInstanceAs (Decidable (Word _))

section Lines
variable {record other : Record}

theorem line_eq (record : Record) : record.line.toList = line record.words := by
  have key : ∀ name : String, (" " ++ name).toList = ' ' :: name.toList := fun name => by simp
  have head : ∀ name : String, (name ++ " id=").toList = name.toList ++ ' ' :: "id=".toList := fun name => by simp
  have names : " resolver=" = " " ++ "resolver=" ∧
      " closes_at=" = " " ++ "closes_at=" ∧
      " account=" = " " ++ "account=" ∧
      " side=" = " " ++ "side=" ∧
      " amount=" = " " ++ "amount=" ∧
      " outcome=" = " " ++ "outcome=" ∧
      " pool_yes=" = " " ++ "pool_yes=" ∧
      " pool_no=" = " " ++ "pool_no=" ∧
      " escrow=" = " " ++ "escrow=" ∧
      " payout=" = " " ++ "payout=" := by decide
  have heads : "EventCreated id=" = "EventCreated" ++ " id=" ∧
      "PositionTaken id=" = "PositionTaken" ++ " id=" ∧
      "EventResolved id=" = "EventResolved" ++ " id=" ∧
      "EventVoided id=" = "EventVoided" ++ " id=" ∧
      "Settled id=" = "Settled" ++ " id=" ∧
      "EventFinalized id=" = "EventFinalized" ++ " id=" := by decide
  have titles : title 0 = "EventCreated".toList ∧ title 1 = "PositionTaken".toList ∧ title 2 = "EventResolved".toList ∧
      title 3 = "EventVoided".toList ∧ title 4 = "Settled".toList ∧ title 5 = "EventFinalized".toList :=
    ⟨rfl, rfl, rfl, rfl, rfl, rfl⟩
  have fields : labels 0 = ["id=", "resolver=", "closes_at="] ∧ labels 1 = ["id=", "account=", "side=", "amount="] ∧
      labels 2 = ["id=", "outcome=", "pool_yes=", "pool_no="] ∧ labels 3 = ["id=", "escrow="] ∧
      labels 4 = ["id=", "account=", "payout="] ∧ labels 5 = ["id="] := ⟨rfl, rfl, rfl, rfl, rfl, rfl⟩
  delta Record.line Record.words Record.values
  cases record <;> dsimp only [Record.kind] <;>
    simp only [titles, fields, labelled, List.zipWith_cons_cons, List.zipWith_nil_left, line_cons, line_singleton, decimal,
      names, heads, key, head, String.toList_append, List.append_assoc, List.cons_append]

theorem title_injective : Function.Injective title := by decide

theorem length_values (record : Record) : record.values.length = (labels record.kind).length := by
  cases record <;> rfl

theorem words_word (plain : ∀ account ∈ record.accounts, Plain account) : ∀ word ∈ record.words, Word word := by
  have titles : ∀ kind, Word (title kind) := by decide
  have labels : ∀ kind, ∀ label ∈ labels kind, Word label.toList := by decide
  have sides : ∀ side : Outcome, Word side.value.toList := by
    intro side
    cases side <;> decide
  have values : ∀ value ∈ record.values, Word value := by
    delta Record.values
    cases record with
    | eventCreated id resolver closesAt => simpa [word_decimal, Plain] using plain resolver List.mem_cons_self
    | positionTaken id account side amount => simpa [word_decimal, sides, Plain] using plain account List.mem_cons_self
    | eventResolved id outcome poolYes poolNo => simp [word_decimal, sides]
    | eventVoided id escrow => simp [word_decimal]
    | settled id account payout => simpa [word_decimal, Plain] using plain account List.mem_cons_self
    | eventFinalized id => simp [word_decimal]
  exact List.forall_mem_cons.mpr ⟨titles _, word_labelled (labels _) values⟩

theorem value_injective : Function.Injective Outcome.value := by
  intro side other same
  revert same
  cases side <;> cases other <;> first | exact fun _ => rfl | decide

/-- A line gives back its record. -/
theorem line_injective (plain : ∀ account ∈ record.accounts, Plain account)
    (plainToo : ∀ account ∈ other.accounts, Plain account) (same : record.line = other.line) : record = other := by
  have words : record.words = other.words := by
    have text := congrArg String.toList same
    rw [line_eq, line_eq] at text
    exact Fields.line_injective (words_word plain) (words_word plainToo) (List.cons_ne_nil _ _) (List.cons_ne_nil _ _) text
  obtain ⟨titles, values⟩ := List.cons.inj words
  have kinds : record.kind = other.kind := title_injective titles
  rw [kinds] at values
  have read := labelled_injective _ (kinds ▸ length_values record) (length_values other) values
  have number : ∀ {width : ℕ} {first second : BitVec width}, decimal first.toNat = decimal second.toNat → first = second :=
    fun same => BitVec.eq_of_toNat_eq (decimal_injective same)
  cases record <;> cases other <;> dsimp only [Record.kind] at kinds <;> first | exact absurd kinds (by decide) | clear kinds
  all_goals simp only [Record.values, List.cons.injEq, String.toList_inj, and_true] at read
  · obtain ⟨id, rfl, closesAt⟩ := read
    rw [number id, number closesAt]
  · obtain ⟨id, rfl, side, amount⟩ := read
    rw [number id, value_injective side, number amount]
  · obtain ⟨id, outcome, poolYes, poolNo⟩ := read
    rw [number id, value_injective outcome, number poolYes, number poolNo]
  · obtain ⟨id, escrow⟩ := read
    rw [number id, number escrow]
  · obtain ⟨id, rfl, payout⟩ := read
    rw [number id, number payout]
  · rw [number read]

theorem lines_injective {records others : List Record} (plain : ∀ record ∈ records, ∀ account ∈ record.accounts, Plain account)
    (plainToo : ∀ record ∈ others, ∀ account ∈ record.accounts, Plain account)
    (same : records.map Record.line = others.map Record.line) : records = others := by
  induction records generalizing others with
  | nil => exact (List.map_eq_nil_iff.mp same.symm).symm
  | cons record rest ih =>
    cases others with
    | nil => cases same
    | cons other others =>
      obtain ⟨first, later⟩ := List.cons.inj same
      rw [line_injective (plain record List.mem_cons_self) (plainToo other List.mem_cons_self) first,
        ih (fun record member => plain record (List.mem_cons_of_mem _ member))
          (fun record member => plainToo record (List.mem_cons_of_mem _ member)) later]

end Lines

/-- Nothing in the contract is redundant: every id given out is an event's, and the claims an
event stores are claims made. -/
structure Settlemint.Tidy (state : State) : Prop where
  created : ∀ eventId : U64, eventId.toNat < state.nextEventId.toNat → ∃ e, state.events.lookup eventId = some e
  claims : ∀ eventId e, state.events.lookup eventId = some e → ∀ account claim, e.claimed.lookup account = some claim → claim = true

section Tidy
variable {state : State} {eventId : U64} {e : Event}

theorem Acts.claims {env : Env} {call : Call} {effect : Effect Value} (acted : Acts env call eventId e effect) :
    effect.event.claimed = e.claimed ∨ ∃ account, effect.event.claimed = e.claimed.insert account true := by
  cases acted with
  | stake done =>
    obtain ⟨_, _, _, _, final, added, rfl⟩ := stakeAct_ok.mp done
    exact Or.inl (EventContract.add_frame added).2.2.2.2.2
  | resolve done =>
    obtain ⟨_, _, _, _, rfl⟩ := resolveAct_ok.mp done
    exact Or.inl rfl
  | void done =>
    obtain ⟨_, _, rfl⟩ := voidAct_ok.mp done
    exact Or.inl rfl
  | @settle _ account _ _ done =>
    obtain ⟨_, _, payout, final, _, _, paid, rfl⟩ := settleAct_ok.mp done
    obtain ⟨_, rfl⟩ := EventContract.pay_frame paid
    exact Or.inr ⟨account, rfl⟩

theorem Settlemint.Tidy.step (tidy : state.Tidy) (input : Env × Call) : (machine.step state input).2.Tidy := by
  obtain ⟨env, call⟩ := input
  obtain ⟨abort, ran⟩ | ⟨resolver, closesAt, next, rfl, _, _, more, ran⟩ | ⟨eventId, e, effect, found, acted, ran⟩ :=
    step_cases state env call
  · rw [ran]
    exact tidy
  · rw [ran]
    constructor
    · intro other earlier
      change other.toNat < next.toNat at earlier
      change ∃ e, (state.events.insert state.nextEventId _).lookup other = some e
      by_cases last : other = state.nextEventId
      · rw [Ledger.lookup_insert, if_pos last]
        exact ⟨_, rfl⟩
      · rw [Ledger.lookup_insert, if_neg last]
        apply tidy.created
        have different : other.toNat ≠ state.nextEventId.toNat := fun same => last (BitVec.eq_of_toNat_eq same)
        omega
    · intro other e found account claim held
      change (state.events.insert state.nextEventId _).lookup other = some e at found
      rw [Ledger.lookup_insert] at found
      split at found
      next =>
        cases found
        cases held
      next => exact tidy.claims other e found account claim held
  · rw [ran]
    constructor
    · intro other earlier
      change ∃ e, (state.events.insert eventId _).lookup other = some e
      rw [Ledger.lookup_insert]
      split
      next => exact ⟨_, rfl⟩
      next => exact tidy.created other earlier
    · intro other e' present account claim held
      change (state.events.insert eventId _).lookup other = some e' at present
      rw [Ledger.lookup_insert] at present
      split at present
      next =>
        cases present
        rcases acted.claims with same | ⟨payee, paid⟩
        · rw [same] at held
          exact tidy.claims eventId e found account claim held
        · rw [paid, Ledger.lookup_insert] at held
          split at held
          next => exact (Option.some.inj held).symm
          next => exact tidy.claims eventId e found account claim held
      next => exact tidy.claims other e' present account claim held

theorem reachable_tidy (reachable : machine.Reachable state) : state.Tidy := by
  refine reachable.invariant ⟨fun _ early => ?_, fun _ _ found => by cases found⟩ (fun _ input tidy => tidy.step input)
  exact absurd early (Nat.not_lt_zero _)

end Tidy

section Determined
variable {i : Indexed} {e other : Event}

theorem positive_stakes (valid : e.Valid) :
    (∀ account stake, e.yesStake.lookup account = some stake → (0 : ℤ) < stake.toNat) ∧
      ∀ account stake, e.noStake.lookup account = some stake → (0 : ℤ) < stake.toNat := by
  have funded := valid.mirror.funded
  constructor
  · intro account stake found
    exact funded.yesPositive account stake.toNat (by rw [EventContract.mirror, lookup_amounts, found]; rfl)
  · intro account stake found
    exact funded.noPositive account stake.toNat (by rw [EventContract.mirror, lookup_amounts, found]; rfl)

theorem balance_stakes (stakes : Ledger AccountId U128) (account : AccountId) :
    Ledger.balance (fun stake : U128 => (stake.toNat : ℤ)) stakes account = ((stakes.lookup account).getD 0).toNat := by
  unfold Ledger.balance
  cases stakes.lookup account <;> rfl

/-- Claims that are all true are determined by who has claimed. -/
theorem claims_unique {claims claimsToo : Ledger AccountId Bool}
    (true_ : ∀ account claim, claims.lookup account = some claim → claim = true)
    (trueToo : ∀ account claim, claimsToo.lookup account = some claim → claim = true)
    (same : ∀ account, (claims.lookup account).getD false = true ↔ (claimsToo.lookup account).getD false = true) :
    claims = claimsToo := by
  apply Finmap.ext_lookup
  intro account
  have equal := same account
  cases found : claims.lookup account with
  | none =>
    cases held : claimsToo.lookup account with
    | none => rfl
    | some claim =>
      obtain rfl := trueToo account claim held
      simp [found, held] at equal
  | some claim =>
    obtain rfl := true_ account claim found
    cases held : claimsToo.lookup account with
    | none => simp [found, held] at equal
    | some claim => rw [trueToo account claim held]

/-- Two events an index reads alike are one. -/
theorem Reads.unique (reads : Reads i e) (readsToo : Reads i other) (valid : e.Valid) (validToo : other.Valid)
    (claims : ∀ account claim, e.claimed.lookup account = some claim → claim = true)
    (claimsToo : ∀ account claim, other.claimed.lookup account = some claim → claim = true) : e = other := by
  have amount : ∀ {told : ℤ} {x y : U128}, told = x.toNat → told = y.toNat → x = y :=
    fun first second => BitVec.eq_of_toNat_eq (Int.ofNat.inj (first.symm.trans second))
  have distinct : Function.Injective fun stake : U128 => (stake.toNat : ℤ) :=
    fun _ _ same => BitVec.eq_of_toNat_eq (Int.ofNat.inj same)
  have yesStake : e.yesStake = other.yesStake := by
    refine Ledger.eq_of_balance _ distinct (positive_stakes valid).1 (positive_stakes validToo).1 fun account => ?_
    rw [balance_stakes, balance_stakes]
    exact (reads.yesStake account).symm.trans (readsToo.yesStake account)
  have noStake : e.noStake = other.noStake := by
    refine Ledger.eq_of_balance _ distinct (positive_stakes valid).2 (positive_stakes validToo).2 fun account => ?_
    rw [balance_stakes, balance_stakes]
    exact (reads.noStake account).symm.trans (readsToo.noStake account)
  have claimed : e.claimed = other.claimed :=
    claims_unique claims claimsToo fun account => (reads.claimed account).symm.trans (readsToo.claimed account)
  have resolver := reads.resolver.symm.trans readsToo.resolver
  have closesAt := reads.closesAt.symm.trans readsToo.closesAt
  have phase := reads.phase.symm.trans readsToo.phase
  have outcome := reads.outcome.symm.trans readsToo.outcome
  have poolYes := amount reads.poolYes readsToo.poolYes
  have poolNo := amount reads.poolNo readsToo.poolNo
  have escrow := amount reads.escrow readsToo.escrow
  have unclaimed := amount reads.unclaimedWinStake readsToo.unclaimedWinStake
  cases e
  cases other
  dsimp only at *
  subst resolver closesAt phase outcome poolYes poolNo escrow unclaimed yesStake noStake claimed
  rfl

theorem Reads.Opt.isSome {told : Option Indexed} {held : Option Event} (reads : Reads.Opt told held) :
    told.isSome = held.isSome := by
  cases told <;> cases held <;> first | rfl | exact reads.elim

/-- Two reachable contracts with the same index are one. -/
theorem Retells.unique {index : LogIndex} {state state' : State} (retells : Retells index state.events)
    (retellsToo : Retells index state'.events) (reachable : machine.Reachable state) (reachableToo : machine.Reachable state') :
    state = state' := by
  have valid := reachable_valid reachable
  have validToo := reachable_valid reachableToo
  have tidy := reachable_tidy reachable
  have tidyToo := reachable_tidy reachableToo
  have events : state.events = state'.events := by
    apply Finmap.ext_lookup
    intro eventId
    have present := (retells eventId).isSome.symm.trans (retellsToo eventId).isSome
    cases found : state.events.lookup eventId with
    | none =>
      rw [found] at present
      exact (Option.not_isSome_iff_eq_none.mp (by simp [← present])).symm
    | some e =>
      rw [found] at present
      obtain ⟨other, held⟩ := Option.isSome_iff_exists.mp present.symm
      obtain ⟨i, seen, reads⟩ := retells.lookup found
      obtain ⟨i', seenToo, readsToo⟩ := retellsToo.lookup held
      cases seen.symm.trans seenToo
      rw [held, reads.unique readsToo (valid.event found) (validToo.event held) (tidy.claims _ _ found) (tidyToo.claims _ _ held)]
  have next : state.nextEventId = state'.nextEventId := by
    apply BitVec.eq_of_toNat_eq
    rcases Nat.lt_trichotomy state.nextEventId.toNat state'.nextEventId.toNat with less | same | more
    · obtain ⟨e, found⟩ := tidyToo.created state.nextEventId less
      rw [← events, valid.fresh] at found
      cases found
    · exact same
    · obtain ⟨e, found⟩ := tidy.created state'.nextEventId more
      rw [events, validToo.fresh] at found
      cases found
  cases state
  cases state'
  dsimp only at *
  rw [events, next]

end Determined

/-- The accounts that a successful call prints. -/
def named : Env × Call → List AccountId
  | (_, .createEvent resolver _) => [resolver]
  | (env, .takePosition _ _) => [env.predecessorAccountId]
  | (_, .settle _ account) => [account]
  | _ => []

theorem step_accounts (state : State) (input : Env × Call) :
    ∀ record ∈ (machine.step state input).1.logs, ∀ account ∈ record.accounts, account ∈ named input := by
  obtain ⟨env, call⟩ := input
  obtain ⟨abort, ran⟩ | ⟨resolver, closesAt, next, rfl, _, _, _, ran⟩ | ⟨eventId, e, effect, found, acted, ran⟩ :=
    step_cases state env call
  · rw [ran]
    exact fun _ member => by cases member
  · rw [ran]
    intro record member account said
    cases List.mem_singleton.mp member
    exact said
  · rw [ran]
    intro record member account said
    cases acted with
    | stake done =>
      obtain ⟨_, _, _, _, final, added, rfl⟩ := stakeAct_ok.mp done
      cases List.mem_singleton.mp member
      exact said
    | resolve done =>
      obtain ⟨_, _, _, _, rfl⟩ := resolveAct_ok.mp done
      cases List.mem_singleton.mp member
      cases said
    | void done =>
      obtain ⟨_, _, rfl⟩ := voidAct_ok.mp done
      cases List.mem_singleton.mp member
      cases said
    | settle done =>
      obtain ⟨_, _, payout, final, _, _, paid, rfl⟩ := settleAct_ok.mp done
      rcases List.mem_cons.mp member with rfl | rest
      · exact said
      · split at rest
        · cases List.mem_singleton.mp rest
          cases said
        · cases rest

theorem logged_plain (inputs : List (Env × Call)) (plain : ∀ input ∈ inputs, ∀ account ∈ named input, Plain account) :
    ∀ record ∈ logged inputs, ∀ account ∈ record.accounts, Plain account := by
  induction inputs using List.reverseRecOn with
  | nil => exact fun _ member => by cases member
  | append_singleton inputs input ih =>
    intro record member account said
    rw [logged_concat] at member
    rcases List.mem_append.mp member with before | last
    · exact ih (fun earlier present => plain earlier (List.mem_append_left _ present)) record before account said
    · exact plain input (by simp) account (step_accounts _ input record last account said)

/-- Runs that print the same lines leave the same contract, in every field of every event,
every stake, every claim and the next id, and so answer every later call alike. -/
theorem printed_determines {inputs others : List (Env × Call)}
    (plain : ∀ input ∈ inputs, ∀ account ∈ named input, Plain account)
    (plainToo : ∀ input ∈ others, ∀ account ∈ named input, Plain account) (same : printed inputs = printed others) :
    machine.after machine.init inputs = machine.after machine.init others := by
  have logs : logged inputs = logged others :=
    lines_injective (logged_plain inputs plain) (logged_plain others plainToo) same
  have told := retells inputs
  rw [logs] at told
  exact told.unique (retells others) ⟨inputs, rfl⟩ ⟨others, rfl⟩

/-- A refused resolution in between leaves no trace. -/
theorem printed_determines_refused :
    machine.after machine.init [(⟨"creator.near", 0, 0⟩, .createEvent "r.near" 10), (⟨"a.near", 5, 1⟩, .takePosition 0 .yes)] =
      machine.after machine.init [(⟨"creator.near", 0, 0⟩, .createEvent "r.near" 10), (⟨"m.near", 0, 1⟩, .resolve 0 .no),
        (⟨"a.near", 5, 1⟩, .takePosition 0 .yes)] :=
  printed_determines (by decide) (by decide) (by decide +kernel)

end NearRewards.Contract
