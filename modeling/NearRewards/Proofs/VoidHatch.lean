import NearRewards.Proofs.ContractActs

/-! The void escape hatch, at every timestamp of the range. It works for every event whose
grace period ends within the range of a `u64`; an open event beyond that can never be
voided, and asking whether it can be aborts. -/

namespace NearRewards.Contract

/-- What `void_event` answers for an event whose grace period can be computed. -/
def voidAnswer (e : Event) (nowNs : ℕ) : Except Abort Value :=
  if e.phase ≠ .opened then .error (.panicked "NotOpen")
  else if nowNs < e.closesAt.toNat + voidGraceNs then .error (.panicked "VoidTooEarly")
  else .ok .nothing

structure HatchWorks (state : State) (eventId : U64) (e : Event) : Prop where
  view : ∀ env, view (isVoidable env eventId) state =
    .ok (decide (e.phase = .opened ∧ env.blockTimestamp.toNat ≥ e.closesAt.toNat + voidGraceNs))
  voids : ∀ env, env.attachedDeposit = 0 →
    (machine.step state (env, .voidEvent eventId)).1.result = voidAnswer e env.blockTimestamp.toNat
  opens : e.phase = .opened → ∃ env, (machine.step state (env, .voidEvent eventId)).1.result = .ok .nothing

section Hatch
variable {state : State} {eventId : U64} {e : Event}

private theorem step_voidEvent (found : state.events.lookup eventId = some e) {env : Env}
    (undeposited : env.attachedDeposit = 0) :
    (machine.step state (env, .voidEvent eventId)).1.result =
      match voidAct env eventId e with
      | .error abort => .error abort
      | .ok _ => .ok .nothing := by
  change (transact state (env, .voidEvent eventId)).1.result = _
  rw [transact_voidEvent, if_neg (not_not.mpr undeposited), conclude, found]
  dsimp only
  cases voidAct env eventId e <;> rfl

private theorem hatch_closed (found : state.events.lookup eventId = some e) (closed : e.phase ≠ .opened) :
    HatchWorks state eventId e := by
  refine ⟨fun env => ?_, fun env undeposited => ?_, fun opened => absurd opened closed⟩
  · rw [view_isVoidable, found]
    dsimp only
    rw [if_neg closed]
    exact congrArg Except.ok (decide_eq_false (fun voidable => closed voidable.1)).symm
  · rw [step_voidEvent found undeposited, voidAct, if_pos closed, voidAnswer, if_pos closed]

private theorem hatch_opened (found : state.events.lookup eventId = some e) (opened : e.phase = .opened)
    (fits : e.closesAt.toNat + voidGraceNs < 2 ^ 64) : HatchWorks state eventId e := by
  obtain ⟨voidableAt, sum, value⟩ : ∃ voidableAt, Checked.add e.closesAt voidGrace = some voidableAt ∧
      voidableAt.toNat = e.closesAt.toNat + voidGraceNs := by
    cases sum : Checked.add e.closesAt voidGrace with
    | none =>
      rw [Checked.add_eq_none, voidGrace_toNat] at sum
      omega
    | some voidableAt =>
      rw [Checked.add_eq_some, voidGrace_toNat] at sum
      exact ⟨voidableAt, rfl, sum⟩
  have voids : ∀ env, env.attachedDeposit = 0 →
      (machine.step state (env, .voidEvent eventId)).1.result = voidAnswer e env.blockTimestamp.toNat := by
    intro env undeposited
    have early : ¬env.blockTimestamp ≥ voidableAt ↔ env.blockTimestamp.toNat < e.closesAt.toNat + voidGraceNs := by
      rw [ge_iff_le, BitVec.le_def, value]
      omega
    rw [step_voidEvent found undeposited, voidAct, if_neg (not_not.mpr opened), sum, voidAnswer, if_neg (not_not.mpr opened)]
    simp only [early]
    split_ifs <;> rfl
  refine ⟨fun env => ?_, voids, fun _ => ⟨⟨"", 0, voidableAt⟩, ?_⟩⟩
  · have reached : env.blockTimestamp ≥ voidableAt ↔
        e.phase = .opened ∧ env.blockTimestamp.toNat ≥ e.closesAt.toNat + voidGraceNs := by
      rw [ge_iff_le, BitVec.le_def, value]
      simp [opened]
    rw [view_isVoidable, found]
    dsimp only
    rw [if_pos opened, sum]
    exact congrArg Except.ok (decide_eq_decide.mpr reached)
  · have late : ¬voidableAt.toNat < e.closesAt.toNat + voidGraceNs := by omega
    rw [voids _ rfl, voidAnswer, if_neg (not_not.mpr opened), if_neg late]

private theorem hatch_overflows (found : state.events.lookup eventId = some e) (opened : e.phase = .opened)
    (exceeds : 2 ^ 64 ≤ e.closesAt.toNat + voidGraceNs) : ¬HatchWorks state eventId e := by
  intro works
  have sum : Checked.add e.closesAt voidGrace = none := by
    rw [Checked.add_eq_none, voidGrace_toNat]
    exact exceeds
  have answer := works.view ⟨"", 0, 0⟩
  rw [view_isVoidable, found] at answer
  dsimp only at answer
  rw [if_pos opened, sum] at answer
  cases answer

end Hatch

/-- The hatch works for an event exactly when it is no longer open or its grace period ends
within the range of the block timestamp. -/
theorem hatch_works_iff {state : State} {eventId : U64} {e : Event} (found : state.events.lookup eventId = some e) :
    HatchWorks state eventId e ↔ e.phase ≠ .opened ∨ e.closesAt.toNat + voidGraceNs < 2 ^ 64 := by
  constructor
  · intro works
    by_contra outside
    obtain ⟨opened, exceeds⟩ := not_or.mp outside
    exact hatch_overflows found (not_not.mp opened) (Nat.not_lt.mp exceeds) works
  · rintro (closed | fits)
    · exact hatch_closed found closed
    · by_cases opened : e.phase = .opened
      · exact hatch_opened found opened fits
      · exact hatch_closed found opened

private def hatchRun (closesAt : U64) : List (Env × Call) :=
  [(⟨"creator.testnet", 0, 9⟩, .createEvent "resolver.testnet" closesAt)]

theorem hatch_works_iff_early : ∃ e, (machine.after machine.init (hatchRun 10)).events.lookup 0 = some e ∧
    HatchWorks (machine.after machine.init (hatchRun 10)) 0 e := by
  have facts : ((machine.after machine.init (hatchRun 10)).events.lookup 0).map EventContract.closesAt = some 10 := by
    decide
  obtain ⟨e, found, closesAt⟩ := Option.map_eq_some_iff.mp facts
  exact ⟨e, found, (hatch_works_iff found).mpr (Or.inr (by rw [closesAt]; decide))⟩

/-- An event that closes at the end of time can be created, and never be voided. -/
theorem last_event_never_voidable :
    ¬∀ state, machine.Reachable state → ∀ eventId e, state.events.lookup eventId = some e → HatchWorks state eventId e := by
  intro always
  have facts : ((machine.after machine.init (hatchRun (18446744073709551615))).events.lookup 0).map (fun e => (e.phase, e.closesAt)) =
      some (.opened, 18446744073709551615) := by
    decide +kernel
  obtain ⟨e, found, facts⟩ := Option.map_eq_some_iff.mp facts
  simp only [Prod.mk.injEq] at facts
  obtain ⟨opened, closesAt⟩ := facts
  have exceeds : 2 ^ 64 ≤ e.closesAt.toNat + voidGraceNs := by
    rw [closesAt]
    simp [voidGraceNs]
  exact hatch_overflows found opened exceeds (always _ ⟨_, rfl⟩ 0 e found)

end NearRewards.Contract
