import ElasticNet.Proofs.Run.History
import ElasticNet.Proofs.Run.Trajectory

namespace ElasticNet

variable {α : Type} [Scalar α]

namespace Run

open Command

section Steps

variable {run : Run α} {source : Source α}
  (steps : ∀ previous? context,
    run.pass.step previous? context source = run.pass.step previous? context run.source)
include steps

theorem step_of_steps (state : RunState α) :
    ({ run with source := source } : Run α).step state = run.step state := by
  unfold step
  cases state.progress.phase with
  | atPosition position _ =>
    change (do
      let current ← run.current state
      let context ← run.contextAt position
      run.pass.step (some current) context source) = _
    simp only [steps]
  | start | done _ _ | failed _ _ => rfl

theorem tick_of_steps : ({ run with source := source } : Run α).tick = run.tick := by
  unfold tick
  simp only [step_of_steps steps]
  rfl

theorem tickUntilDone_of_steps (fuel : Nat) :
    ({ run with source := source } : Run α).tickUntilDone fuel = run.tickUntilDone fuel := by
  induction fuel with
  | zero => rfl
  | succ fuel ih => rw [tickUntilDone, tickUntilDone, tick_of_steps steps, ih]

theorem toEnd_of_steps : ({ run with source := source } : Run α).toEnd = run.toEnd := by
  unfold toEnd
  simp only [tickUntilDone_of_steps steps]
  rfl

end Steps

variable {run : Run α} {state after : RunState α} {arrival : Nat → Nat}

theorem HasHistory.ticked (history : run.HasHistory state arrival)
    (ended : run.tick state = .ok () after) :
    (∃ arrival, run.HasHistory after arrival) ∧
      after.progress.iterations = state.progress.iterations + 1 := by
  obtain ⟨last, tracked⟩ := history.tracks
  unfold tick at ended
  rw [get_bind] at ended
  obtain ⟨_, _, advanced⟩ := lift_bind_eq_ok ended
  obtain ⟨_, _, _, _, notes, stands, _, decided, rfl⟩ := advance_eq_ok run tracked advanced
  exact ⟨⟨_, history.updated stands decided notes⟩, rfl⟩

omit [Scalar α] in
theorem HasHistory.isTerminal_of_spent (history : run.HasHistory state arrival)
    (spent : run.budget ≤ state.progress.iterations) :
    state.progress.phase.isTerminal = true := by
  have positive := history.positive
  cases stands : state.progress.phase with
  | start =>
    rw [stands] at positive
    cases positive
  | atPosition position updates =>
    have left := (history.underway position updates stands).2
    omega
  | done _ _ | failed _ _ => rfl

theorem HasHistory.isTerminal_of_tickUntilDone (history : run.HasHistory state arrival)
    {fuel : Nat} (enough : run.budget ≤ state.progress.iterations + fuel)
    (ended : run.tickUntilDone fuel state = .ok () after) :
    after.progress.phase.isTerminal = true := by
  induction fuel generalizing state arrival with
  | zero =>
    cases ended
    exact history.isTerminal_of_spent enough
  | succ fuel ih =>
    cases terminal : state.progress.phase.isTerminal with
    | true =>
      rw [run.tickUntilDone_of_terminal _ terminal] at ended
      cases ended
      exact terminal
    | false =>
      rw [tickUntilDone, get_bind, terminal] at ended
      obtain ⟨_, next, ticked, rest⟩ := bind_eq_ok ended
      obtain ⟨⟨_, further⟩, counted⟩ := history.ticked ticked
      exact ih further (by omega) rest

theorem isTerminal_of_toEnd (paid : 0 < run.budget) (ended : run.toEnd .start = .ok () after) :
    after.progress.phase.isTerminal = true := by
  have fresh : (RunState.start : RunState α).store.history run.group = [] := rfl
  unfold toEnd at ended
  rw [get_bind] at ended
  obtain ⟨_, started, starts, rest⟩ := bind_eq_ok ended
  change run.tickUntilDone (run.budget - started.progress.iterations + 1) started = _ at rest
  obtain ⟨_, first, _, rfl⟩ :=
    start_eq_ok run ((Store.history_eq_nil _ _).mp fresh (run.key 1 0) (group_key run 1 0)) starts
  have enough : run.budget ≤ 0 + (run.budget - 0 + 1) := by omega
  exact (HasHistory.of_start run paid [] fresh first).isTerminal_of_tickUntilDone enough rest

end Run

end ElasticNet
