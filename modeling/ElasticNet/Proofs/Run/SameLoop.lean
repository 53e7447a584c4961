import ElasticNet.Proofs.Run.Alone

namespace ElasticNet.Run

variable {α : Type} [Scalar α]

theorem not_goes_of_terminated {state : Slots α} (terminated : state.status = .ok .terminated) :
    ¬ Goes state := by
  rintro ⟨status, read, goes, _⟩
  rw [terminated] at read
  cases read
  exact goes rfl

theorem not_goes_of_empty {state : Slots α} (nothing : state.status = .ok .empty) :
    ¬ Goes state := by
  rintro ⟨status, read, _, goes⟩
  rw [nothing] at read
  cases read
  exact goes rfl

theorem Stops.unique {run : Run α} {states : Nat → Slots α} {positions : Nat → Nat} {i : Nat}
    {phase other : Phase} (stops : run.Stops states positions i phase)
    (otherStops : run.Stops states positions i other) : phase = other := by
  cases stops with
  | diverged status =>
    cases otherStops with
    | diverged _ => rfl
    | nothingToFit nothing => cases status.symm.trans nothing
    | converged goes | spent goes | unreached goes =>
      exact absurd goes (not_goes_of_terminated status)
  | nothingToFit nothing =>
    cases otherStops with
    | diverged status => cases status.symm.trans nothing
    | nothingToFit _ => rfl
    | converged goes | spent goes | unreached goes => exact absurd goes (not_goes_of_empty nothing)
  | converged goes target measured below =>
    cases otherStops with
    | diverged status => exact absurd goes (not_goes_of_terminated status)
    | nothingToFit nothing => exact absurd goes (not_goes_of_empty nothing)
    | converged _ _ _ _ => rfl
    | spent _ _ again above _ =>
      cases measured.symm.trans again
      exact absurd below above
    | unreached _ before _ => omega
  | spent goes target measured above last =>
    cases otherStops with
    | diverged status => exact absurd goes (not_goes_of_terminated status)
    | nothingToFit nothing => exact absurd goes (not_goes_of_empty nothing)
    | converged _ _ again below =>
      cases measured.symm.trans again
      exact absurd below above
    | spent _ _ _ _ _ => rfl
    | unreached _ before _ => omega
  | unreached goes before last =>
    cases otherStops with
    | diverged status => exact absurd goes (not_goes_of_terminated status)
    | nothingToFit nothing => exact absurd goes (not_goes_of_empty nothing)
    | converged _ target _ _ => omega
    | spent _ target _ _ _ => omega
    | unreached _ _ _ => rfl

/-- The ends in which the budget has no part. -/
inductive Settled : Phase → Prop
  | converged (position : Nat) : Settled (.done position true)
  | diverged (strength : String) (iteration position : Nat) :
    Settled (.failed (.diverged strength iteration) position)
  | nothingToFit (position : Nat) : Settled (.failed .nothingToFit position)

structure SameLoop (run other : Run α) : Prop where
  path : other.path = run.path
  test : other.test = run.test
  walk : ∀ count, other.walk count = run.walk count

namespace SameLoop

variable {run other : Run α} (same : run.SameLoop other)
include same

theorem symm : other.SameLoop run :=
  ⟨same.path.symm, same.test.symm, fun count => (same.walk count).symm⟩

theorem stateAfter : other.stateAfter = run.stateAfter :=
  funext fun count => congrArg Prod.fst (same.walk count)

theorem positionAfter : other.positionAfter = run.positionAfter :=
  funext fun count => congrArg Prod.snd (same.walk count)

theorem strengthText (position : Nat) :
    other.strengthText position = run.strengthText position := by
  unfold Run.strengthText
  rw [same.path]

/-- What stops the one stops the other, unless it is the budget. -/
theorem stops {states : Nat → Slots α} {positions : Nat → Nat} {i : Nat} {phase : Phase}
    (last : ¬ Settled phase → i + 1 = run.budget → i + 1 = other.budget)
    (stops : run.Stops states positions i phase) : other.Stops states positions i phase := by
  have target : run.path.size = other.path.size := congrArg Path.size same.path.symm
  have test : run.test = other.test := same.test.symm
  cases stops with
  | diverged status =>
    rw [← same.strengthText]
    exact .diverged status
  | nothingToFit status => exact .nothingToFit status
  | converged goes reached measured below =>
    rw [test] at measured below
    rw [target] at reached ⊢
    exact .converged goes reached measured below
  | spent goes reached measured above used =>
    rw [test] at measured above
    rw [target] at reached ⊢
    exact .spent goes reached measured above (last nofun used)
  | unreached goes before used =>
    rw [target] at before
    exact .unreached goes before (last nofun used)

variable (budget : other.budget = run.budget)
include budget

theorem stops_of_ended {origin : Store (Slots α)} {state : RunState α} {total : Nat}
    (ended : run.Ended origin state total) :
    other.Stops other.stateAfter other.positionAfter (total - 1) state.progress.phase := by
  rw [same.stateAfter, same.positionAfter]
  exact same.stops (fun _ used => used.trans budget.symm) ended.stops

theorem total_le {origin otherOrigin : Store (Slots α)} {state otherState : RunState α}
    {total otherTotal : Nat} (ended : run.Ended origin state total)
    (otherEnded : other.Ended otherOrigin otherState otherTotal) : otherTotal ≤ total := by
  by_contra later
  have positive := ended.positive
  exact otherEnded.quiet (total - 1) (by omega) _ (same.stops_of_ended budget ended)

theorem alone (paid : 0 < run.budget) (answers : run.Answers) (otherAnswers : other.Answers) :
    other.updatesAlone = run.updatesAlone ∧
    (other.alone other.updatesAlone).progress = (run.alone run.updatesAlone).progress ∧
    other.current (other.alone other.updatesAlone) = run.current (run.alone run.updatesAlone) := by
  have ended := ended_alone paid answers (Nat.le_refl _)
  have otherPaid : 0 < other.budget := by rwa [budget]
  have otherEnded := ended_alone otherPaid otherAnswers (Nat.le_refl _)
  have total : other.updatesAlone = run.updatesAlone :=
    Nat.le_antisymm (same.total_le budget ended otherEnded)
      (same.symm.total_le budget.symm otherEnded ended)
  refine ⟨total, ?_, ?_⟩
  · rw [total] at otherEnded ⊢
    have phase := otherEnded.stops.unique (same.stops_of_ended budget ended)
    have counted := otherEnded.walked.iterations.trans ended.walked.iterations.symm
    cases otherProgress : (other.alone run.updatesAlone).progress
    cases progress : (run.alone run.updatesAlone).progress
    rw [otherProgress, progress] at phase counted
    rw [Progress.mk.injEq]
    exact ⟨phase, counted⟩
  · rw [otherEnded.current, ended.current, same.stateAfter, total]

end SameLoop

end ElasticNet.Run
