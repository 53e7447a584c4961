import ElasticNet.Proofs.Run.Trajectory

namespace ElasticNet.Run

open Command

variable {α : Type} [Scalar α]

def alone (run : Run α) (ticks : Nat) : RunState α :=
  (result (do run.start; run.tickUntilDone ticks) .start).2

def updatesAlone (run : Run α) : Nat :=
  (result run.toEnd .start).2.progress.iterations

theorem Ended.le_of_ended {run : Run α} {origin : Store (Slots α)} {state other : RunState α}
    {total otherTotal : Nat} (ended : run.Ended origin state total)
    (otherEnded : run.Ended origin other otherTotal) : otherTotal ≤ total := by
  by_contra later
  have positive := ended.positive
  exact otherEnded.quiet (total - 1) (by omega) _ ended.stops

theorem tickUntilDone_succ (run : Run α) {fuel : Nat} {state after : RunState α}
    (ticks : run.tickUntilDone fuel state = .ok () after) :
    run.tickUntilDone (fuel + 1) state =
      if after.progress.phase.isTerminal then .ok () after else run.tick after := by
  -- the loop takes its ticks from the front, the last one is taken off its end here
  induction fuel generalizing state with
  | zero =>
    have same : state = after := by
      cases ticks
      rfl
    subst after
    cases pending : state.progress.phase.isTerminal with
    | true => exact run.tickUntilDone_of_terminal 1 pending
    | false =>
      cases ticked : run.tick state with
      | ok answer next => exact run.tickUntilDone_of_tick 0 pending ticked
      | error error next =>
        rw [tickUntilDone, get_bind, pending]
        exact bind_of_error ticked
  | succ fuel ih =>
    cases pending : state.progress.phase.isTerminal with
    | true =>
      rw [run.tickUntilDone_of_terminal _ pending] at ticks
      cases ticks
      rw [pending, run.tickUntilDone_of_terminal _ pending]
      rfl
    | false =>
      cases ticked : run.tick state with
      | ok answer next =>
        rw [run.tickUntilDone_of_tick _ pending ticked] at ticks ⊢
        exact ih ticks
      | error error next =>
        rw [tickUntilDone, get_bind, pending] at ticks
        cases (bind_of_error ticked).symm.trans ticks

section Alone

variable {run : Run α} (paid : 0 < run.budget) (answers : run.Answers)
include paid answers

theorem start_alone : ∃ started, run.start .start = .ok () started ∧
    run.Underway .empty started 0 :=
  run.start_underway paid answers [] (Store.history_empty run.group)

theorem alone_outcome (ticks : Nat) : ∃ started,
    run.start .start = .ok () started ∧ run.tickUntilDone ticks started = .ok () (run.alone ticks) ∧
    (run.Underway .empty (run.alone ticks) ticks ∨
      ∃ total ≤ ticks, run.Ended .empty (run.alone ticks) total) := by
  obtain ⟨started, starts, underway⟩ := start_alone paid answers
  obtain ⟨after, goes, outcome⟩ := underway.tickUntilDone answers ticks
  have same : run.alone ticks = after := by
    unfold alone result
    rw [bind_of_ok starts, goes]
  rw [same]
  refine ⟨started, starts, goes, ?_⟩
  rcases outcome with further | ⟨total, _, bound, ended⟩
  · rw [Nat.zero_add] at further
    exact .inl further
  · exact .inr ⟨total, by omega, ended⟩

theorem toEnd_alone : ∃ last, run.toEnd .start = .ok () last ∧
    run.Ended .empty last run.updatesAlone := by
  obtain ⟨last, total, ends, ended⟩ := run.toEnd_ended paid answers []
    (Store.history_empty run.group)
  refine ⟨last, ends, ?_⟩
  unfold updatesAlone result
  rw [show run.toEnd .start = .ok () last from ends]
  simp only [ended.walked.iterations, ended]

theorem underway_alone {ticks : Nat} (before : ticks < run.updatesAlone) :
    run.Underway .empty (run.alone ticks) ticks := by
  obtain ⟨last, _, ended⟩ := toEnd_alone paid answers
  obtain ⟨_, _, _, underway | ⟨total, bound, early⟩⟩ := alone_outcome paid answers ticks
  · exact underway
  · have same := early.le_of_ended ended
    omega

theorem ended_alone {ticks : Nat} (behind : run.updatesAlone ≤ ticks) :
    run.Ended .empty (run.alone ticks) run.updatesAlone := by
  obtain ⟨last, _, ended⟩ := toEnd_alone paid answers
  obtain ⟨_, _, _, underway | ⟨total, bound, early⟩⟩ := alone_outcome paid answers ticks
  · have positive := ended.positive
    exact absurd ended.stops (underway.quiet _ (by omega) _)
  · have same : run.updatesAlone = total :=
      Nat.le_antisymm (early.le_of_ended ended) (ended.le_of_ended early)
    rw [same]
    exact early

theorem iterations_alone (ticks : Nat) :
    (run.alone ticks).progress.iterations = min ticks run.updatesAlone := by
  by_cases before : ticks < run.updatesAlone
  · rw [(underway_alone paid answers before).walked.iterations]
    omega
  · rw [(ended_alone paid answers (Nat.le_of_not_lt before)).walked.iterations]
    omega

theorem isTerminal_alone (ticks : Nat) :
    (run.alone ticks).progress.phase.isTerminal = decide (run.updatesAlone ≤ ticks) := by
  by_cases before : ticks < run.updatesAlone
  · obtain ⟨updates, stands⟩ := (underway_alone paid answers before).stands
    rw [stands, decide_eq_false (Nat.not_le_of_lt before)]
    rfl
  · have behind := Nat.le_of_not_lt before
    rw [(ended_alone paid answers behind).stops.isTerminal, decide_eq_true behind]

theorem alone_zero : run.start .start = .ok () (run.alone 0) := by
  obtain ⟨started, starts, goes, _⟩ := alone_outcome paid answers 0
  cases goes
  exact starts

theorem alone_succ (ticks : Nat) :
    (if (run.alone ticks).progress.phase.isTerminal then .ok () (run.alone ticks)
      else run.tick (run.alone ticks)) = .ok () (run.alone (ticks + 1)) := by
  obtain ⟨started, starts, goes, _⟩ := alone_outcome paid answers ticks
  obtain ⟨same, again, further, _⟩ := alone_outcome paid answers (ticks + 1)
  rw [starts] at again
  cases again
  rw [← run.tickUntilDone_succ goes]
  exact further

theorem alone_of_le {ticks : Nat} (behind : run.updatesAlone ≤ ticks) :
    run.alone (ticks + 1) = run.alone ticks := by
  have next := alone_succ paid answers ticks
  rw [isTerminal_alone paid answers, decide_eq_true behind] at next
  exact (EStateM.Result.ok.inj next).2.symm

theorem alone_of_lt {ticks : Nat} (before : ticks < run.updatesAlone) :
    run.step (run.alone ticks) = .ok (run.stateAfter (ticks + 1)) ∧
      run.advance (some (run.stateAfter (ticks + 1))) (run.alone ticks) =
        .ok () (run.alone (ticks + 1)) := by
  obtain ⟨_, _, stepped, _⟩ := (underway_alone paid answers before).stepped answers
  have next := alone_succ paid answers ticks
  rw [isTerminal_alone paid answers, decide_eq_false (Nat.not_le_of_lt before)] at next
  change run.tick (run.alone ticks) = .ok () (run.alone (ticks + 1)) at next
  refine ⟨stepped, ?_⟩
  unfold tick at next
  rw [get_bind, stepped, lift_ok_bind] at next
  exact next

theorem alone_eq_last {ticks : Nat} (behind : run.updatesAlone ≤ ticks) :
    run.alone ticks = run.alone run.updatesAlone := by
  induction behind with
  | refl => rfl
  | step behind ih => exact (alone_of_le paid answers behind).trans ih

theorem toEnd_eq_alone : run.toEnd .start = .ok () (run.alone run.updatesAlone) := by
  obtain ⟨last, ends, ended⟩ := toEnd_alone paid answers
  have bounded := ended.bounded
  obtain ⟨started, starts, goes, _⟩ := alone_outcome paid answers (run.budget + 1)
  have counted : started.progress.iterations = 0 := by
    obtain ⟨same, again, underway⟩ := start_alone paid answers
    cases starts.symm.trans again
    exact underway.walked.iterations
  have behind : run.updatesAlone ≤ run.budget + 1 := by omega
  rw [run.toEnd_of_start rfl starts, counted, ← alone_eq_last paid answers behind]
  exact goes

end Alone

end ElasticNet.Run
