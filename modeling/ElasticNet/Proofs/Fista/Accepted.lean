import ElasticNet.Proofs.Fista.Passes
import ElasticNet.Proofs.Run.Budget
import ElasticNet.Proofs.Vouching

namespace ElasticNet.Fista

open Exact

variable {n : ℕ}

theorem Proximal.resumed_reports (p : Proximal n) (context : StepContext Exact) :
    (p.resumed context).accepted = p.accepted ∧
      (p.resumed context).logLikelihood = p.logLikelihood := by
  unfold resumed
  split
  · exact ⟨rfl, rfl⟩
  · exact ⟨rfl, rfl⟩

theorem Passed.reports {family : Family} {samples : List (Sample n)} {before after : Proximal n}
    (passed : Passed family samples before after) (trying : after.trial ≠ 0) :
    after.accepted = before.accepted ∧ after.logLikelihood = before.logLikelihood := by
  cases passed with
  | opened _ _ keeps _ value => exact ⟨keeps.accepted, value⟩
  | accepted _ next _ _ _ => exact absurd next trying
  | rejected _ _ keeps _ value => exact ⟨keeps.accepted, value⟩

theorem Passed.accepts {family : Family} {samples : List (Sample n)} {before after : Proximal n}
    (passed : Passed family samples before after) (closed : after.trial = 0) :
    after.logLikelihood =
      -Problem.objective ⟨family, samples, before.strength, before.mixing⟩ after.accepted := by
  cases passed with
  | opened _ next _ _ _ => omega
  | accepted _ _ keeps _ value =>
    rw [keeps.accepted]
    exact value
  | rejected _ next _ _ _ => omega

def Closed (slots : Slots Exact) : Prop :=
  ∃ state : State Exact, layout.view? slots = some state ∧ state.trial = 0

theorem closed_slots_iff (small : n < UInt32.size) (p : Proximal n) :
    Closed p.slots ↔ p.trial = 0 := by
  have zero : p.state.trial = 0 ↔ p.trial = 0 := by
    change number (p.trial : ℝ) = number 0 ↔ _
    rw [number.injEq, Nat.cast_eq_zero]
  unfold Closed
  rw [Proximal.view?_slots small]
  simp [zero]

/-- The last of some states that has no candidate to try: the one that accepted a candidate last, or
    the first one if none was accepted. -/
structure ClosedLast (states : ℕ → Slots Exact) (count last : ℕ) : Prop where
  within : last ≤ count
  closed : Closed (states last)
  trying : ∀ i, last < i → i ≤ count → ¬Closed (states i)

theorem exists_closedLast {states : ℕ → Slots Exact} (first : Closed (states 0)) (count : ℕ) :
    ∃ last, ClosedLast states count last := by
  induction count with
  | zero => exact ⟨0, le_rfl, first, by omega⟩
  | succ count ih =>
    by_cases closed : Closed (states (count + 1))
    · exact ⟨count + 1, le_rfl, closed, by omega⟩
    · obtain ⟨last, within, kept, trying⟩ := ih
      refine ⟨last, by omega, kept, ?_⟩
      intro i after inside
      by_cases newest : i = count + 1
      · exact newest ▸ closed
      · exact trying i after (by omega)

def Reports (problem : Problem n) (model : Model Exact) : Prop :=
  ∃ point : Point n, model.coefficients = ofVector point.1 ∧ model.intercept = number point.2 ∧
    model.logLikelihood = number (-problem.objective point)

/-- What a model reports of a run after some updates: nothing before a candidate was accepted, and
    then the objective at the strength of the update that accepted the last one. -/
inductive ReportsLast (problem : ℝ → Problem n) (path : Path Exact) (states : ℕ → Slots Exact)
    (positions : ℕ → ℕ) (count : ℕ) (model : Model Exact) : Prop
  | nothing (last : ClosedLast states count 0) (coefficients : model.coefficients = Vector.zeros n)
    (intercept : model.intercept = 0) (logLikelihood : model.logLikelihood = 0)
  | accepted {i : ℕ} {weight : ℝ} (last : ClosedLast states count (i + 1))
    (stands : path.strengths[positions i - 1]? = some (number weight))
    (reports : Reports (problem weight) model)

namespace WellPosed

variable {family : Family} {run : Run Exact} (posed : WellPosed family run)
include posed

/-- From the last state without a candidate on, the accepted point and its value stay. -/
theorem trace_of_trying {positions : ℕ → ℕ} {last count : ℕ} (within : last ≤ count)
    (trying : ∀ i, last < i → i ≤ count → (trace family run positions i).trial ≠ 0) :
    (trace family run positions count).accepted = (trace family run positions last).accepted ∧
      (trace family run positions count).logLikelihood =
        (trace family run positions last).logLikelihood := by
  induction count, within using Nat.le_induction with
  | base => exact ⟨rfl, rfl⟩
  | succ i inside ih =>
    obtain ⟨point, value⟩ := ih fun k after before => trying k after (by omega)
    have total := (posed.within_trace positions i).total
    have passed := Proximal.passed_after (contextAlong run positions i) family total
    obtain ⟨kept, valued⟩ := passed.reports (trying (i + 1) (by omega) le_rfl)
    obtain ⟨same, sameValue⟩ := Proximal.resumed_reports (trace family run positions i)
      (contextAlong run positions i)
    exact ⟨(kept.trans same).trans point, (valued.trans sameValue).trans value⟩

theorem trace_of_closed {positions : ℕ → ℕ} {i : ℕ}
    (closed : (trace family run positions (i + 1)).trial = 0) :
    (trace family run positions (i + 1)).logLikelihood =
      -(problemAt family run (contextAlong run positions i).strength.value).objective
        (trace family run positions (i + 1)).accepted := by
  have within := posed.within_trace positions i
  have resumed := posed.within_resumed within (rfl : (contextAlong run positions i).maxStepSize = _)
  have passed := Proximal.passed_after (contextAlong run positions i) family within.total
  have value := passed.accepts closed
  rwa [Proximal.strength_resumed, resumed.mixing] at value

theorem strength_trace (positions : ℕ → ℕ) (i : ℕ) :
    (trace family run positions (i + 1)).strength =
      (contextAlong run positions i).strength.value := by
  have total := (posed.within_trace positions i).total
  have resumed := Proximal.strength_resumed (trace family run positions i)
    (contextAlong run positions i)
  cases Proximal.passed_after (contextAlong run positions i) family total with
  | opened _ _ keeps _ _ => exact keeps.strength.trans resumed
  | accepted _ _ keeps _ _ => exact keeps.strength.trans resumed
  | rejected _ _ keeps _ _ => exact keeps.strength.trans resumed

variable {states : ℕ → Slots Exact} {positions : ℕ → ℕ} {count : ℕ}
  (follows : run.Follows states positions count) {spreads : List Exact} {tolerance : Exact}
  {model : Model Exact}
include follows

theorem model_eq (given : (Fista.optimizer family).model (states count) spreads tolerance =
    .ok model) : model = (trace family run positions count).state.model := by
  change (layout.view (states count)).map State.model = .ok model at given
  rw [posed.states_eq follows count le_rfl, Proximal.slots,
    (readsBack (Proximal.sized _ posed.dimension_lt)).view] at given
  exact (Except.ok.inj given).symm

theorem exists_strength {i : ℕ} (before : i < count) : ∃ weight : ℝ,
    run.path.strengths[positions i - 1]? = some (number weight) ∧
      (contextAlong run positions i).strength.value = weight := by
  obtain ⟨strength, stands, _⟩ := follows.steps i before
  have nonnegative := posed.strength_nonneg positions i
  rw [contextAlong_eq stands] at nonnegative ⊢
  obtain ⟨weight, _, rfl⟩ := exists_of_nonneg nonnegative
  exact ⟨weight, stands, rfl⟩

theorem model_strength {i : ℕ} (last : count = i + 1)
    (given : (Fista.optimizer family).model (states count) spreads tolerance = .ok model) :
    run.path.strengths[positions i - 1]? = some model.strength := by
  subst last
  obtain ⟨weight, stands, strength⟩ := posed.exists_strength follows (Nat.lt_succ_self i)
  rw [posed.model_eq follows given, stands, ← strength, ← posed.strength_trace positions i]
  rfl

theorem reportsLast (given : (Fista.optimizer family).model (states count) spreads tolerance =
    .ok model) (status : Status) :
    ReportsLast (problemAt family run) run.path states positions count
      { model with status := status } := by
  have small := posed.dimension_lt
  have same := posed.states_eq follows
  have closed_iff (i : ℕ) (inside : i ≤ count) :
      Closed (states i) ↔ (trace family run positions i).trial = 0 := by
    rw [same i inside, closed_slots_iff small]
  obtain ⟨last, found⟩ := exists_closedLast ((closed_iff 0 (Nat.zero_le _)).mpr rfl) count
  obtain ⟨point, value⟩ := posed.trace_of_trying found.within fun i after inside =>
    (closed_iff i inside).not.mp (found.trying i after inside)
  rw [posed.model_eq follows given]
  cases last with
  | zero =>
    apply ReportsLast.nothing found
    · change ofVector (trace family run positions count).accepted.1 = _
      rw [point, zeros_eq]
      rfl
    · change number (trace family run positions count).accepted.2 = _
      rw [point]
      rfl
    · change number (trace family run positions count).logLikelihood = _
      rw [value]
      rfl
  | succ i =>
    have before : i < count := found.within
    obtain ⟨weight, stands, strength⟩ := posed.exists_strength follows before
    have objective := posed.trace_of_closed ((closed_iff (i + 1) before).mp found.closed)
    rw [strength] at objective
    refine .accepted found stands ⟨(trace family run positions count).accepted, rfl, rfl, ?_⟩
    change number (trace family run positions count).logLikelihood = _
    rw [value, objective, point]

/-- Of two states closer than a tolerance that trials do not meet, the second one has accepted a
    candidate. -/
theorem reports_of_close {i : ℕ} (last : count = i + 1) {distance near : Exact}
    (measured : (Fista.optimizer family).distance (states i) (states count) = .ok distance)
    (close : distance < near) (meets : near ≤ trialDistance)
    (given : (Fista.optimizer family).model (states count) spreads tolerance = .ok model)
    (status : Status) :
    ∃ weight : ℝ, run.path.strengths[positions i - 1]? = some (number weight) ∧
      Reports (problemAt family run weight) { model with status := status } := by
  subst last
  have same := posed.states_eq follows
  have closed : (trace family run positions (i + 1)).trial = 0 := by
    by_contra trying
    rw [same i (Nat.le_succ i), same (i + 1) le_rfl,
      distance_of_trying posed.dimension_lt family _ trying] at measured
    cases measured
    exact Exact.not_lt_of_le meets close
  obtain ⟨weight, stands, strength⟩ := posed.exists_strength follows (Nat.lt_succ_self i)
  have objective := posed.trace_of_closed closed
  rw [strength] at objective
  rw [posed.model_eq follows given]
  refine ⟨weight, stands, (trace family run positions (i + 1)).accepted, rfl, rfl, ?_⟩
  change number (trace family run positions (i + 1)).logLikelihood = _
  rw [objective]

omit follows in
/-- A run that is through is at its target, and reports a candidate accepted there if it
    converged. -/
theorem reports_of_through (tested : run.test.optimizer = run.pass.optimizer)
    {origin : Store (Slots Exact)} {state : RunState Exact} {total position : ℕ} {converged : Bool}
    (ended : run.Ended origin state total)
    (done : state.progress.phase = .done position converged)
    (given : (Fista.optimizer family).model (run.stateAfter total) spreads tolerance = .ok model)
    (status : Status) : model.strength = run.path.target ∧
      (converged = true → run.test.tolerance ≤ trialDistance →
        ∃ weight : ℝ, run.path.target = number weight ∧
          Reports (problemAt family run weight) { model with status := status }) := by
  have through := ended.through done
  have follows := ended.walked.follows
  obtain ⟨i, rfl⟩ := Nat.exists_eq_add_one.mpr ended.positive
  have stands : run.positionAfter i = run.path.size := through.stands
  have target := run.path.target_eq
  rw [← stands] at target
  constructor
  · have strength := posed.model_strength follows rfl given
    exact Option.some.inj (strength.symm.trans target)
  · rintro rfl meets
    have stops := ended.stops
    rw [done] at stops
    cases stops with
    | converged _ _ measured below =>
      rw [tested, posed.optimizer] at measured
      obtain ⟨weight, strength, reports⟩ :=
        posed.reports_of_close follows rfl measured below meets given status
      exact ⟨weight, Option.some.inj (target.symm.trans strength), reports⟩

theorem goes {i : ℕ} (before : i < count) : Run.Goes (states (i + 1)) := by
  have written : Status.ofSlot (Status.inProcess.slot : Exact) = .inProcess :=
    Status.ofSlot_slot nofun
  refine ⟨.inProcess, ?_, nofun, nofun⟩
  rw [posed.states_eq follows (i + 1) before, Proximal.slots, statusLast.read_status]
  exact congrArg Except.ok written

omit follows in
theorem isFailed_eq_false {origin : Store (Slots Exact)} {state : RunState Exact} {total : ℕ}
    (ended : run.Ended origin state total) (single : run.path.size = 1) :
    state.progress.phase.isFailed = false := by
  have follows := ended.walked.follows
  obtain ⟨i, rfl⟩ := Nat.exists_eq_add_one.mpr ended.positive
  obtain ⟨status, told, going, filled⟩ := posed.goes follows (Nat.lt_succ_self i)
  have first : 1 ≤ run.positionAfter i := run.positionAfter_mono (Nat.zero_le i)
  have stops := ended.stops
  cases phase : state.progress.phase with
  | start | atPosition _ _ | done _ _ => rfl
  | failed failure position =>
    rw [phase] at stops
    cases stops with
    | diverged terminated => exact absurd (Except.ok.inj (told.symm.trans terminated)) going
    | nothingToFit empty => exact absurd (Except.ok.inj (told.symm.trans empty)) filled
    | unreached _ before _ =>
      have earlier : run.positionAfter i < run.path.size := before
      omega

theorem not_closed_one (once : 1 ≤ count) : ¬Closed (states 1) := by
  have total := (posed.within_trace positions 0).total
  have gathers : ((trace family run positions 0).resumed (contextAlong run positions 0)).trial =
      0 := by
    unfold Proximal.resumed
    split
    · rfl
    · rfl
  rw [posed.states_eq follows 1 once, closed_slots_iff posed.dimension_lt]
  cases Proximal.passed_after (contextAlong run positions 0) family total with
  | opened _ next _ _ _ => exact next.trans_ne Nat.one_ne_zero
  | accepted trial _ _ _ _ => exact absurd gathers trial
  | rejected rejects _ _ _ _ =>
    exact absurd ((Proximal.trial_gathered _ _ _).trans gathers) rejects.1

end WellPosed

end ElasticNet.Fista
