import ElasticNet.Proofs.Reliable
import ElasticNet.Proofs.Vouching

namespace ElasticNet.Fista

variable {α : Type} [Scalar α]

namespace State

def resumed (state : State α) (context : StepContext α) : State α :=
  if state.strength != context.strength then state.restart context else state

def cleared (state : State α) : State α :=
  { state with
    gradient := [], interceptGradient := 0, candidateValue := 0, momentumValue := 0, rows := 0,
    status := 0 }

/-- The state without what is computed from accumulators. -/
def course (state : State α) : State α :=
  { state.cleared with candidate := [], candidateIntercept := 0, logLikelihood := 0 }

structure SamePoint (state other : State α) : Prop where
  coefficients : other.coefficients = state.coefficients
  intercept : other.intercept = state.intercept
  logLikelihood : other.logLikelihood = state.logLikelihood

omit [Scalar α] in
theorem SamePoint.refl (state : State α) : state.SamePoint state := ⟨rfl, rfl, rfl⟩

omit [Scalar α] in
theorem SamePoint.trans {first second third : State α} (before : first.SamePoint second)
    (after : second.SamePoint third) : first.SamePoint third :=
  ⟨after.coefficients.trans before.coefficients, after.intercept.trans before.intercept,
    after.logLikelihood.trans before.logLikelihood⟩

theorem samePoint_resumed (state : State α) (context : StepContext α) :
    state.SamePoint (state.resumed context) := by
  unfold resumed
  split
  · exact ⟨rfl, rfl, rfl⟩
  · exact .refl state

theorem cleared_begin (state : State α) (context : StepContext α) :
    (state.begin context).cleared = (state.resumed context).cleared := by
  unfold begin resumed
  dsimp only
  split
  · split
    · rfl
    · rfl
  · split
    · rfl
    · rfl

theorem cleared_transition (family : Family) (state : State α) (features : List α) (response : α) :
    (state.transition family features response).cleared = state.cleared := by
  unfold transition
  dsimp only
  split
  · rfl
  · rfl

theorem cleared_combine (left right : State α) : (left.combine right).cleared = left.cleared := by
  unfold combine
  dsimp only
  split
  · rfl
  · rfl

theorem cleared_gather (family : Family) (mode : PassMode) (state : State α)
    (context : StepContext α) (partitions : List (Partition α)) :
    ((kernel family).gather mode state context partitions).cleared =
      (state.resumed context).cleared := by
  refine (kernel family).gather_induction
    (fun gathered : State α => gathered.cleared = (state.resumed context).cleared)
    (cleared_begin state context) ?_ ?_ mode partitions
  · intro gathered row same
    exact (cleared_transition family gathered row.features row.response).trans same
  · intro left right same other
    change (left.merge right).cleared = _
    unfold merge
    split
    · exact same
    · split
      · exact other
      · exact (cleared_combine left right).trans same

end State

/-- What a pass makes of the state that it resumes. -/
inductive Outcome (before after : State α) : Prop
  | idle (status : after.status = Status.empty.slot) (point : before.SamePoint after)
      (course : after.course = before.course)
  | opened (gathers : before.trials = 0) (point : before.SamePoint after)
      (course : after.course = { before.course with trial := 1 })
  | accepted (tries : before.trials ≠ 0) (course : after.course = before.accept.course)
  | rejected (tries : before.trials ≠ 0) (point : before.SamePoint after)
      (course : after.course =
        { before.course with
          trial := before.trial + 1, stepSize := before.stepSize / before.eta })

namespace State

def valued (state : State α) (total : α) : State α :=
  { state with
    candidateValue := state.smoothValue total state.candidateValue state.candidate
    momentumValue :=
      if state.trials = 1 then state.smoothValue total state.momentumValue state.momentum
      else state.momentumValue }

/-- The model around the momentum point bounds what the pass has found at the candidate. -/
def Acceptable (state : State α) : Prop :=
  let judged := state.valued (Scalar.ofCount (Scalar.toUInt64 state.totalRows))
  judged.candidateValue ≤ judged.momentumValue + judged.modelIncrement

theorem exists_finalize_of_tries {state : State α} (some : Scalar.toUInt64 state.rows ≠ 0)
    (tries : state.trials ≠ 0) : ∃ total status : α,
      (state.Acceptable → state.finalize = { (state.valued total).accept with status := status }) ∧
      (¬state.Acceptable →
        state.finalize = { (state.valued total).reject with status := status }) := by
  let total : α := Scalar.ofCount (Scalar.toUInt64 state.totalRows)
  have ended : ∃ status : α,
      state.finalize = { state.finishTrial total with status := status } := by
    unfold finalize
    rw [if_neg some]
    dsimp only
    rw [if_neg tries]
    exact ⟨_, rfl⟩
  obtain ⟨status, ended⟩ := ended
  refine ⟨total, status, fun acceptable => ?_, fun unacceptable => ?_⟩
  · have accepted : state.finishTrial total = (state.valued total).accept := if_pos acceptable
    rw [ended, accepted]
  · have rejected : state.finishTrial total = (state.valued total).reject := if_neg unacceptable
    rw [ended, rejected]

section Cleared

variable {before next : State α} (same : next.cleared = before.cleared)
include same

theorem samePoint_of_cleared : before.SamePoint next :=
  ⟨(congrArg coefficients same :), (congrArg intercept same :), (congrArg logLikelihood same :)⟩

theorem trials_of_cleared : next.trials = before.trials :=
  (congrArg trials same :)

theorem course_of_cleared : next.course = before.course :=
  congrArg (fun state =>
    { state with candidate := [], candidateIntercept := 0, logLikelihood := 0 }) same

theorem course_accept : next.accept.course = before.accept.course :=
  (congrArg (fun state => state.accept.course) same :)

theorem course_reject : next.reject.course =
    { before.course with trial := before.trial + 1, stepSize := before.stepSize / before.eta } :=
  congrArg (fun state => { state with
    candidate := [], candidateIntercept := 0, logLikelihood := 0,
    trial := state.trial + 1, stepSize := state.stepSize / state.eta }) same

theorem outcome_finalize : Outcome before next.finalize := by
  have point := samePoint_of_cleared same
  have course := course_of_cleared same
  have trials := trials_of_cleared same
  by_cases none : Scalar.toUInt64 next.rows = 0
  · unfold finalize
    rw [if_pos none]
    exact .idle rfl ⟨point.coefficients, point.intercept, point.logLikelihood⟩ course
  by_cases gathers : next.trials = 0
  · unfold finalize
    rw [if_neg none]
    dsimp only
    rw [if_pos gathers]
    refine .opened (trials.symm.trans gathers)
      ⟨point.coefficients, point.intercept, point.logLikelihood⟩ ?_
    rw [← course]
    rfl
  obtain ⟨total, status, accepts, rejects⟩ := exists_finalize_of_tries none gathers
  have kept : (next.valued total).cleared = before.cleared := same
  by_cases acceptable : next.Acceptable
  · have judged : State.course { (next.valued total).accept with status := status } =
        (next.valued total).accept.course := rfl
    rw [accepts acceptable]
    exact .accepted (trials ▸ gathers) (judged.trans (course_accept kept))
  · have judged : State.course { (next.valued total).reject with status := status } =
        (next.valued total).reject.course := rfl
    rw [rejects acceptable]
    exact .rejected (trials ▸ gathers)
      ⟨point.coefficients, point.intercept, point.logLikelihood⟩
      (judged.trans (course_reject kept))

end Cleared

/-- A pass keeps, opens, accepts or rejects, starting from the state that it resumes. -/
theorem outcome_pass (family : Family) (mode : PassMode) (state : State α)
    (context : StepContext α) (partitions : List (Partition α)) :
    Outcome (state.resumed context) ((kernel family).pass mode state context partitions) :=
  outcome_finalize (cleared_gather family mode state context partitions)

end State

end ElasticNet.Fista
