import ElasticNet.Proofs.Reliable
import ElasticNet.Proofs.Scales.Measure
import ElasticNet.Proofs.Scales.Units
import ElasticNet.Train

namespace ElasticNet

variable {α : Type} [Scalar α]

namespace Train

open Command

def fittedSource (source : Source α) (standardize center : Bool) : Source α :=
  if standardize ∧ 0 < source.completeCount then
    (Scales.measure source).standardized center source
  else source

def fitInput (source : Source α) (base : StepContext α) (standardize center : Bool) :
    FitInput α :=
  let fitted := fittedSource source standardize center
  let fittedScales := if standardize then Scales.measure fitted else Scales.measure source
  { source := fitted
    scales := Scales.measure source
    context := { base with
      totalRows := fittedScales.complete
      means := fittedScales.means
      responseMean := fittedScales.responseMean } }

theorem prepare_eq_ok (source : Source α) (base : StepContext α) (standardize center : Bool) :
    prepare source base standardize center = .ok (fitInput source base standardize center) := by
  unfold prepare fitInput fittedSource
  dsimp only
  rw [Scales.complete_measure]
  split
  · rw [Scales.standardize_eq_ok (Scales.length_means source)]
    rfl
  · rfl

theorem dimension_fittedSource (source : Source α) (standardize center : Bool) :
    (fittedSource source standardize center).dimension = source.dimension := by
  unfold fittedSource
  split
  · rfl
  · rfl

theorem rowCount_fittedSource (source : Source α) (standardize center : Bool) :
    (fittedSource source standardize center).rowCount = source.rowCount := by
  unfold fittedSource Source.rowCount
  split
  · rw [Scales.rows_standardized, List.length_map]
  · rfl

theorem totalRows_fitInput (source : Source α) (base : StepContext α) (standardize center : Bool) :
    (fitInput source base standardize center).context.totalRows =
      (fittedSource source standardize center).completeCount := by
  unfold fitInput
  dsimp only
  cases standardize with
  | true => exact Scales.complete_measure _
  | false =>
    have raw : fittedSource source false center = source := if_neg fun asked => nomatch asked.1
    rw [raw]
    exact Scales.complete_measure source

theorem length_means_fitInput (source : Source α) (base : StepContext α)
    (standardize center : Bool) :
    (fitInput source base standardize center).context.means.length = source.dimension := by
  unfold fitInput
  dsimp only
  split
  · exact (Scales.length_means _).trans (dimension_fittedSource source standardize center)
  · exact Scales.length_means source

theorem fittedSource_of_none {source : Source α} (none : source.completeCount = 0)
    (standardize center : Bool) : fittedSource source standardize center = source := by
  apply if_neg
  rintro ⟨_, some⟩
  omega

def fitRun (plan : Plan α) (group : Option String) (source : Source α) : Run α :=
  let input := fitInput source plan.base plan.options.standardize plan.center
  { group := group
    path := plan.path
    pass := plan.pass
    test := plan.test
    context := input.context
    source := input.source
    budget := plan.options.budget }

structure Plan.Sure (plan : Plan α) (dimension : Nat) (Sound : Slots α → Prop) : Prop where
  reliable : plan.pass.optimizer.Reliable dimension Sound
  tested : plan.test.optimizer = plan.pass.optimizer
  base : plan.base.dimension = dimension
  paid : 0 < plan.options.budget

theorem Plan.Sure.fitRun {plan : Plan α} {dimension : Nat} {Sound : Slots α → Prop}
    (sure : plan.Sure dimension Sound) (group : Option String) {source : Source α}
    (fitting : source.dimension = dimension) :
    (fitRun plan group source).OnReliable dimension Sound where
  reliable := sure.reliable
  tested := sure.tested
  context := sure.base
  means := (length_means_fitInput source _ _ _).trans fitting
  source := (dimension_fittedSource source _ _).trans fitting
  paid := sure.paid

structure Reported (group : Option String) (progress : Progress) (scales : Scales α)
    (row : ElasticNet.Report α) : Prop where
  group : row.group = group
  processed : row.processed = scales.complete
  skipped : row.skipped = scales.incomplete
  isNull : row.isNull = progress.phase.isFailed
  message : ∀ failure position, progress.phase = .failed failure position →
    row.message = failure.message

theorem finalModel_eq_ok {optimizer : Optimizer α} {dimension : Nat} {Sound : Slots α → Prop}
    (reliable : optimizer.Reliable dimension Sound) (options : TrainOptions α) (center : Bool)
    {run : Run α} (own : run.pass.optimizer = optimizer) {state : RunState α} {slots : Slots α}
    (current : run.current state = .ok slots) (sound : Sound slots) {input : FitInput α}
    (spreads : input.scales.spreads.length = dimension) (converged : Bool) :
    ∃ model, finalModel options center run state input converged = .ok model := by
  have fitting : (if options.standardize then Vector.ones input.scales.spreads.length
      else input.scales.spreads : List α).length = dimension := by
    split
    · exact List.length_replicate.trans spreads
    · exact spreads
  obtain ⟨model, given, sized⟩ := reliable.model sound _ options.tolerance fitting
  have status : (if converged then Status.completed else Status.inProcess) ≠ .empty := by
    split
    · exact nofun
    · exact nofun
  unfold finalModel
  dsimp only
  rw [current, ok_bind, own, given, ok_bind]
  split
  · exact ⟨_, Scales.restore_eq_ok { model with status := _ } status (sized.trans spreads.symm)
      center⟩
  · exact ⟨_, rfl⟩

theorem report_of_failed (options : TrainOptions α) (center : Bool) (run : Run α)
    {state : RunState α} {failure : Failure} {position : Nat}
    (failed : state.progress.phase = .failed failure position) (input : FitInput α) :
    report options center run state input = .ok { Report.empty with
      group := run.group
      processed := input.scales.complete
      skipped := input.scales.incomplete
      iterations := state.progress.iterations
      position := position
      message := failure.message } := by
  unfold report
  rw [failed]
  rfl

theorem report_of_done {options : TrainOptions α} {center : Bool} {run : Run α}
    {state : RunState α} {position : Nat} {converged : Bool}
    (done : state.progress.phase = .done position converged) {input : FitInput α} {model : Model α}
    (given : finalModel options center run state input converged = .ok model) :
    report options center run state input = .ok {
      group := run.group
      isNull := false
      converged := converged
      model := model
      processed := input.scales.complete
      skipped := input.scales.incomplete
      iterations := state.progress.iterations
      position := position
      message := "" } := by
  unfold report
  rw [done]
  dsimp only
  rw [given]
  rfl

theorem report_eq_ok {optimizer : Optimizer α} {dimension : Nat} {Sound : Slots α → Prop}
    (reliable : optimizer.Reliable dimension Sound) (options : TrainOptions α) (center : Bool)
    {run : Run α} (own : run.pass.optimizer = optimizer) {state : RunState α}
    (terminal : state.progress.phase.isTerminal = true) {slots : Slots α}
    (current : run.current state = .ok slots) (sound : Sound slots) {input : FitInput α}
    (spreads : input.scales.spreads.length = dimension) :
    ∃ row, report options center run state input = .ok row ∧
      Reported run.group state.progress input.scales row := by
  cases ended : state.progress.phase with
  | start =>
    rw [ended] at terminal
    cases terminal
  | atPosition position updates =>
    rw [ended] at terminal
    cases terminal
  | done position converged =>
    obtain ⟨model, given⟩ :=
      finalModel_eq_ok reliable options center own current sound spreads converged
    refine ⟨_, report_of_done ended given, rfl, rfl, rfl, ?_, ?_⟩
    · rw [ended]
      rfl
    · rw [ended]
      exact nofun
  | failed failure position =>
    refine ⟨_, report_of_failed options center run ended input, rfl, rfl, rfl, ?_, ?_⟩
    · rw [ended]
      rfl
    · rw [ended]
      rintro _ _ ⟨⟩
      rfl

section Congruence

variable {options other : TrainOptions α} (standardize : other.standardize = options.standardize)
  (tolerance : other.tolerance = options.tolerance) (center : Bool) {run otherRun : Run α}
  {state otherState : RunState α} (own : otherRun.pass.optimizer = run.pass.optimizer)
  (progress : otherState.progress = state.progress)
  (current : otherRun.current otherState = run.current state) {input otherInput : FitInput α}
  (scales : otherInput.scales = input.scales)
include standardize tolerance own current scales

theorem finalModel_congr (converged : Bool) :
    finalModel other center otherRun otherState otherInput converged =
      finalModel options center run state input converged := by
  unfold finalModel
  rw [standardize, tolerance, own, current, scales]

include progress

theorem report_congr (group : otherRun.group = run.group) :
    report other center otherRun otherState otherInput = report options center run state input := by
  unfold report
  simp only [finalModel_congr standardize tolerance center own current scales, progress, group,
    scales]

theorem report_regroup : report other center otherRun otherState otherInput =
    (report options center run state input).map fun row =>
      { row with group := otherRun.group } := by
  unfold report
  simp only [finalModel_congr standardize tolerance center own current scales, progress, scales]
  cases state.progress.phase with
  | done position converged =>
    dsimp only
    cases finalModel options center run state input converged with
    | ok model => rfl
    | error error => rfl
  | start | atPosition _ _ | failed _ _ => rfl

end Congruence

theorem report_incomplete (options : TrainOptions α) (center : Bool) (run : Run α)
    (state : RunState α) (input : FitInput α) (incomplete : Nat) :
    report options center run state
      { input with scales := { input.scales with incomplete := incomplete } } =
      (report options center run state input).map fun row =>
        { row with skipped := incomplete } := by
  unfold report
  cases state.progress.phase with
  | done position converged =>
    change (do
      let model ← finalModel options center run state input converged
      _) = _
    dsimp only
    cases finalModel options center run state input converged with
    | ok model => rfl
    | error error => rfl
  | start | atPosition _ _ | failed _ _ => rfl

end Train

end ElasticNet
