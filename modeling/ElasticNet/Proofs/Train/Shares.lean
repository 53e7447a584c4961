import ElasticNet.Proofs.Scales.Shares
import ElasticNet.Proofs.Shares
import ElasticNet.Proofs.Train.Alike

namespace ElasticNet.Train

variable {α : Type} [Scalar α]

section Fitted

variable {source other : Source α} (dimension : other.dimension = source.dimension)
  (shares : other.shares = source.shares) (standardize center : Bool)
include dimension shares

theorem shares_fittedSource : (fittedSource other standardize center).shares =
    (fittedSource source standardize center).shares := by
  unfold fittedSource
  rw [other.completeCount_eq, source.completeCount_eq, shares]
  split
  · rw [Scales.shares_standardized, Scales.shares_standardized, shares,
      Scales.measure_of_shares dimension shares]
    rfl
  · exact shares

omit shares in
theorem complete_fittedSource (complete : other.partitions.map Partition.complete =
    source.partitions.map Partition.complete) :
    (fittedSource other standardize center).partitions.map Partition.complete =
      (fittedSource source standardize center).partitions.map Partition.complete := by
  have shares : other.shares = source.shares := congrArg withoutEmpty complete
  unfold fittedSource
  rw [other.completeCount_eq, source.completeCount_eq, shares]
  split
  · rw [Scales.complete_standardized, Scales.complete_standardized, complete,
      Scales.measure_of_shares dimension shares]
    rfl
  · exact complete

theorem context_fitInput_of_shares (base : StepContext α) :
    (fitInput other base standardize center).context =
      (fitInput source base standardize center).context := by
  have same : (fittedSource other standardize center).dimension =
      (fittedSource source standardize center).dimension := by
    rw [dimension_fittedSource, dimension_fittedSource, dimension]
  have fitted :=
    Scales.measure_of_shares same (shares_fittedSource dimension shares standardize center)
  have scales := Scales.measure_of_shares dimension shares
  unfold fitInput
  dsimp only
  split
  · rw [fitted]
  · rw [scales]

theorem report_of_shares {options : TrainOptions α} {run otherRun : Run α}
    {state otherState : RunState α} (own : otherRun.pass.optimizer = run.pass.optimizer)
    (progress : otherState.progress = state.progress)
    (current : otherRun.current otherState = run.current state)
    (group : otherRun.group = run.group) (base : StepContext α) :
    report options center otherRun otherState (fitInput other base standardize center) =
      (report options center run state (fitInput source base standardize center)).map
        fun row => { row with skipped := other.incompleteCount } := by
  rw [← report_incomplete]
  exact report_congr rfl rfl center own progress current (Scales.measure_of_shares dimension shares)
    group

end Fitted

section Runs

variable {plan : Plan α} {dimension : Nat} {Sound : Slots α → Prop}
  (sure : plan.Sure dimension Sound) (sees : plan.pass.optimizer.SeesShares dimension Sound)
  (group : Option String) {source other : Source α} (fitting : source.dimension = dimension)
  (otherFitting : other.dimension = dimension) (shares : other.shares = source.shares)
include sure sees fitting otherFitting shares

theorem sameLoop_of_shares : (fitRun plan group source).SameLoop (fitRun plan group other) := by
  have same : other.dimension = source.dimension := otherFitting.trans fitting.symm
  have context : (fitRun plan group other).context = (fitRun plan group source).context :=
    context_fitInput_of_shares same shares _ _ plan.base
  refine (sure.fitRun group fitting).sameLoop rfl rfl (fun strength => ?_) fun sound strength => ?_
  · rw [context]
    rfl
  · rw [context]
    exact sees sound plan.pass.mode _ ((dimension_fittedSource _ _ _).trans fitting)
      ((dimension_fittedSource _ _ _).trans otherFitting) (shares_fittedSource same shares _ _)

theorem lastState_of_shares :
    (lastState plan group other).progress = (lastState plan group source).progress ∧
    (fitRun plan group other).current (lastState plan group other) =
      (fitRun plan group source).current (lastState plan group source) := by
  have safe := sure.fitRun group fitting
  have otherSafe := sure.fitRun group otherFitting
  have same := sameLoop_of_shares sure sees group fitting otherFitting shares
  exact (same.alone rfl safe.paid safe.answers otherSafe.answers).2

theorem endReport_of_shares : endReport plan group other =
    (endReport plan group source).map fun row =>
      { row with skipped := other.incompleteCount } := by
  obtain ⟨progress, current⟩ :=
    lastState_of_shares sure sees group fitting otherFitting shares
  exact report_of_shares (otherFitting.trans fitting.symm) shares _ _ rfl progress current rfl _

end Runs

end ElasticNet.Train
