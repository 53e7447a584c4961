import ElasticNet.Proofs.Scales.Shares
import ElasticNet.Proofs.Scales.UnitChange
import ElasticNet.Proofs.Train.Alike

namespace ElasticNet

structure UnitChange.CarriesRow (change : UnitChange) (row other : Report Exact) : Prop where
  fitted : row.isNull = false ∧ other.isNull = false
  converged : other.converged = row.converged
  iterations : other.iterations = row.iterations
  position : other.position = row.position
  model : change.CarriesModel row.model other.model

namespace Train

open Command Exact

variable (change : UnitChange)

section Checks

variable (source : Source Exact)

theorem completeCount_units : (change.source source).completeCount = source.completeCount := by
  rw [← source.length_samples, ← Source.length_samples]
  exact (congrArg List.length (change.samples_source source)).trans (List.length_map _)

theorem checkRows_units : checkRows (change.source source) = checkRows source := by
  have none : (change.source source).partitions.isEmpty = source.partitions.isEmpty :=
    List.isEmpty_map
  have rows : (change.source source).rowCount = source.rowCount := by
    unfold Source.rowCount
    rw [change.rows_source, List.length_map]
  rw [checkRows_eq, checkRows_eq, completeCount_units, none, rows]
  rfl

theorem checkResponses_units {family : Family} (kept : family = .binomial → change.shift = 0) :
    EndAlike Eq (checkResponses family source) (checkResponses family (change.source source)) := by
  refine checkResponses_alike fun binomial => ?_
  rw [change.rows_source, List.any_map]
  congr 1
  funext row
  have response : (change.row row).response = row.response := by
    change row.response + number change.shift = row.response
    rw [kept binomial]
    exact Exact.add_zero row.response
  change isNoClass (change.row row) = isNoClass row
  unfold isNoClass
  rw [change.isComplete_row, response]

variable {source} in
theorem layPath_units (some : source.samples ≠ []) {options : TrainOptions Exact}
    (standardize : options.standardize = true) (params : Params Exact) :
    layPath options params (Scales.measure (change.source source)) =
      layPath options params (Scales.measure source) := by
  have moments : (Scales.measure (change.source source)).meanSquares.length =
      (Scales.measure source).meanSquares.length :=
    (Scales.length_meanSquares _).trans (Scales.length_meanSquares source).symm
  unfold layPath
  simp only [standardize, if_true, change.responseSpread_source some, moments]

end Checks

theorem restore_units {change : UnitChange} {scales other : Scales Exact} {n : ℕ}
    {means spreads : Fin n → ℝ} {mean : ℝ}
    (relates : change.Relates scales other means spreads mean) {center : Bool}
    (kept : center = false → change.shift = 0) {model : Model Exact}
    (fitted : model.status ≠ .empty) :
    EndAlike change.CarriesModel (scales.restore center model) (other.restore center model) := by
  have length : scales.spreads.length = n := by
    rw [relates.numeric.spreads, length_ofVector]
  have otherLength : other.spreads.length = n := by
    rw [relates.otherNumeric.spreads, length_ofVector]
  by_cases sized : model.coefficients.length = n
  · rw [Scales.restore_eq_ok model fitted (sized.trans length.symm),
      Scales.restore_eq_ok model fitted (sized.trans otherLength.symm)]
    exact .ok (relates.carries_restored center sized kept)
  · unfold Scales.restore
    rw [if_neg fitted, if_neg fitted, length, otherLength, if_pos sized, if_pos sized]
    exact .error rfl

section Report

variable {change} {options : TrainOptions Exact} (standardize : options.standardize = true)
  {input otherInput : FitInput Exact} {n : ℕ} {means spreads : Fin n → ℝ} {mean : ℝ}
  (relates : change.Relates input.scales otherInput.scales means spreads mean) {center : Bool}
  (kept : center = false → change.shift = 0) {run otherRun : Run Exact} {state : RunState Exact}
  (own : otherRun.pass.optimizer = run.pass.optimizer)
  (current : otherRun.current state = run.current state)
include standardize relates kept own current

theorem finalModel_units (converged : Bool) : EndAlike change.CarriesModel
    (finalModel options center run state input converged)
    (finalModel options center otherRun state otherInput converged) := by
  have spreads : otherInput.scales.spreads.length = input.scales.spreads.length := by
    rw [relates.numeric.spreads, relates.otherNumeric.spreads, length_ofVector, length_ofVector]
  have status : (if converged then Status.completed else Status.inProcess) ≠ .empty := by
    split
    · exact nofun
    · exact nofun
  unfold finalModel
  simp only [standardize, if_true, own, current, spreads]
  cases run.current state with
  | error error => exact .error rfl
  | ok slots =>
    rw [ok_bind, ok_bind]
    cases run.pass.optimizer.model slots (Vector.ones input.scales.spreads.length)
        options.tolerance with
    | error error => exact .error rfl
    | ok fitted => exact restore_units relates kept status

theorem report_units (done : state.progress.phase.isDone = true) :
    EndAlike change.CarriesRow (report options center run state input)
      (report options center otherRun state otherInput) := by
  cases stands : state.progress.phase with
  | start | atPosition _ _ | failed _ _ =>
    rw [stands] at done
    cases done
  | done position converged =>
    have models := finalModel_units standardize relates kept own current converged
    unfold report
    rw [stands]
    dsimp only
    generalize finalModel options center run state input converged = first at models ⊢
    generalize finalModel options center otherRun state otherInput converged = second at models ⊢
    cases models with
    | error kind => exact .error kind
    | ok carried => exact .ok ⟨⟨rfl, rfl⟩, rfl, rfl, rfl, carried⟩

end Report

section Fit

variable {change} {source : Source Exact} (some : source.completeCount ≠ 0)
  (varies : (Scales.measure source).Varies)
  (otherVaries : (Scales.measure (change.source source)).Varies)
include some varies otherVaries

variable {center : Bool} (kept : center = false → change.shift = 0)
include kept

theorem complete_fittedSource_units :
    (fittedSource (change.source source) true center).partitions.map Partition.complete =
      (fittedSource source true center).partitions.map Partition.complete := by
  obtain ⟨_, _, _, relates⟩ :=
    change.relates_measure (source.samples_ne_nil some) varies otherVaries
  have fitted {source : Source Exact} (some : source.completeCount ≠ 0) :
      fittedSource source true center = (Scales.measure source).standardized center source :=
    if_pos ⟨rfl, Nat.pos_of_ne_zero some⟩
  rw [fitted some, fitted (completeCount_units change source ▸ some)]
  exact relates.complete_standardized kept rfl

theorem context_fitInput_units (base : StepContext Exact) :
    (fitInput (change.source source) base true center).context =
      (fitInput source base true center).context := by
  have dimension : (fittedSource (change.source source) true center).dimension =
      (fittedSource source true center).dimension := by
    rw [dimension_fittedSource, dimension_fittedSource]
    rfl
  have scales := Scales.measure_of_shares dimension
    (congrArg withoutEmpty (complete_fittedSource_units some varies otherVaries kept))
  unfold fitInput
  simp only [if_true, scales]

end Fit

theorem trainAll_units {plan : Plan Exact} (paid : 0 < plan.options.budget)
    (standardize : plan.options.standardize = true) (some : plan.source.completeCount ≠ 0)
    (varies : (Scales.measure plan.source).Varies)
    (otherVaries : (Scales.measure (change.source plan.source)).Varies)
    (kept : plan.center = false → change.shift = 0) (told otherTold : TrainState Exact) :
    FitAlike change.CarriesRow told otherTold (Command.result (trainAll plan) told)
      (Command.result (trainAll { plan with source := change.source plan.source }) otherTold) := by
  obtain ⟨_, _, _, relates⟩ :=
    change.relates_measure (plan.source.samples_ne_nil some) varies otherVaries
  refine trainAll_of_complete paid ?_ ?_ (fun done => ?_) told otherTold
  · rw [standardize]
    exact complete_fittedSource_units some varies otherVaries kept
  · rw [standardize]
    exact context_fitInput_units some varies otherVaries kept plan.base
  · exact report_units standardize relates kept rfl rfl done

/-- Training in standard units does not depend on the units of the data. Whether features are scaled
    and shifted, or the response of a Gaussian family is shifted, the path is the same, and training
    fails with the same kind of error, or writes the row of the same model in other units. -/
theorem units_carried (change : UnitChange) {source : Source Exact} {options : TrainOptions Exact}
    (single : options.grouped = false) (standardize : options.standardize = true)
    (kept : Family.ofName? options.family = some .binomial → change.shift = 0)
    (varies : (Scales.measure source).Varies)
    (otherVaries : (Scales.measure (change.source source)).Varies)
    (state otherState : TrainState Exact) :
    EndAlike (fun plan other => other.path = plan.path)
      (Command.result (plan (some source) options) state).1
      (Command.result (plan (some (change.source source)) options) otherState).1 ∧
    FitAlike change.CarriesRow state otherState
      (Command.result (train (some source) options) state)
      (Command.result (train (some (change.source source)) options) otherState) := by
  have params : EndAlike SameButFolding
      (Params.parse options.params options.method : Except _ (Params Exact))
      (Params.parse options.params options.method) :=
    (EndAlike.of_eq rfl).mono (by rintro _ _ rfl; rfl)
  have plans : Alike Plan.Alike (plan (some source) options)
      (plan (some (change.source source)) options) := by
    refine plan_alike params (fun _ => rfl) (EndAlike.of_eq (checkRows_units change source)) ?_ ?_
    · intro family passed
      refine checkResponses_units change source fun binomial => kept ?_
      rw [(checkOptions_eq_ok_iff.mp passed).named, binomial]
    · intro passed params
      obtain ⟨_, complete⟩ := checkRows_eq_ok passed
      exact congrArg Prod.fst
        (layPath_units change (source.samples_ne_nil complete) standardize params)
  refine ⟨(plans state otherState).mono fun _ _ alike => alike.path,
    train_alike single single plans ?_⟩
  intro laidOut otherLaidOut told otherTold alike laid otherLaid
  obtain rfl := eq_of_laid alike laid otherLaid
  obtain ⟨_, family, _, _, _, _, ⟨⟩, checked, rfl⟩ := plan_eq_ok laid
  obtain ⟨named, _, _, paid, _⟩ := checkOptions_eq_ok_iff.mp checked.optionsPass
  obtain ⟨_, complete⟩ := checkRows_eq_ok checked.rowsPass
  refine trainAll_units change (Nat.pos_of_ne_zero paid) standardize complete varies otherVaries ?_
    told otherTold
  intro uncentered
  cases family with
  | gaussian => cases uncentered
  | binomial => exact kept named

def twoRows : Source Exact where
  dimension := 1
  partitions := [⟨1, [⟨[number 0], number 2, ""⟩, ⟨[number 2], number 5, ""⟩], by simp⟩]
  uniform := by simp

noncomputable def halvedUnits : UnitChange where
  factor _ := 2
  offset _ := 1
  shift := 3
  positive _ := two_pos

theorem samples_twoRows : twoRows.samples = [⟨fun _ => 0, 2⟩, ⟨fun _ => 2, 5⟩] := by
  change [Row.sample 1 ⟨[number 0], number 2, ""⟩, Row.sample 1 ⟨[number 2], number 5, ""⟩] = _
  rw [Row.sample_eq (x := fun _ => 0) (y := 2) rfl rfl,
    Row.sample_eq (x := fun _ => 2) (y := 5) rfl rfl]
  rfl

theorem average_twoRows (j : Fin twoRows.dimension) :
    average twoRows.samples (fun s => s.features j) = 1 := by
  rw [samples_twoRows]
  unfold average
  norm_num

theorem deviation_twoRows (j : Fin twoRows.dimension) :
    deviation twoRows.samples (fun s => s.features j) = 1 := by
  rw [samples_twoRows]
  unfold deviation average
  norm_num

theorem twoRows_in_halvedUnits :
    (Scales.measure twoRows).Varies ∧ (Scales.measure (halvedUnits.source twoRows)).Varies ∧
    ∀ state otherState,
      EndAlike (fun plan other => other.path = plan.path)
        (Command.result (plan (some twoRows) defaultOptions) state).1
        (Command.result (plan (some (halvedUnits.source twoRows)) defaultOptions) otherState).1 ∧
      FitAlike halvedUnits.CarriesRow state otherState
        (Command.result (train (some twoRows) defaultOptions) state)
        (Command.result (train (some (halvedUnits.source twoRows)) defaultOptions) otherState) := by
  have filled : twoRows.samples ≠ [] := by
    rw [samples_twoRows]
    exact List.cons_ne_nil _ _
  have varies : (Scales.measure twoRows).Varies := by
    obtain ⟨means, spreads, responseMean, _⟩ := Scales.ofSamples_measure filled
    rw [UnitChange.varies_iff ⟨means, spreads, responseMean⟩]
    intro j
    rw [Scales.isCloseToZero_number, average_twoRows, deviation_twoRows]
    norm_num
  have otherVaries : (Scales.measure (halvedUnits.source twoRows)).Varies := by
    rw [UnitChange.varies_iff (halvedUnits.numeric_source filled)]
    intro j
    unfold UnitChange.point halvedUnits
    dsimp only
    rw [Scales.isCloseToZero_number, average_twoRows, deviation_twoRows]
    norm_num
  have gaussian : Family.ofName? "gaussian" = some .gaussian := by decide +kernel
  refine ⟨varies, otherVaries, fun state otherState => ?_⟩
  refine units_carried halvedUnits rfl rfl ?_ varies otherVaries state otherState
  intro binomial
  cases gaussian.symm.trans binomial

end Train

end ElasticNet
