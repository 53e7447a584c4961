import ElasticNet.Proofs.Fista.Accepted
import ElasticNet.Proofs.Train.Rows
import ElasticNet.Proofs.Train.Settings

namespace ElasticNet.Train

open Command Exact

noncomputable def problemOf (plan : Plan Exact) (family : Family) (group : Option String)
    (weight : ℝ) : Problem (rowsOf plan.source group).dimension :=
  ⟨family, (rowsOf plan.source group).samples, weight, plan.options.mixing.value⟩

/-- What a row with a model reports of its run. -/
structure ReportsRun (plan : Plan Exact) (family : Family) (row : Report Exact) : Prop where
  strength : row.model.strength = plan.path.target
  last : ∃ states positions,
    (rawRun plan row.group (rowsOf plan.source row.group)).Follows states positions
      row.iterations ∧
    Fista.ReportsLast (problemOf plan family row.group) plan.path states positions row.iterations
      row.model
  converged : row.converged = true → plan.options.tolerance ≤ Fista.trialDistance →
    ∃ weight : ℝ, plan.path.target = number weight ∧
      Fista.Reports (problemOf plan family row.group weight) row.model

section Done

variable {plan : Plan Exact} {family : Family} {Sound : Slots Exact → Prop} {dimension : ℕ}
  (sure : plan.Sure dimension Sound) (raw : plan.options.standardize = false)
  (test : plan.test.tolerance = plan.options.tolerance)
  (mixing : plan.base.mixing = plan.options.mixing) {group : Option String} {source : Source Exact}
  (own : source = rowsOf plan.source group) (fitting : source.dimension = dimension)
  (posed : Fista.WellPosed family (rawRun plan group source))
include sure raw test mixing own fitting posed

theorem reportsRun_of_done {position : ℕ} {converged : Bool}
    (done : (lastState plan group source).progress.phase = .done position converged)
    {row : Report Exact} (given : endReport plan group source = .ok row) :
    ReportsRun plan family row := by
  have same := fitRun_eq_rawRun raw group source
  have safe := sure.fitRun group fitting
  have ended := safe.ended
  have current : (fitRun plan group source).current (lastState plan group source) =
      .ok ((fitRun plan group source).stateAfter (fitRun plan group source).updatesAlone) :=
    ended.current
  have spreads : (fitInput source plan.base plan.options.standardize
      plan.center).scales.spreads.length = dimension :=
    (Scales.length_spreads source).trans fitting
  obtain ⟨model, final⟩ := finalModel_eq_ok sure.reliable plan.options plan.center rfl current
    (safe.sound_stateAfter _) spreads converged
  have counted : (lastState plan group source).progress.iterations =
      (fitRun plan group source).updatesAlone := ended.walked.iterations
  cases given.symm.trans (report_of_done done final)
  -- without standard units the model is that of the last state, with the status of the run
  obtain ⟨_, fitted, last, units⟩ := exists_of_finalModel current final
  dsimp only at units
  rw [raw] at units
  have plain : model = { fitted with status := _ } := units
  unfold lastState at done
  rw [same] at last ended done
  rw [counted, same, plain]
  rw [posed.optimizer] at last
  subst own
  have tested : (rawRun plan group (rowsOf plan.source group)).test.optimizer =
      (rawRun plan group (rowsOf plan.source group)).pass.optimizer := sure.tested
  have alike : Fista.problemAt family (rawRun plan group (rowsOf plan.source group)) =
      problemOf plan family group := by
    unfold problemOf
    rw [← mixing]
    rfl
  have follows := ended.walked.follows
  have reported := posed.reportsLast follows last (if converged then .completed else .inProcess)
  obtain ⟨strength, reports⟩ := posed.reports_of_through tested ended done last
    (if converged then .completed else .inProcess)
  rw [alike] at reported reports
  refine ⟨strength, ⟨_, _, follows, reported⟩, ?_⟩
  intro done meets
  rw [← test] at meets
  exact reports done meets

end Done

theorem Checked.reportsRun {source : Source Exact} {options : TrainOptions Exact} {family : Family}
    {method : Method} {params : Params Exact} {path : Path Exact} {test : ConvergenceTest Exact}
    (checked : Checked source options family method params path test)
    (fista : Method.ofName? options.method = some .fista) (raw : options.standardize = false)
    (few : source.rowCount < UInt64.size) (fits : Fista.slotCount source.dimension < UInt32.size)
    {group : Option String} {row : Report Exact}
    (given : endReport (planOf source options family method params path test) group
      (rowsOf source group) = .ok row) (filled : row.isNull = false) :
    ReportsRun (planOf source options family method params path test) family row := by
  have fitting := dimension_rowsOf source group
  obtain ⟨Sound, sure⟩ := checked.sure fits
  have reported := reported_of_endReport sure fitting given
  have terminal := (sure.fitRun group fitting).ended.stops.isTerminal
  have through : (lastState (planOf source options family method params path test) group
      (rowsOf source group)).progress.phase.isFailed = false :=
    reported.isNull.symm.trans filled
  have some : (rowsOf source group).completeCount ≠ 0 := by
    intro none
    rw [phase_of_none sure group fitting none] at through
    cases through
  have posed := checked.wellPosed fista fits group fitting some
    ((completeCount_rowsOf_le source group).trans_lt few)
  have tolerance : test.tolerance = options.tolerance := by
    rw [checked.test_eq]
  cases phase : (lastState (planOf source options family method params path test) group
      (rowsOf source group)).progress.phase with
  | start | atPosition _ _ =>
    change (lastState _ group (rowsOf source group)).progress.phase.isTerminal = true at terminal
    rw [phase] at terminal
    cases terminal
  | failed failure position =>
    rw [phase] at through
    cases through
  | done position converged =>
    exact reportsRun_of_done sure raw tolerance rfl rfl fitting posed phase given

theorem Checked.exists_row {source : Source Exact} {options : TrainOptions Exact} {family : Family}
    {method : Method} {params : Params Exact} {path : Path Exact} {test : ConvergenceTest Exact}
    (checked : Checked source options family method params path test)
    (fista : Method.ofName? options.method = some .fista) (raw : options.standardize = false)
    (few : source.rowCount < UInt64.size) (fits : Fista.slotCount source.dimension < UInt32.size)
    (all : options.grouped = false) (single : path.size = 1) (state : TrainState Exact) :
    ∃ row, (Command.result (train (some source) options) state).2.reports = state.reports ++ [row] ∧
      row.isNull = false ∧
      endReport (planOf source options family method params path test) none source = .ok row := by
  obtain ⟨told, laid, unwritten⟩ := plan_of_checked checked state
  obtain ⟨Sound, sure⟩ := checked.sure fits
  obtain ⟨_, filled⟩ := checkRows_eq_ok checked.rowsPass
  have posed := checked.wellPosed fista fits none (dimension_rowsOf source none) filled
    ((completeCount_rowsOf_le source none).trans_lt few)
  have same := fitRun_eq_rawRun (show (planOf source options family method params path
    test).options.standardize = false from raw) none source
  have ended := (sure.fitRun none rfl).ended
  rw [same] at ended
  have through := posed.isFailed_eq_false ended single
  rw [← same] at through
  obtain ⟨row, after, given, ends, written⟩ := trainAll_of_done sure rfl through told
  refine ⟨row, ?_, (reported_of_endReport sure rfl given).isNull.trans through, given⟩
  have runs : train (some source) options state = .ok ⟨1, 0, path.strengths⟩ after := by
    unfold train
    rw [bind_of_ok laid, all]
    exact ends
  unfold Command.result
  rw [runs, ← unwritten]
  exact written

/-- One update accepts nothing, so a row of it reports nothing. -/
theorem ReportsRun.nothing_of_once {plan : Plan Exact} {family : Family} {row : Report Exact}
    (reports : ReportsRun plan family row)
    (posed : Fista.WellPosed family (rawRun plan row.group (rowsOf plan.source row.group)))
    (once : row.iterations = 1) :
    row.model.coefficients = Vector.zeros (rowsOf plan.source row.group).dimension ∧
      row.model.intercept = 0 ∧ row.model.logLikelihood = 0 := by
  obtain ⟨states, positions, follows, last⟩ := reports.last
  rw [once] at follows last
  cases last with
  | nothing _ coefficients intercept logLikelihood =>
    exact ⟨coefficients, intercept, logLikelihood⟩
  | accepted last _ _ =>
    have closed := last.closed
    rw [Nat.le_antisymm last.within (Nat.le_add_left 1 _)] at closed
    exact absurd closed (posed.not_closed_one follows le_rfl)

/-- Fitted by proximal steps in the units of the data, every written row with a model is at its
    target and reports the candidate that its run accepted last. So the log-likelihood is that of
    the model at the strength of the row if the row converged, unless the tolerance was so large
    that it takes untried candidates for near. Words can count the rows, and the slots of
    a state. -/
theorem rows_report_accepted (source? : Option (Source Exact)) (options : TrainOptions Exact)
    (state : TrainState Exact) (fista : Method.ofName? options.method = some .fista)
    (raw : options.standardize = false)
    (few : ∀ source, source? = some source → source.rowCount < UInt64.size)
    (fits : ∀ source, source? = some source → Fista.slotCount source.dimension < UInt32.size) :
    ∃ rows, (Command.result (train source? options) state).2.reports = state.reports ++ rows ∧
      ∀ row ∈ rows, row.isNull = false → ∃ laidOut told family,
        plan source? options state = .ok laidOut told ∧ source? = some laidOut.source ∧
        laidOut.options = options ∧ Family.ofName? options.family = some family ∧
        ReportsRun laidOut family row := by
  cases laid : plan source? options state with
  | error error after =>
    have ends : train source? options state = .error error after := bind_of_error laid
    refine ⟨[], ?_, List.forall_mem_nil _⟩
    unfold Command.result
    rw [ends, List.append_nil]
    exact ((plan_leaves _ _).of_error laid).2
  | ok laidOut told =>
    obtain ⟨source, family, method, params, path, test, rfl, checked, rfl⟩ := plan_eq_ok laid
    obtain ⟨Sound, sure⟩ := checked.sure (fits source rfl)
    obtain ⟨_, rows, written, own⟩ := train_writesEnds laid sure
    refine ⟨rows, written, ?_⟩
    intro row inside filled
    obtain ⟨group, given⟩ := own row inside
    exact ⟨_, told, family, rfl, rfl, rfl, (checkOptions_eq_ok_iff.mp checked.optionsPass).named,
      checked.reportsRun fista raw (few source rfl) (fits source rfl) given filled⟩

noncomputable def singleRow : Source Exact where
  dimension := 1
  partitions := [⟨1, [⟨[1], 2, ""⟩], by simp⟩]
  uniform := by simp

noncomputable def singleUpdate : TrainOptions Exact :=
  { defaultOptions with
    method := "fista"
    mixing := number (1 / 2)
    strength := 0
    standardize := false
    budget := 1 }

theorem singleUpdate_pass : OptionsPass singleUpdate .gaussian where
  named := by decide +kernel
  mixing := by
    change (0 : ℝ) ≤ 1 / 2 ∧ (1 / 2 : ℝ) ≤ 1
    norm_num
  strength := ⟨rfl, lt_irrefl (0 : ℝ)⟩
  paid := Nat.one_ne_zero
  tolerance := by
    refine ⟨rfl, ?_⟩
    change ¬(1e-6 : ℝ) < 0
    norm_num

theorem method_singleUpdate : Method.ofName? singleUpdate.method = some .fista := by
  decide +kernel

theorem checked_singleRow : Checked singleRow singleUpdate .gaussian .fista .default ⟨[0], by simp⟩
    ⟨Fista.optimizer .gaussian, singleUpdate.tolerance, singleUpdate.tolerance⟩ where
  optionsPass := checkOptions_eq_ok_iff.mpr singleUpdate_pass
  paramsRead := rfl
  named := by
    unfold Optimizer.ofNames
    rw [singleUpdate_pass.named, method_singleUpdate]
  rowsPass := by
    rw [checkRows_eq]
    rfl
  responsesPass := rfl
  pathLaid := by
    change Path.ofList [0] = _
    have proper : Path.Proper [(0 : Exact)] :=
      (Path.proper_singleton_iff _).mpr ⟨rfl, lt_irrefl (0 : ℝ)⟩
    exact Path.ofList_eq_ok_iff.mpr ⟨rfl, proper⟩
  testMade := by
    have tolerance : 0 ≤ singleUpdate.tolerance := by
      change (0 : ℝ) ≤ 1e-6
      norm_num
    exact if_pos ⟨tolerance, tolerance⟩

theorem rows_report_accepted_singleRow :
    Method.ofName? singleUpdate.method = some .fista ∧ singleUpdate.standardize = false ∧
    singleRow.rowCount < UInt64.size ∧ Fista.slotCount singleRow.dimension < UInt32.size ∧
    ∃ row laidOut told family,
      (Command.result (train (some singleRow) singleUpdate) .start).2.reports = [row] ∧
      row.isNull = false ∧ plan (some singleRow) singleUpdate .start = .ok laidOut told ∧
      ReportsRun laidOut family row := by
  have fits : Fista.slotCount singleRow.dimension < UInt32.size := by decide
  have few : singleRow.rowCount < UInt64.size := by
    change 1 < UInt64.size
    decide
  refine ⟨method_singleUpdate, rfl, few, fits, ?_⟩
  obtain ⟨row, written, filled, _⟩ :=
    checked_singleRow.exists_row method_singleUpdate rfl few fits rfl rfl .start
  obtain ⟨rows, same, report⟩ := rows_report_accepted (some singleRow) singleUpdate .start
    method_singleUpdate rfl (by rintro _ ⟨⟩; exact few) (by rintro _ ⟨⟩; exact fits)
  rw [written] at same
  have inside : row ∈ rows := by
    rw [← List.append_cancel_left same]
    exact List.mem_singleton_self row
  obtain ⟨laidOut, told, family, laid, _, _, _, reports⟩ := report row inside filled
  exact ⟨row, laidOut, told, family, written, filled, laid, reports⟩

theorem objective_singleRow :
    (⟨.gaussian, singleRow.samples, 0, 1 / 2⟩ : Problem singleRow.dimension).objective 0 = 2 := by
  have samples : singleRow.samples = [⟨fun _ => 1, 2⟩] := by
    change [Row.sample 1 ⟨[number 1], number 2, ""⟩] = _
    rw [Row.sample_eq (x := fun _ => 1) (y := 2) rfl rfl]
    rfl
  unfold Problem.objective Problem.smooth Problem.ridge Problem.penalty
  rw [samples, Family.totalLoss_singleton]
  simp [Family.lossAt, Point.predict]
  norm_num

theorem not_reports_singleRow {model : Model Exact}
    (coefficients : model.coefficients = Vector.zeros singleRow.dimension)
    (intercept : model.intercept = 0) (logLikelihood : model.logLikelihood = 0) :
    ¬Fista.Reports (⟨.gaussian, singleRow.samples, 0, 1 / 2⟩ : Problem singleRow.dimension)
      model := by
  rintro ⟨point, features, constant, value⟩
  have empty : point = 0 := by
    apply Prod.ext
    · exact ofVector_injective (features.symm.trans (coefficients.trans zeros_eq))
    · exact number.inj (constant.symm.trans intercept)
  rw [empty, objective_singleRow, logLikelihood] at value
  have absurdity : (0 : ℝ) = -2 := number.inj value
  norm_num at absurdity

/-- The one row that is written of one update reports a log-likelihood of zero, although the model
    that it reports misses the response. -/
theorem spent_row_reports_nothing : ∃ row,
    (Command.result (train (some singleRow) singleUpdate) .start).2.reports = [row] ∧
      row.isNull = false ∧ row.converged = false ∧ row.model.strength = 0 ∧
      row.model.logLikelihood = 0 ∧
      ¬Fista.Reports (⟨.gaussian, singleRow.samples, 0, 1 / 2⟩ : Problem singleRow.dimension)
        row.model := by
  have fits : Fista.slotCount singleRow.dimension < UInt32.size := by decide
  have few : singleRow.rowCount < UInt64.size := by
    change 1 < UInt64.size
    decide
  obtain ⟨row, written, filled, given⟩ :=
    checked_singleRow.exists_row method_singleUpdate rfl few fits rfl rfl .start
  obtain ⟨Sound, reliable, vouches⟩ :=
    Optimizer.exists_vouching (α := Exact) rfl .gaussian .fista Nat.one_pos fits
  have sure := checked_singleRow.sureOf reliable
  have fitted := (promises_of_endReport sure vouches none rfl given).fitted filled
  have once : row.iterations = 1 := Nat.le_antisymm fitted.within fitted.covers
  have reports := checked_singleRow.reportsRun method_singleUpdate rfl few fits given filled
  have group : row.group = none := (reported_of_endReport sure rfl given).group
  have posed := checked_singleRow.wellPosed method_singleUpdate fits none
    (dimension_rowsOf singleRow none) Nat.one_ne_zero
    ((completeCount_rowsOf_le singleRow none).trans_lt few)
  obtain ⟨coefficients, intercept, logLikelihood⟩ :=
    reports.nothing_of_once (by rw [group]; exact posed) once
  rw [group] at coefficients
  have misses := not_reports_singleRow coefficients intercept logLikelihood
  have spent : row.converged = false := by
    cases converged : row.converged with
    | false => rfl
    | true =>
      obtain ⟨weight, target, kept⟩ := reports.converged converged (by
        change (1e-6 : ℝ) ≤ 1e12
        norm_num)
      rw [group] at kept
      have zero : (0 : ℝ) = weight := number.inj target
      subst zero
      exact absurd kept misses
  exact ⟨row, written, filled, spent, reports.strength, logLikelihood, misses⟩

end ElasticNet.Train
