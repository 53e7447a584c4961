import ElasticNet.Proofs.Train.Contract

namespace ElasticNet

variable {α : Type}

def TrainOptions.ungrouped (options : TrainOptions α) : TrainOptions α :=
  { options with grouped := false }

def Params.FixesPath (params : Params α) : Prop :=
  params.warmup = false ∨ params.warmupPath.isSome = true

namespace Train

variable [Scalar α]

/-- What separate training of the rows of a key comes to, given the row that the group got: the same
    row without the key, or the error that the group's null row tells of. A group without complete
    rows is not trained at all on its own, and its row tells that there is nothing to fit. -/
inductive AgreesWith (source : Source α) (key : String) (row : Report α) (state : TrainState α) :
    EStateM.Result Error (TrainState α) (TrainSummary α) → Prop
  | fitted {solo : Report α} {summary : TrainSummary α} {after : TrainState α}
    (written : after.reports = state.reports ++ [solo]) (filled : solo.isNull = false)
    (same : row = { solo with group := some key }) :
    AgreesWith source key row state (.ok summary after)
  | failed {error : Error} {after : TrainState α} (unwritten : after.reports = state.reports)
    (fault : error.kind ∈ [ErrorKind.numerical, .convergence, .data])
    (null : row.isNull = true)
    (message : row.message = if ∃ row ∈ source.rows, row.group = key ∧ row.isComplete
      then error.message else Failure.nothingToFit.message) :
    AgreesWith source key row state (.error error after)

theorem checkOptions_ungrouped (options : TrainOptions α) :
    checkOptions options.ungrouped = checkOptions options := by
  unfold checkOptions TrainOptions.ungrouped
  dsimp only

theorem layPath_of_fixed {params : Params α} (fixed : params.FixesPath) (options : TrainOptions α)
    (scales other : Scales α) :
    (layPath options.ungrouped params scales).1 = (layPath options params other).1 := by
  unfold layPath
  cases warm : params.warmup with
  | false => rfl
  | true =>
    cases given : params.warmupPath with
    | some path => rfl
    | none =>
      rcases fixed with off | path
      · rw [warm] at off
        cases off
      · rw [given] at path
        cases path

section Group

variable {source : Source α} {key : String} (inside : key ∈ source.groupKeys)

omit [Scalar α] in
include inside in
theorem partitions_selectGroup_ne_nil : (source.selectGroup key).partitions ≠ [] := by
  obtain ⟨row, given, own⟩ := (source.mem_groupKeys key).mp inside
  intro none
  have kept : row ∈ (source.selectGroup key).rows := by
    rw [source.rows_selectGroup key]
    exact List.mem_filter.mpr ⟨given, decide_eq_true own⟩
  rw [Source.rows, none] at kept
  cases kept

theorem completeCount_selectGroup_ne_zero :
    (source.selectGroup key).completeCount ≠ 0 ↔
      ∃ row ∈ source.rows, row.group = key ∧ row.isComplete := by
  unfold Source.completeCount
  rw [source.rows_selectGroup key, Ne, List.length_eq_zero_iff, List.filter_eq_nil_iff]
  push Not
  constructor
  · rintro ⟨row, kept, complete⟩
    obtain ⟨given, own⟩ := List.mem_filter.mp kept
    exact ⟨row, given, of_decide_eq_true own, complete⟩
  · rintro ⟨row, given, own, complete⟩
    exact ⟨row, List.mem_filter.mpr ⟨given, decide_eq_true own⟩, complete⟩

include inside in
theorem checkRows_selectGroup (passed : checkRows source = .ok ()) :
    checkRows (source.selectGroup key) =
      if (source.selectGroup key).completeCount = 0 then
        .error (.noCompleteRows (source.selectGroup key).rowCount)
      else .ok () := by
  have wide : (source.selectGroup key).dimension ≠ 0 := (checkRows_eq_ok passed).1
  have filled : ¬(source.selectGroup key).partitions.isEmpty = true :=
    fun none => partitions_selectGroup_ne_nil inside (List.isEmpty_iff.mp none)
  rw [checkRows_eq, if_neg wide, if_neg filled]

theorem checkResponses_selectGroup {family : Family}
    (passed : checkResponses family source = .ok ()) :
    checkResponses family (source.selectGroup key) = .ok () := by
  cases family with
  | gaussian => rfl
  | binomial =>
    unfold checkResponses at passed ⊢
    dsimp only at passed ⊢
    split at passed
    · cases passed
    · next good =>
      have fine : (source.selectGroup key).rows.find? (fun row =>
          row.isComplete && row.response != 0 && row.response != 1) = none := by
        rw [source.rows_selectGroup key, List.find?_eq_none]
        intro row kept
        exact List.find?_eq_none.mp good row (List.mem_filter.mp kept).1
      rw [fine]

variable {options : TrainOptions α} {family : Family} {method : Method} {params : Params α}
  {path : Path α} {test : ConvergenceTest α}
  (checked : Checked source options family method params path test)
  (fixed : params.FixesPath)
include inside checked

include fixed in
/-- What passes the checks for all rows passes them for a group with a complete row. -/
theorem Checked.ofGroup (some : (source.selectGroup key).completeCount ≠ 0) :
    Checked (source.selectGroup key) options.ungrouped family method params path test where
  optionsPass := (checkOptions_ungrouped options).trans checked.optionsPass
  paramsRead := checked.paramsRead
  named := checked.named
  rowsPass := by rw [checkRows_selectGroup inside checked.rowsPass, if_neg some]
  responsesPass := checkResponses_selectGroup checked.responsesPass
  pathLaid := (layPath_of_fixed fixed options _ _).trans checked.pathLaid
  testMade := checked.testMade

theorem train_of_no_complete_rows (none : (source.selectGroup key).completeCount = 0)
    (state : TrainState α) :
    train (some (source.selectGroup key)) options.ungrouped state =
      .error (.noCompleteRows (source.selectGroup key).rowCount) state := by
  have refused := checkRows_selectGroup inside checked.rowsPass
  rw [if_pos none] at refused
  exact Command.bind_of_error (plan_of_refused ((checkOptions_ungrouped options).trans
    checked.optionsPass) checked.paramsRead checked.named refused state)

end Group

def Plan.alone (plan : Plan α) (key : String) : Plan α :=
  { plan with options := plan.options.ungrouped, source := plan.source.selectGroup key }

section Sure

variable {plan : Plan α} {Sound : Slots α → Prop} (sure : plan.Sure plan.source.dimension Sound)
  (key : String)
include sure

theorem Plan.Sure.alone : (plan.alone key).Sure plan.source.dimension Sound :=
  ⟨sure.reliable, sure.tested, sure.base, sure.paid⟩

theorem lastState_alone :
    (lastState (plan.alone key) none (plan.source.selectGroup key)).progress =
      (lastState plan (some key) (plan.source.selectGroup key)).progress ∧
    (fitRun (plan.alone key) none (plan.source.selectGroup key)).current
      (lastState (plan.alone key) none (plan.source.selectGroup key)) =
      (fitRun plan (some key) (plan.source.selectGroup key)).current
        (lastState plan (some key) (plan.source.selectGroup key)) := by
  have safe := sure.fitRun (some key) (plan.source.dimension_selectGroup key)
  exact (Run.alone_regroup safe.paid safe.answers none).2

theorem endReport_alone : endReport (plan.alone key) none (plan.source.selectGroup key) =
    (endReport plan (some key) (plan.source.selectGroup key)).map
      fun row => { row with group := none } := by
  obtain ⟨progress, current⟩ := lastState_alone sure key
  have own : (fitRun (plan.alone key) none (plan.source.selectGroup key)).pass.optimizer =
      (fitRun plan (some key) (plan.source.selectGroup key)).pass.optimizer := rfl
  exact report_regroup rfl rfl plan.center own progress current rfl

theorem agreesWith_of_complete {row : Report α}
    (given : endReport plan (some key) (plan.source.selectGroup key) = .ok row)
    (some : (plan.source.selectGroup key).completeCount ≠ 0)
    {state told : TrainState α} (unwritten : told.reports = state.reports) :
    AgreesWith plan.source key row state (trainAll (plan.alone key) told) := by
  have fitted := plan.source.dimension_selectGroup key
  have reported := reported_of_endReport sure fitted given
  have same := endReport_alone sure key
  rw [given] at same
  obtain ⟨progress, _⟩ := lastState_alone sure key
  cases phase : (lastState plan (Option.some key) (plan.source.selectGroup key)).progress.phase with
  | failed failure position =>
    rw [← progress] at phase
    obtain ⟨after, ends, kept⟩ := trainAll_of_failed (sure.alone key) fitted phase told
    rw [progress] at phase
    rw [ends]
    refine .failed (kept.trans unwritten) ?_ ?_ ?_
    · cases failure with
      | targetNotReached => exact .tail _ (.head _)
      | diverged _ _ => exact .head _
      | nothingToFit => exact .tail _ (.tail _ (.head _))
    · rw [reported.isNull, phase]
      rfl
    · rw [if_pos (completeCount_selectGroup_ne_zero.mp some)]
      exact reported.message failure position phase
  | start | atPosition _ _ | done _ _ =>
    have done :
        (lastState (plan.alone key) none (plan.source.selectGroup key)).progress.phase.isFailed
        = false := by
      rw [progress, phase]
      rfl
    obtain ⟨solo, after, soloGiven, ends, written⟩ :=
      trainAll_of_done (sure.alone key) fitted done told
    cases same.symm.trans soloGiven
    rw [ends]
    refine .fitted (written.trans (by rw [unwritten])) ?_ ?_
    · rw [← progress] at reported
      exact reported.isNull.trans done
    · change row = { row with group := _ }
      rw [← reported.group]

theorem nothingToFit_of_none {row : Report α}
    (given : endReport plan (some key) (plan.source.selectGroup key) = .ok row)
    (none : (plan.source.selectGroup key).completeCount = 0) :
    row.isNull = true ∧ row.message = Failure.nothingToFit.message := by
  have reported := reported_of_endReport sure (plan.source.dimension_selectGroup key) given
  have phase := phase_of_none sure (some key) (plan.source.dimension_selectGroup key) none
  refine ⟨?_, reported.message _ _ phase⟩
  rw [reported.isNull, phase]
  rfl

end Sure

omit [Scalar α] in
theorem filter_group_eq_singleton {keys : List String} {rows : List (Report α)}
    {Related : String → Report α → Prop} (all : List.Forall₂ Related keys rows)
    (distinct : keys.Nodup) (keyed : ∀ key row, Related key row → row.group = some key)
    {key : String} (inside : key ∈ keys) :
    ∃ row, Related key row ∧ rows.filter (fun row => row.group = some key) = [row] := by
  induction all with
  | nil => cases inside
  | @cons first row others rows related rest ih =>
    obtain ⟨new, distinct⟩ := List.nodup_cons.mp distinct
    rw [List.filter_cons, keyed first row related]
    by_cases own : first = key
    · subst own
      refine ⟨row, related, ?_⟩
      rw [if_pos (decide_eq_true rfl), List.filter_eq_nil_iff.mpr]
      intro other given same
      obtain ⟨later, further, relatedLater⟩ := exists_of_forall₂ rest given
      cases (keyed later other relatedLater).symm.trans (of_decide_eq_true same)
      exact new further
    · rw [if_neg (by simpa using own)]
      exact ih distinct ((List.mem_cons.mp inside).resolve_left (Ne.symm own))

/-- Every group is reported as its rows are when they are trained on their own, whatever happens to
    the other groups. -/
theorem groups_trained_as_alone [Scalar.KeepsCounts α] {source : Source α}
    {options : TrainOptions α} {state told : TrainState α} {laidOut : Plan α} {params : Params α}
    {key : String} (grouped : options.grouped = true)
    (laid : plan (some source) options state = .ok laidOut told)
    (read : Params.parse options.params options.method = .ok params) (fixed : params.FixesPath)
    (fits : Fista.slotCount source.dimension < UInt32.size) (inside : key ∈ source.groupKeys)
    (alone : TrainState α) : ∃ rows row,
    (Command.result (train (some source) options) state).2.reports = state.reports ++ rows ∧
    rows.filter (fun row => row.group = some key) = [row] ∧
    AgreesWith source key row alone
      (train (some (source.selectGroup key)) options.ungrouped alone) := by
  have unwritten := (plan_leaves (some source) options).of_ok laid
  obtain ⟨_, family, method, _, path, test, ⟨⟩, checked, rfl⟩ := plan_eq_ok laid
  cases checked.paramsRead.symm.trans read
  obtain ⟨Sound, sure⟩ := checked.sure fits
  obtain ⟨last, rows, after, _, _, given, written, ends⟩ := trainGroups_outcome sure rfl told
  obtain ⟨row, own, only⟩ := filter_group_eq_singleton given source.groupKeys_nodup
    (fun key row same => by
      have fitted : (source.selectGroup key).dimension = source.dimension := rfl
      exact (reported_of_endReport sure fitted same).group) inside
  refine ⟨rows, row, ?_, only, ?_⟩
  · have runs : train (some source) options state =
        trainGroups (planOf source options family method params path test) told := by
      unfold train
      rw [Command.bind_of_ok laid, grouped]
      rfl
    rw [unwritten] at written
    unfold Command.result
    rw [runs, ends]
    by_cases reaches : missedTarget last = []
    · rw [if_pos reaches]
      exact written
    · rw [if_neg reaches]
      exact written
  · by_cases some : (source.selectGroup key).completeCount = 0
    · rw [train_of_no_complete_rows inside checked some alone]
      obtain ⟨null, message⟩ := nothingToFit_of_none sure key own some
      refine .failed rfl (.tail _ (.tail _ (.head _))) null ?_
      rw [if_neg, message]
      exact fun complete => completeCount_selectGroup_ne_zero.mpr complete some
    · obtain ⟨begun, laidAlone, kept⟩ := plan_of_checked (checked.ofGroup inside fixed some) alone
      have runs : train (Option.some (source.selectGroup key)) options.ungrouped alone =
          trainAll ((planOf source options family method params path test).alone key) begun :=
        Command.bind_of_ok laidAlone
      rw [runs]
      exact agreesWith_of_complete sure key own some kept

def halfMissingParams : Except Error (Params Float) :=
  Params.parse halfMissingOptions.params halfMissingOptions.method

theorem halfMissing_trained_as_alone : ∃ laidOut told params,
    plan (some halfMissing) halfMissingOptions .start = .ok laidOut told ∧
    halfMissingParams = .ok params ∧
    params.FixesPath ∧ "b" ∈ halfMissing.groupKeys ∧ ∃ rows row,
    (Command.result (train (some halfMissing) halfMissingOptions) .start).2.reports = rows ∧
    rows.filter (fun row => row.group = some "b") = [row] ∧
    AgreesWith halfMissing "b" row .start
      (train (some (halfMissing.selectGroup "b")) halfMissingOptions.ungrouped .start) := by
  obtain ⟨laidOut, told, laid⟩ := Command.exists_of_result_isOk
    (show (Command.result (plan (some halfMissing) halfMissingOptions) .start).1.isOk = true by
      decide +kernel)
  obtain ⟨params, read⟩ := Command.exists_of_isOk
    (show halfMissingParams.isOk = true by decide +kernel)
  have given : (halfMissingParams.toOption.bind Params.warmupPath).isSome = true := by
    decide +kernel
  rw [read] at given
  have inside : "b" ∈ halfMissing.groupKeys := by decide +kernel
  exact ⟨laidOut, told, params, laid, read, .inr given, inside,
    groups_trained_as_alone rfl laid read (.inr given) (by decide) inside .start⟩

end Train

end ElasticNet
