import ElasticNet.Proofs.Data.Groups
import ElasticNet.Proofs.Groups.Ended
import ElasticNet.Proofs.Train.Plan
import ElasticNet.Proofs.Train.Prepare

namespace ElasticNet.Train

open Command

variable {α : Type} [Scalar α]

theorem checkRows_eq (source : Source α) : checkRows source =
    if source.dimension = 0 then .error .noFeatures
    else if source.partitions.isEmpty = true then .error .noRows
    else if source.completeCount = 0 then .error (.noCompleteRows source.rowCount)
    else .ok () := by
  have counts := source.completeCount_add_incompleteCount
  have none : source.rowCount = source.incompleteCount ↔ source.completeCount = 0 := by omega
  unfold checkRows
  simp only [none]
  split
  · rfl
  · split
    · rfl
    · split
      · rfl
      · rfl

theorem checkRows_eq_ok {source : Source α} (passed : checkRows source = .ok ()) :
    source.dimension ≠ 0 ∧ source.completeCount ≠ 0 := by
  rw [checkRows_eq] at passed
  split at passed
  · cases passed
  next wide =>
  split at passed
  · cases passed
  split at passed
  · cases passed
  next some => exact ⟨wide, some⟩

theorem Checked.test_eq {source : Source α} {options : TrainOptions α} {family : Family}
    {method : Method} {params : Params α} {path : Path α} {test : ConvergenceTest α}
    (checked : Checked source options family method params path test) :
    test = ⟨Optimizer.ofMethod family method, options.tolerance,
      params.warmupTolerance.getD options.tolerance⟩ := by
  have made := checked.testMade
  unfold ConvergenceTest.create at made
  dsimp only at made
  split at made
  · cases made
    rfl
  · cases made

theorem Checked.sureOf {source : Source α} {options : TrainOptions α} {family : Family}
    {method : Method} {params : Params α} {path : Path α} {test : ConvergenceTest α}
    (checked : Checked source options family method params path test) {Sound : Slots α → Prop}
    (reliable : (Optimizer.ofMethod family method : Optimizer α).Reliable source.dimension Sound) :
    (planOf source options family method params path test).Sure source.dimension Sound := by
  have paid := (checkOptions_eq_ok_iff.mp checked.optionsPass).paid
  rw [checked.test_eq]
  exact ⟨reliable, rfl, rfl, Nat.pos_of_ne_zero paid⟩

/-- Checked options and data come to a plan that will not fail. -/
theorem Checked.sure [Scalar.KeepsCounts α] {source : Source α} {options : TrainOptions α}
    {family : Family} {method : Method} {params : Params α} {path : Path α}
    {test : ConvergenceTest α} (checked : Checked source options family method params path test)
    (fits : Fista.slotCount source.dimension < UInt32.size) :
    ∃ Sound,
      (planOf source options family method params path test).Sure source.dimension Sound := by
  obtain ⟨wide, _⟩ := checkRows_eq_ok checked.rowsPass
  obtain ⟨Sound, reliable⟩ :=
    Optimizer.exists_reliable (α := α) family method (Nat.pos_of_ne_zero wide) fits
  exact ⟨Sound, checked.sureOf reliable⟩

def lastState (plan : Plan α) (group : Option String) (source : Source α) : RunState α :=
  (fitRun plan group source).alone (fitRun plan group source).updatesAlone

def endReport (plan : Plan α) (group : Option String) (source : Source α) :
    Except Error (Report α) :=
  report plan.options plan.center (fitRun plan group source) (lastState plan group source)
    (fitInput source plan.base plan.options.standardize plan.center)

def settleAll (plan : Plan α) (ended : Except Error Unit × RunState α) :
    TrainCommand α (TrainSummary α) := do
  tell ended.2.notes
  Command.lift ended.1
  match ended.2.progress.phase with
  | .failed failure _ => throw failure.toError
  | _ =>
    write (← Command.lift (report plan.options plan.center (fitRun plan none plan.source) ended.2
      (fitInput plan.source plan.base plan.options.standardize plan.center)))
    return { groups := 1, failed := 0, path := plan.path.strengths }

theorem trainAll_eq {plan : Plan α} (paid : 0 < plan.options.budget) : trainAll plan =
    settleAll plan (Command.result (fitRun plan none plan.source).toEnd .start) := by
  have created : Run.create none plan.path plan.pass plan.test
      (fitInput plan.source plan.base plan.options.standardize plan.center).context
      (some (fitInput plan.source plan.base plan.options.standardize plan.center).source)
      plan.options.budget = .ok (fitRun plan none plan.source) :=
    if_neg (Nat.ne_of_gt paid)
  funext state
  unfold trainAll
  rw [lift_bind_of_ok (prepare_eq_ok _ _ _ _), lift_bind_of_ok created]
  rfl

section Sure

variable {plan : Plan α} {dimension : Nat} {Sound : Slots α → Prop}
  (sure : plan.Sure dimension Sound)
include sure

theorem endReport_eq_ok (group : Option String) {source : Source α}
    (fitting : source.dimension = dimension) :
    ∃ row, endReport plan group source = .ok row ∧
      Reported group (lastState plan group source).progress (Scales.measure source) row := by
  have safe := sure.fitRun group fitting
  have ended := safe.ended
  exact report_eq_ok sure.reliable plan.options plan.center rfl ended.stops.isTerminal ended.current
    (safe.sound_stateAfter _) ((Scales.length_spreads source).trans fitting)

theorem reported_of_endReport {group : Option String} {source : Source α}
    (fitting : source.dimension = dimension) {row : Report α}
    (given : endReport plan group source = .ok row) :
    Reported group (lastState plan group source).progress (Scales.measure source) row := by
  obtain ⟨other, same, reported⟩ := endReport_eq_ok sure group fitting
  cases given.symm.trans same
  exact reported

theorem phase_of_none (group : Option String) {source : Source α}
    (fitting : source.dimension = dimension) (none : source.completeCount = 0) :
    (lastState plan group source).progress.phase = .failed .nothingToFit 1 := by
  have nothing : ∀ part ∈ (fitRun plan group source).source.partitions, part.complete = [] := by
    change ∀ part ∈ (fittedSource _ _ _).partitions, _
    rw [fittedSource_of_none none]
    exact Source.complete_of_completeCount none
  exact congrArg Progress.phase ((sure.fitRun group fitting).nothingToFit nothing)

theorem toEnd_fitRun (group : Option String) {source : Source α}
    (fitting : source.dimension = dimension) :
    (fitRun plan group source).toEnd .start = .ok () (lastState plan group source) :=
  Run.toEnd_eq_alone sure.paid (sure.fitRun group fitting).answers

theorem trainAll_opened (fitting : plan.source.dimension = dimension) (state : TrainState α) :
    ∃ told : TrainState α, told.reports = state.reports ∧
      trainAll plan state =
        (match (lastState plan none plan.source).progress.phase with
        | .failed failure _ => throw failure.toError
        | _ => do
          write (← Command.lift (endReport plan none plan.source))
          return { groups := 1, failed := 0, path := plan.path.strengths }
          : TrainCommand α (TrainSummary α)) told := by
  have ended : Command.result (fitRun plan none plan.source).toEnd .start =
      (.ok (), lastState plan none plan.source) := by
    unfold Command.result
    rw [toEnd_fitRun sure none fitting]
  refine ⟨{ state with notes := state.notes ++ (lastState plan none plan.source).notes }, rfl, ?_⟩
  rw [trainAll_eq sure.paid, ended]
  rfl

theorem trainAll_of_failed (fitting : plan.source.dimension = dimension) {failure : Failure}
    {position : Nat}
    (failed : (lastState plan none plan.source).progress.phase = .failed failure position)
    (state : TrainState α) :
    ∃ after, trainAll plan state = .error failure.toError after ∧
      after.reports = state.reports := by
  obtain ⟨told, kept, opened⟩ := trainAll_opened sure fitting state
  rw [failed] at opened
  exact ⟨told, opened, kept⟩

theorem trainAll_of_done (fitting : plan.source.dimension = dimension)
    (done : (lastState plan none plan.source).progress.phase.isFailed = false)
    (state : TrainState α) :
    ∃ row after, endReport plan none plan.source = .ok row ∧
      trainAll plan state = .ok ⟨1, 0, plan.path.strengths⟩ after ∧
      after.reports = state.reports ++ [row] := by
  obtain ⟨row, reported, _⟩ := endReport_eq_ok sure none fitting
  obtain ⟨told, kept, opened⟩ := trainAll_opened sure fitting state
  refine ⟨row, { told with reports := told.reports ++ [row] }, reported, ?_, ?_⟩
  · rw [opened]
    cases phase : (lastState plan none plan.source).progress.phase with
    | failed failure position =>
      rw [phase] at done
      cases done
    | start | atPosition _ _ | done _ _ =>
      dsimp only
      rw [lift_bind_of_ok reported]
      rfl
  · rw [← kept]

end Sure

def groupsOf (plan : Plan α) : Groups α where
  path := plan.path
  pass := plan.pass
  test := plan.test
  budget := plan.options.budget

def groupInput (plan : Plan α) (key : String) : FitInput α :=
  fitInput (plan.source.selectGroup key) plan.base plan.options.standardize plan.center

def groupEntry (plan : Plan α) (key : String) : Groups.Entry α :=
  ⟨key, (groupInput plan key).context, (groupInput plan key).source⟩

def groupsRun (plan : Plan α) : GroupsCommand α (List (String × FitInput α)) := do
  let inputs ← addGroups plan (groupsOf plan) plan.source.groupKeys
  (groupsOf plan).toEnd
  return inputs

def settleGroups (plan : Plan α) (result : Except Error (List (String × FitInput α)))
    (last : GroupsState α) : TrainCommand α (TrainSummary α) := do
  tell last.notes
  let inputs ← Command.lift result
  reportGroups plan last inputs
  if 0 < last.failedCount then
    tell [.warning (toString last.failedCount ++ " of " ++ toString inputs.length
      ++ " groups could not be fitted.")]
  if !(missedTarget last).isEmpty then throw (.groupsMissedTarget (missedTarget last))
  return { groups := inputs.length, failed := last.failedCount, path := plan.path.strengths }

theorem trainGroups_eq (plan : Plan α) : trainGroups plan =
    settleGroups plan (Command.result (groupsRun plan) .start).1
      (Command.result (groupsRun plan) .start).2 := rfl

theorem addGroups_of_addAll (plan : Plan α) {groups : Groups α} {keys : List String}
    {state added : GroupsState α}
    (adds : groups.addAll (keys.map (groupEntry plan)) state = .ok () added) :
    addGroups plan groups keys state =
      .ok (keys.map fun key => (key, groupInput plan key)) added := by
  induction keys generalizing state with
  | nil =>
    cases adds
    rfl
  | cons key rest ih =>
    obtain ⟨_, next, first, others⟩ := bind_eq_ok adds
    unfold addGroups
    rw [lift_bind_of_ok (prepare_eq_ok _ _ _ _)]
    refine (bind_of_ok first).trans ?_
    exact bind_of_ok (ih others)

section Sure

variable {plan : Plan α} {dimension : Nat} {Sound : Slots α → Prop}
  (sure : plan.Sure dimension Sound) (fitting : plan.source.dimension = dimension)
include sure fitting

theorem groupsRun_eq_ok : ∃ last,
    groupsRun plan .start =
      .ok (plan.source.groupKeys.map fun key => (key, groupInput plan key)) last ∧
    Groups.EndedAlone (groupsOf plan) (plan.source.groupKeys.map (groupEntry plan)) last := by
  have keys : (plan.source.groupKeys.map (groupEntry plan)).map Groups.Entry.key =
      plan.source.groupKeys := by
    rw [List.map_map]
    exact List.map_id _
  have distinct := plan.source.groupKeys_nodup
  rw [← keys] at distinct
  obtain ⟨added, last, adds, ends, ended⟩ := Groups.toEnd_endedAlone (groupsOf plan) sure.paid
    distinct (by
      intro entry inside
      obtain ⟨key, _, rfl⟩ := List.mem_map.mp inside
      have safe :
          (fitRun plan (some key) (plan.source.selectGroup key)).OnReliable dimension Sound :=
        sure.fitRun (some key) fitting
      exact safe.answers)
  refine ⟨last, ?_, ended⟩
  exact (bind_of_ok (addGroups_of_addAll plan adds)).trans (bind_of_ok ends)

omit sure fitting in
theorem endedAlone_member {last : GroupsState α}
    (ended : Groups.EndedAlone (groupsOf plan) (plan.source.groupKeys.map (groupEntry plan)) last)
    {key : String} (inside : key ∈ plan.source.groupKeys) : ∃ member,
    last.member key = .ok member ∧
    member.run = fitRun plan (some key) (plan.source.selectGroup key) ∧
    member.progress = (lastState plan (some key) (plan.source.selectGroup key)).progress ∧
    member.run.current (last.view member) =
      member.run.current (lastState plan (some key) (plan.source.selectGroup key)) := by
  have given : groupEntry plan key ∈ plan.source.groupKeys.map (groupEntry plan) :=
    List.mem_map.mpr ⟨key, inside, rfl⟩
  exact ⟨_, ended.member _ given, rfl, rfl, ended.current _ given⟩

theorem reportGroups_eq_ok {last : GroupsState α}
    (ended : Groups.EndedAlone (groupsOf plan) (plan.source.groupKeys.map (groupEntry plan)) last)
    {keys : List String} (inside : ∀ key ∈ keys, key ∈ plan.source.groupKeys)
    (state : TrainState α) :
    ∃ rows, List.Forall₂ (fun key row =>
        endReport plan (some key) (plan.source.selectGroup key) = .ok row) keys rows ∧
      reportGroups plan last (keys.map fun key => (key, groupInput plan key)) state =
        .ok () { state with reports := state.reports ++ rows } := by
  induction keys generalizing state with
  | nil =>
    refine ⟨[], .nil, ?_⟩
    rw [List.append_nil]
    rfl
  | cons key rest ih =>
    obtain ⟨member, found, run, progress, current⟩ :=
      endedAlone_member ended (inside key List.mem_cons_self)
    have fitted : (plan.source.selectGroup key).dimension = dimension := fitting
    obtain ⟨row, reported, _⟩ := endReport_eq_ok sure (some key) fitted
    obtain ⟨rows, others, writes⟩ := ih
      (fun other later => inside other (List.mem_cons_of_mem key later))
      { state with reports := state.reports ++ [row] }
    have same : report plan.options plan.center member.run (last.view member)
        (groupInput plan key) = .ok row := by
      rw [← reported]
      exact report_congr rfl rfl plan.center (congrArg (Pass.optimizer ∘ Run.pass) run) progress
        (current.trans (by rw [run])) rfl (congrArg Run.group run)
    refine ⟨row :: rows, .cons reported others, ?_⟩
    unfold reportGroups
    rw [List.map_cons]
    dsimp only
    rw [lift_bind_of_ok found, lift_bind_of_ok same]
    refine writes.trans ?_
    rw [List.append_assoc]
    rfl

/-- The groups of a plan are all reported, in the order of their keys, and then it is an error if
    some of them missed the target. -/
theorem trainGroups_outcome (state : TrainState α) : ∃ last rows after,
    groupsRun plan .start =
      .ok (plan.source.groupKeys.map fun key => (key, groupInput plan key)) last ∧
    Groups.EndedAlone (groupsOf plan) (plan.source.groupKeys.map (groupEntry plan)) last ∧
    List.Forall₂ (fun key row => endReport plan (some key) (plan.source.selectGroup key) = .ok row)
      plan.source.groupKeys rows ∧
    after.reports = state.reports ++ rows ∧
    trainGroups plan state =
      if missedTarget last = [] then
        .ok ⟨plan.source.groupKeys.length, last.failedCount, plan.path.strengths⟩ after
      else .error (.groupsMissedTarget (missedTarget last)) after := by
  obtain ⟨last, runs, ended⟩ := groupsRun_eq_ok sure fitting
  obtain ⟨rows, reported, writes⟩ := reportGroups_eq_ok sure fitting ended (fun _ => id)
    { state with notes := state.notes ++ last.notes }
  refine ⟨last, rows, ⟨state.reports ++ rows, state.notes ++ last.notes ++
    if 0 < last.failedCount then
      [.warning (toString last.failedCount ++ " of " ++ toString plan.source.groupKeys.length
        ++ " groups could not be fitted.")]
    else []⟩, runs, ended, reported, rfl, ?_⟩
  have results : Command.result (groupsRun plan) .start =
      (.ok (plan.source.groupKeys.map fun key => (key, groupInput plan key)), last) := by
    unfold Command.result
    rw [runs]
  rw [trainGroups_eq, results]
  unfold settleGroups
  rw [tell_bind, lift_bind_of_ok rfl]
  refine (bind_of_ok writes).trans ?_
  rw [List.length_map]
  cases missedTarget last with
  | nil =>
    split
    · rfl
    · rw [List.append_nil]
      rfl
  | cons key others =>
    split
    · rfl
    · rw [List.append_nil]
      rfl

end Sure

end ElasticNet.Train
