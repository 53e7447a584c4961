import ElasticNet.Data.Groups
import ElasticNet.Optimizer.Named
import ElasticNet.Params
import ElasticNet.Report
import ElasticNet.Run.Groups
import ElasticNet.Scales.Standardize

namespace ElasticNet

structure TrainOptions (α : Type) where
  family : String
  method : String
  mixing : α
  strength : α
  standardize : Bool
  grouped : Bool
  params : String
  /-- The budget of updates over the whole path. -/
  budget : Nat
  tolerance : α

structure TrainSummary (α : Type) where
  groups : Nat
  failed : Nat
  path : List α

structure TrainState (α : Type) where
  reports : List (Report α)
  notes : List Note

abbrev TrainCommand (α β : Type) := Command (TrainState α) β

/-- Rows as the optimizer sees them, the scales of the rows as they were, and the context. -/
structure FitInput (α : Type) where
  source : Source α
  scales : Scales α
  context : StepContext α

def TrainState.start {α : Type} : TrainState α := ⟨[], []⟩

namespace Train

variable {α : Type} [Scalar α]

def defaultOptions : TrainOptions α where
  family := "gaussian"
  method := "igd"
  mixing := 1
  strength := 0.1
  standardize := true
  grouped := false
  params := ""
  budget := 100
  tolerance := 1e-6

def checkOptions (options : TrainOptions α) : Except Error Family := do
  match Family.ofName? options.family with
  | none => throw (.unknownFamily options.family)
  | some family =>
    if ¬(0 ≤ options.mixing ∧ options.mixing ≤ 1) then
      throw (.badAlpha (Scalar.text options.mixing))
    if !Scalar.isFinite options.strength || options.strength < 0 then
      throw (.badLambda (Scalar.text options.strength))
    if options.budget = 0 then throw .badBudget
    if !Scalar.isFinite options.tolerance || options.tolerance < 0 then
      throw (.badTolerance (Scalar.text options.tolerance))
    return family

def checkRows (source : Source α) : Except Error Unit := do
  if source.dimension = 0 then throw .noFeatures
  if source.partitions.isEmpty then throw .noRows
  if source.rowCount = source.incompleteCount then throw (.noCompleteRows source.rowCount)

def skippedNotes (source : Source α) : List Note :=
  if 0 < source.incompleteCount then
    [.info (toString source.incompleteCount ++ " of " ++ toString source.rowCount
      ++ " rows have missing values and are skipped")]
  else []

def checkResponses (family : Family) (source : Source α) : Except Error Unit :=
  match family with
  | .gaussian => .ok ()
  | .binomial =>
    match source.rows.find? fun row =>
      row.isComplete && row.response != 0 && row.response != 1 with
    | some row => .error (.badBinaryResponse (Scalar.text row.response))
    | none => .ok ()

def baseContext (options : TrainOptions α) (params : Params α) (dimension : Nat) :
    StepContext α :=
  { StepContext.default with
    mixing := options.mixing
    dimension := dimension
    stepSize := params.stepSize
    stepDecay := params.stepDecay
    threshold := params.threshold
    maxStepSize := params.maxStepSize
    eta := params.eta }

def prepare (source : Source α) (base : StepContext α) (standardize center : Bool) :
    Except Error (FitInput α) := do
  let scales := Scales.measure source
  let fitted ←
    if standardize ∧ 0 < scales.complete then scales.standardize center source else pure source
  let fittedScales := if standardize then Scales.measure fitted else scales
  return {
    source := fitted
    scales := scales
    context := { base with
      totalRows := fittedScales.complete
      means := fittedScales.means
      responseMean := fittedScales.responseMean } }

def layPath (options : TrainOptions α) (params : Params α) (scales : Scales α) :
    Except Error (Path α) × List Note :=
  if !params.warmup then (Path.single options.strength, [])
  else
    match params.warmupPath with
    | some path => (.ok path, path.explicitNotes (some options.strength))
    | none =>
      let moments :=
        if options.standardize then Vector.ones scales.meanSquares.length
        else scales.meanSquares
      match Path.largestStrength moments scales.responseSpread options.mixing with
      | .error error => (.error error, [])
      | .ok largest =>
        (Path.generate largest options.strength params.warmupCount,
          Path.generateNotes (largest, Scalar.resultText largest) params.warmupCount)

def finalModel (options : TrainOptions α) (center : Bool) (run : Run α) (state : RunState α)
    (input : FitInput α) (converged : Bool) : Except Error (Model α) := do
  let spreads :=
    if options.standardize then Vector.ones input.scales.spreads.length
    else input.scales.spreads
  let model ← run.pass.optimizer.model (← run.current state) spreads options.tolerance
  let model := { model with status := if converged then .completed else .inProcess }
  if options.standardize then input.scales.restore center model else return model

def report (options : TrainOptions α) (center : Bool) (run : Run α) (state : RunState α)
    (input : FitInput α) : Except Error (Report α) := do
  let row : Report α := { Report.empty with
    group := run.group
    processed := input.scales.complete
    skipped := input.scales.incomplete
    iterations := state.progress.iterations
    position := state.progress.phase.position }
  match state.progress.phase with
  | .done _ converged =>
    let model ← finalModel options center run state input converged
    return { row with model := model, isNull := false, converged := converged }
  | .failed failure _ => return { row with message := failure.message }
  | _ => return row

def tell (notes : List Note) : TrainCommand α Unit :=
  modify fun state => { state with notes := state.notes ++ notes }

def write (row : Report α) : TrainCommand α Unit :=
  modify fun state => { state with reports := state.reports ++ [row] }

/-- What both ways of training work with once everything is checked. -/
structure Plan (α : Type) where
  options : TrainOptions α
  center : Bool
  base : StepContext α
  path : Path α
  pass : Pass α
  test : ConvergenceTest α
  source : Source α

def plan (source? : Option (Source α)) (options : TrainOptions α) : TrainCommand α (Plan α) := do
  let family ← Command.lift (checkOptions options)
  let params ← Command.lift (Params.parse options.params options.method)
  let optimizer ← Command.lift (Optimizer.ofNames options.family options.method)
  match source? with
  | none => throw .noTrainingData
  | some source =>
    Command.lift (checkRows source)
    tell (skippedNotes source)
    Command.lift (checkResponses family source)
    let (path, notes) := layPath options params (Scales.measure source)
    tell notes
    let path ← Command.lift path
    tell [.info ("Regularization path " ++ path.text)]
    let pass ← Command.lift
      (Pass.create (some optimizer) (if params.parallel then .parallel else .single))
    let test ← Command.lift (ConvergenceTest.create (some optimizer) options.tolerance
      (params.warmupTolerance.getD options.tolerance))
    return {
      options := options
      center := family = .gaussian
      base := baseContext options params source.dimension
      path := path
      pass := pass
      test := test
      source := source }

def trainAll (plan : Plan α) : TrainCommand α (TrainSummary α) := do
  let input ← Command.lift
    (prepare plan.source plan.base plan.options.standardize plan.center)
  let run ← Command.lift (Run.create none plan.path plan.pass plan.test input.context
    (some input.source) plan.options.budget)
  let (result, state) := Command.result run.toEnd .start
  tell state.notes
  Command.lift result
  match state.progress.phase with
  | .failed failure _ => throw failure.toError
  | _ =>
    write (← Command.lift (report plan.options plan.center run state input))
    return { groups := 1, failed := 0, path := plan.path.strengths }

def addGroups (plan : Plan α) (groups : Groups α) :
    List String → GroupsCommand α (List (String × FitInput α))
  | [] => return []
  | key :: rest => do
    let input ← Command.lift (prepare (plan.source.selectGroup key) plan.base
      plan.options.standardize plan.center)
    groups.add key input.context (some input.source)
    return (key, input) :: (← addGroups plan groups rest)

def reportGroups (plan : Plan α) (state : GroupsState α) :
    List (String × FitInput α) → TrainCommand α Unit
  | [] => pure ()
  | (key, input) :: rest => do
    let member ← Command.lift (state.member key)
    write (← Command.lift (report plan.options plan.center member.run (state.view member) input))
    reportGroups plan state rest

def missedTarget (state : GroupsState α) : List String :=
  (state.members.filter fun member =>
    match member.progress.phase with
    | .failed .targetNotReached _ => true
    | _ => false).map Member.key

def trainGroups (plan : Plan α) : TrainCommand α (TrainSummary α) := do
  let groups : Groups α :=
    { path := plan.path, pass := plan.pass, test := plan.test, budget := plan.options.budget }
  let (result, state) := Command.result (do
    let inputs ← addGroups plan groups plan.source.groupKeys
    groups.toEnd
    return inputs) GroupsState.start
  tell state.notes
  let inputs ← Command.lift result
  reportGroups plan state inputs
  if 0 < state.failedCount then
    tell [.warning (toString state.failedCount ++ " of " ++ toString inputs.length
      ++ " groups could not be fitted.")]
  if !(missedTarget state).isEmpty then throw (.groupsMissedTarget (missedTarget state))
  return { groups := inputs.length, failed := state.failedCount, path := plan.path.strengths }

end Train

def train {α : Type} [Scalar α] (source? : Option (Source α)) (options : TrainOptions α) :
    TrainCommand α (TrainSummary α) := do
  let plan ← Train.plan source? options
  if options.grouped then Train.trainGroups plan else Train.trainAll plan

end ElasticNet
