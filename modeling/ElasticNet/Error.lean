namespace ElasticNet

inductive ErrorKind where
  | parameter
  | data
  | convergence
  | numerical
  | outOfRange
  | invalidArgument
  | logic
  | runtime
deriving DecidableEq

/-- What can go wrong. Numbers are kept as the text that messages show. -/
inductive Error where
  -- names of models
  | unknownFamily (name : String)
  | unknownOptimizer (name : String)
  -- paths of strengths
  | noWarmupStrengths
  | emptyPath
  | badStrength (value : String) (position : Nat)
  | increasingPath (value previous : String)
  | unbalancedPath (text : String)
  | unreadableStrength (token text : String)
  | noMoments
  | positionOutOfBounds
  -- optimizer parameters
  | unbalancedParameters (text : String)
  | malformedParameter (part : String)
  | repeatedParameter (key : String)
  | unknownParameter (key optimizer : String)
  | notANumber (key value : String)
  | notFinite (key value : String)
  | notAnInteger (key value : String)
  | notABoolean (key value : String)
  | notPositiveInteger (key value : String)
  | outsideBounds (key bounds value : String)
  -- training options and data
  | badAlpha (value : String)
  | badLambda (value : String)
  | badBudget
  | badTolerance (value : String)
  | noTrainingData
  | noFeatures
  | noRows
  | noCompleteRows (rows : Nat)
  | badBinaryResponse (value : String)
  | rowSize (found expected : Nat)
  | partitionSize (found expected : Nat)
  | rowOutOfBounds
  | partitionOutOfBounds
  | scalesOfOtherData
  | scalesOfOtherModel
  -- predictions
  | nonFiniteModel
  | featureCount (expected found : Nat)
  -- arrays and optimizer states
  | indexOutOfBounds
  | nullArray
  | unmatchedLengths
  | emptyState
  | igdShape
  | fistaShape
  | igdSizes
  -- passes and convergence
  | passWithoutOptimizer
  | passFromNothing
  | testWithoutOptimizer
  | negativeTolerance
  | testWithoutStates
  -- recorded states
  | recordOfNothing
  | recordedTwice (key : String)
  | notRecorded (key : String)
  -- runs along the path
  | runWithoutData
  | runWithoutBudget
  | runStarted
  | runNotStarted
  | runNotAtPosition
  | diverged (strength : String) (iteration : Nat)
  | nothingToFit
  | targetNotReached
  -- runs of groups
  | groupAfterStart
  | groupTwice (key : String)
  | groupsStarted
  | groupsNotStarted
  | unknownGroup (key : String)
  | groupsMissedTarget (keys : List String)
  | noResult (key : String)

namespace Error

def kind : Error → ErrorKind
  | unknownFamily _ | unknownOptimizer _ | noWarmupStrengths | emptyPath | badStrength _ _
  | increasingPath _ _ | unbalancedPath _ | unreadableStrength _ _ | unbalancedParameters _
  | malformedParameter _ | repeatedParameter _ | unknownParameter _ _ | notANumber _ _
  | notFinite _ _ | notAnInteger _ _ | notABoolean _ _ | notPositiveInteger _ _
  | outsideBounds _ _ _ | badAlpha _ | badLambda _ | badBudget | badTolerance _
  | negativeTolerance | runWithoutBudget => .parameter
  | noFeatures | noRows | noCompleteRows _ | badBinaryResponse _ | rowSize _ _
  | partitionSize _ _ | nothingToFit => .data
  | targetNotReached | groupsMissedTarget _ => .convergence
  | diverged _ _ => .numerical
  | positionOutOfBounds | rowOutOfBounds | partitionOutOfBounds | indexOutOfBounds
  | notRecorded _ | unknownGroup _ | noResult _ => .outOfRange
  | noMoments | noTrainingData | scalesOfOtherData | scalesOfOtherModel | featureCount _ _
  | nullArray | emptyState | igdShape | fistaShape | passWithoutOptimizer | passFromNothing
  | testWithoutOptimizer | recordOfNothing | runWithoutData => .invalidArgument
  | igdSizes | testWithoutStates | recordedTwice _ | runStarted | runNotStarted
  | runNotAtPosition | groupAfterStart | groupTwice _ | groupsStarted | groupsNotStarted => .logic
  | nonFiniteModel | unmatchedLengths => .runtime

def message : Error → String
  | unknownFamily name => s!"Unknown family \"{name}\", expected gaussian or binomial."
  | unknownOptimizer name => s!"Unknown optimizer \"{name}\", expected igd or fista."
  | noWarmupStrengths => "Number of warm-up strengths must be positive."
  | emptyPath => "Regularization path is empty."
  | badStrength value position =>
    s!"Regularization strength {value} at position {position} is not a finite non-negative number."
  | increasingPath value previous =>
    s!"Regularization path must be non-increasing, but {value} follows {previous}."
  | unbalancedPath text => s!"Unbalanced brackets in regularization path \"{text}\"."
  | unreadableStrength token text =>
    s!"Cannot parse \"{token}\" in regularization path \"{text}\"."
  | noMoments => "Second moments are empty."
  | positionOutOfBounds => "Path position out of bounds."
  | unbalancedParameters text => s!"Unbalanced brackets in optimizer parameters \"{text}\"."
  | malformedParameter part =>
    s!"Optimizer parameter \"{part}\" is not of the form key = value."
  | repeatedParameter key => s!"Optimizer parameter {key} given twice."
  | unknownParameter key optimizer => s!"Unknown optimizer parameter {key} for {optimizer}."
  | notANumber key value => s!"Invalid value \"{value}\" for {key}, expected a number."
  | notFinite key value => s!"Invalid value {value} for {key}, expected a finite number."
  | notAnInteger key value => s!"Invalid value \"{value}\" for {key}, expected an integer."
  | notABoolean key value => s!"Invalid value \"{value}\" for {key}, expected a boolean."
  | notPositiveInteger key value => s!"{key} must be a positive integer, got {value}."
  | outsideBounds key bounds value => s!"{key} must be {bounds}, got {value}."
  | badAlpha value => s!"alpha must be in [0, 1], got {value}."
  | badLambda value => s!"lambda must be a finite non-negative number, got {value}."
  | badBudget => "max_iter must be positive."
  | badTolerance value => s!"tolerance must be a finite non-negative number, got {value}."
  | noTrainingData => "Training needs a data source."
  | noFeatures => "Training rows have no features."
  | noRows => "No training rows."
  | noCompleteRows rows => s!"None of the {rows} training rows is complete."
  | badBinaryResponse value => s!"Binomial response must be 0 or 1, got {value}."
  | rowSize found expected => s!"Row has {found} features, expected {expected}."
  | partitionSize found expected => s!"Partition has dimension {found}, expected {expected}."
  | rowOutOfBounds => "Row index out of bounds."
  | partitionOutOfBounds => "Partition index out of bounds."
  | scalesOfOtherData => "Scales do not match the data dimension."
  | scalesOfOtherModel => "Scales do not match the model dimension."
  | nonFiniteModel => "Elastic Net error: the coefficients contain NULL values"
  | featureCount expected found =>
    s!"Elastic Net error: expected {expected} features, got {found}"
  | indexOutOfBounds => "Array index out of bounds."
  | nullArray => "Cannot clone a null array."
  | unmatchedLengths =>
    "HandleMap::operator= found unmatched dimensions. To change dimensions, use rebind()"
  | emptyState => "Optimizer state is empty."
  | igdShape => "IGD state needs a positive dimension and one mean per feature."
  | fistaShape => "FISTA state needs a positive dimension."
  | igdSizes => "Internal error: IGD states of different size."
  | passWithoutOptimizer => "Step invoker needs an optimizer."
  | passFromNothing => "Cannot step from an empty state."
  | testWithoutOptimizer => "Convergence test needs an optimizer."
  | negativeTolerance => "Tolerance must be non-negative."
  | testWithoutStates => "Convergence test needs two states."
  | recordOfNothing => "Cannot record an empty state."
  | recordedTwice key => s!"State {key} is already recorded."
  | notRecorded key => s!"No state recorded for {key}."
  | runWithoutData => "Iteration driver needs a data source."
  | runWithoutBudget => "Maximum number of iterations must be positive."
  | runStarted => "Iteration driver already started."
  | runNotStarted => "Iteration driver not started."
  | runNotAtPosition => "Iteration driver is not at a path position."
  | diverged strength iteration =>
    s!"Optimizer diverged at regularization strength {strength} (iteration {iteration})."
  | nothingToFit => "No complete rows to fit."
  | targetNotReached =>
    "Target regularization strength not reached. Increase the iteration budget."
  | groupAfterStart => "Groups must be added before the run starts."
  | groupTwice key => s!"Group \"{key}\" added twice."
  | groupsStarted => "Grouped driver already started."
  | groupsNotStarted => "Grouped driver not started."
  | unknownGroup key => s!"Unknown group \"{key}\"."
  | groupsMissedTarget keys =>
    "Target regularization strength not reached for group(s) " ++ String.intercalate ", " keys
      ++ ". Increase the iteration budget."
  | noResult key => s!"No result for group \"{key}\"."

end Error

end ElasticNet
