import ElasticNet.Family
import ElasticNet.Igd.Link
import ElasticNet.Igd.Places
import ElasticNet.Optimizer.SoftThreshold
import ElasticNet.Vector

namespace ElasticNet.Igd

variable {α : Type} [Scalar α]

def initialState (family : Family) (context : StepContext α) : State α :=
  let exponent := Scalar.max 2.0 (2.0 * Scalar.log (context.dimension : α))
  let dual := Vector.zeros context.dimension
  { dimension := (context.dimension : α)
    mixing := context.mixing
    threshold := context.threshold
    stepDecay := context.stepDecay
    exponent := exponent
    dualExponent := exponent / (exponent - 1)
    totalRows := (context.totalRows : α)
    means := context.means
    responseMean := context.responseMean
    strength := context.strength
    stepSize := storedStepSize context.stepSize context.stepDecay
    coefficients := link exponent dual
    dual := dual
    intercept := if family.centered then context.responseMean else 0
    rows := 0
    logLikelihood := 0
    status := Status.inProcess.slot }

/-- The state with the accumulators of a pass cleared. Another strength than before starts the
    steps anew. -/
def State.begin (state : State α) (context : StepContext α) : State α :=
  let state :=
    if state.strength != context.strength then
      { state with
        strength := context.strength
        stepSize := storedStepSize context.stepSize state.stepDecay }
    else state
  { state with rows := 0, logLikelihood := 0, status := Status.inProcess.slot }

def State.centeredIntercept (state : State α) : α :=
  state.responseMean - Vector.sparseDot state.coefficients state.means

def State.predictor (state : State α) (features : List α) : α :=
  Vector.sparseDot state.coefficients features + state.intercept

def State.gradient (family : Family) (state : State α) (slope : α) (features : List α) : List α :=
  let ridge := (1 - state.mixing) * state.strength
  let whole := Vector.add (Vector.scale slope features) (Vector.scale ridge state.coefficients)
  if family.centered then Vector.sub whole (Vector.scale slope state.means) else whole

def State.decay (state : State α) : State α :=
  { state with stepSize := state.stepSize / Scalar.exp state.stepDecay }

def State.descend (family : Family) (state : State α) (slope : α) (features : List α) : State α :=
  let total := Scalar.ofCount (Scalar.toUInt64 state.totalRows)
  let step := state.stepSize / total
  let threshold := state.stepSize * state.mixing * state.strength / total
  let dual := List.zipWith (fun t g => truncateAtZero threshold (t - step * g)) state.dual
    (state.gradient family slope features)
  { state with dual := dual, coefficients := link state.exponent dual }

def State.adjustIntercept (family : Family) (state : State α) (slope : α) : State α :=
  { state with
    intercept :=
      if family.centered then state.centeredIntercept
      else state.intercept - state.stepSize * slope }

def State.countRow (state : State α) (loss : α) : State α :=
  { state with logLikelihood := state.logLikelihood + loss, rows := state.rows + 1 }

/-- One row moves the dual vector along its gradient and then toward zero; the coefficients are its
    image. -/
def State.transition (family : Family) (state : State α) (features : List α) (response : α) :
    State α :=
  let label := family.label response
  let slope (state : State α) : α := family.derivative (state.predictor features) label
  let state := state.decay
  let state := state.descend family (slope state) features
  let state := state.adjustIntercept family (slope state)
  state.countRow (family.loss (state.predictor features) label)

def State.average (family : Family) (left right : State α) : State α :=
  let leftRows := Scalar.toUInt64 left.rows
  let rightRows := Scalar.toUInt64 right.rows
  let leftCount : α := Scalar.ofCount leftRows
  let rightCount : α := Scalar.ofCount rightRows
  let total : α := Scalar.ofCount (leftRows + rightRows)
  let summed := Vector.add (Vector.scale (leftCount / rightCount) left.coefficients)
    right.coefficients
  { left with
    coefficients := Vector.scale (rightCount / total) summed
    intercept :=
      if family.centered then left.intercept
      else (left.intercept * leftCount + right.intercept * rightCount) / total
    logLikelihood := left.logLikelihood + right.logLikelihood
    rows := left.rows + rightCount
    stepSize := if right.stepSize < left.stepSize then right.stepSize else left.stepSize }

def State.penalty (state : State α) : α :=
  let squares := state.coefficients.foldl (fun total c => total + c * c) 0
  let sizes := state.coefficients.foldl (fun total c => total + Scalar.abs c) 0
  state.strength * ((1 - state.mixing) * squares / 2.0 + state.mixing * sizes)

def State.finalize (family : Family) (state : State α) : State α :=
  let rows := Scalar.toUInt64 state.rows
  if rows = 0 then { state with status := Status.empty.slot }
  else
    let state :=
      if family.centered then { state with intercept := state.centeredIntercept } else state
    let meanLoss := state.logLikelihood / Scalar.ofCount rows
    let state :=
      { state with
        dual := link state.dualExponent state.coefficients
        logLikelihood := -(meanLoss + state.penalty) }
    let finite := Scalar.allFinite state.coefficients && Scalar.isFinite state.intercept
      && Scalar.isFinite state.logLikelihood
    { state with status := (if finite then Status.inProcess else Status.terminated).slot }

/-- The coefficients without the negligible ones: those whose standardized size is below a share of
    the average size, or below the tolerance. -/
def State.keptCoefficients (state : State α) (spreads : List α) (tolerance : α) : List α :=
  let sizes := List.zipWith (· * ·) state.coefficients spreads
  let total := sizes.foldl (fun total size => total + Scalar.abs size) 0
  let average := total / ((Scalar.toUInt32 state.dimension).toNat : α)
  List.zipWith (fun c size =>
    if Scalar.abs (size / average) < state.threshold ∨ Scalar.abs size < tolerance then 0 else c)
    state.coefficients sizes

def State.model (state : State α) (spreads : List α) (tolerance : α) : Model α where
  intercept := state.intercept
  coefficients := state.keptCoefficients spreads tolerance
  strength := state.strength
  logLikelihood := state.logLikelihood
  status := Status.ofSlot state.status

/-- The next pass in slots of its own. The copy takes states of the exact size only. -/
def begin (previous : Slots α) (context : StepContext α) : Except Error (Slots α) :=
  match layout.view? previous with
  | some state =>
    if previous.length = slotCount (Scalar.toUInt32 state.dimension).toNat then
      .ok (layout.write (state.begin context))
    else .error .igdSizes
  | none => beginByPlace previous context

def change (next : State α → State α) : Editing α Unit :=
  layout.edit (some ∘ next) (throw .indexOutOfBounds)

/-- Takes in a row with more features than there are coefficients. Its predictor reads on in the
    slots behind the coefficients, each as it is by then. -/
def transitionReadingOn (family : Family) (features : List α) (response : α) : Editing α Unit := do
  let label := family.label response
  change State.decay
  let slope := family.derivative (← predictorByPlace features) label
  change fun state => state.descend family slope features
  let slope := family.derivative (← predictorByPlace features) label
  change fun state => state.adjustIntercept family slope
  let loss := family.loss (← predictorByPlace features) label
  change fun state => state.countRow loss

def transition (family : Family) (features : List α) (response : α) : Editing α Unit :=
  layout.edit
    (fun state =>
      if features.length ≤ state.coefficients.length then
        some (state.transition family features response)
      else none)
    (transitionReadingOn family features response)

def merge (family : Family) (other : Slots α) : Editing α Unit := fun slots =>
  match layout.read slots, layout.view? other with
  | some (left, rest), some right =>
    if Scalar.toUInt64 right.rows = 0 then .ok () slots
    else if Scalar.toUInt64 left.rows = 0 then
      if slots.length = other.length then .ok () other else .error .igdSizes slots
    else if left.coefficients.length ≤ right.coefficients.length then
      .ok () (layout.write (left.average family right) ++ rest)
    else averageByPlace family other slots
  | _, _ => mergeByPlace family other slots

/-- How far a state is from the one before it: the change of the size of the log-likelihood. -/
def distance (previous current : Slots α) : Except Error α :=
  match layout.view? previous, layout.view? current with
  | some before, some after =>
    .ok (Scalar.abs (Scalar.abs before.logLikelihood - Scalar.abs after.logLikelihood))
  | _, _ => distanceByPlace previous current

def optimizer (family : Family) : Optimizer α where
  initial context :=
    if 0 < context.dimension ∧ context.means.length = context.dimension then
      .ok (layout.write (initialState family context))
    else .error .igdShape
  begin previous? context := begin (previous?.getD []) context
  transition := transition family
  merge := merge family
  finalize := layout.edit (some ∘ State.finalize family) finalizeByPlace
  distance := distance
  model slots spreads tolerance :=
    (layout.view slots).map fun state => state.model spreads tolerance

end ElasticNet.Igd
