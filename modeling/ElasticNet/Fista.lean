import ElasticNet.Fista.Places
import ElasticNet.Optimizer.SoftThreshold

namespace ElasticNet.Fista

variable {α : Type} [Scalar α]

def initialState (context : StepContext α) : State α :=
  let zeros := Vector.zeros context.dimension
  { dimension := (context.dimension : α)
    strength := context.strength
    mixing := context.mixing
    totalRows := (context.totalRows : α)
    intercept := 0
    momentumIntercept := 0
    coefficients := zeros
    momentum := zeros
    inertia := 1
    rows := 0
    gradient := zeros
    maxStepSize := context.maxStepSize
    eta := context.eta
    candidateValue := 0
    momentumValue := 0
    stepSize := context.maxStepSize
    candidate := zeros
    candidateIntercept := 0
    interceptGradient := 0
    trial := 0
    logLikelihood := 0
    status := Status.inProcess.slot }

def State.trials (state : State α) : UInt32 :=
  Scalar.toUInt32 state.trial

def State.restart (state : State α) (context : StepContext α) : State α :=
  { state with
    strength := context.strength
    inertia := 1
    stepSize := context.maxStepSize
    trial := 0
    momentum := state.coefficients
    momentumIntercept := state.intercept }

/-- The state with the accumulators of a pass cleared. The value at the momentum point is gathered
    once, in the pass of the first candidate, and kept for the others. -/
def State.begin (state : State α) (context : StepContext α) : State α :=
  let state := if state.strength != context.strength then state.restart context else state
  let state :=
    if state.trials = 0 then
      { state with gradient := state.gradient.map fun _ => 0, interceptGradient := 0 }
    else
      { state with
        candidateValue := 0
        momentumValue := if state.trials = 1 then 0 else state.momentumValue }
  { state with rows := 0, status := Status.inProcess.slot }

def State.momentumPredictor (state : State α) (features : List α) : α :=
  state.momentumIntercept + Vector.sparseDot state.momentum features

def State.candidatePredictor (state : State α) (features : List α) : α :=
  state.candidateIntercept + Vector.sparseDot state.candidate features

def State.transition (family : Family) (state : State α) (features : List α) (response : α) :
    State α :=
  let label := family.label response
  let state :=
    if state.trials = 0 then
      let slope := family.derivative (state.momentumPredictor features) label
      { state with
        gradient := List.zipWith (fun g x => g + x * slope) state.gradient features
        interceptGradient := state.interceptGradient + slope }
    else
      { state with
        candidateValue :=
          state.candidateValue + family.loss (state.candidatePredictor features) label
        momentumValue :=
          if state.trials = 1 then
            state.momentumValue + family.loss (state.momentumPredictor features) label
          else state.momentumValue }
  { state with rows := state.rows + 1 }

def State.combine (left right : State α) : State α :=
  let state :=
    if left.trials = 0 then
      { left with
        gradient := Vector.add left.gradient right.gradient
        interceptGradient := left.interceptGradient + right.interceptGradient }
    else
      { left with
        candidateValue := left.candidateValue + right.candidateValue
        momentumValue :=
          if left.trials = 1 then left.momentumValue + right.momentumValue
          else left.momentumValue }
  { state with rows := left.rows + Scalar.ofCount (Scalar.toUInt64 right.rows) }

def State.propose (state : State α) (stepSize : α) : State α :=
  let threshold := state.strength * state.mixing * stepSize
  { state with
    candidate := List.zipWith (fun y g => softThreshold threshold (y - stepSize * g))
      state.momentum state.gradient
    candidateIntercept := state.momentumIntercept - stepSize * state.interceptGradient }

def State.finishGradient (state : State α) (total : α) : State α :=
  let ridge := state.strength * (1 - state.mixing)
  let gradient := List.zipWith (fun g y => if y != 0 then g / total + ridge * y else g / total)
    state.gradient state.momentum
  let state :=
    { state with gradient := gradient, interceptGradient := state.interceptGradient / total }
  { state.propose state.stepSize with trial := 1 }

def State.smoothValue (state : State α) (total losses : α) (point : List α) : α :=
  losses / total + 0.5 * state.strength * (1 - state.mixing) * Vector.sparseDot point point

/-- What the quadratic model adds to the value at the momentum point. -/
def State.modelIncrement (state : State α) : α :=
  let move := Vector.sub state.candidate state.momentum
  let ofCoefficients := Vector.sparseDot move state.gradient
    + 0.5 * Vector.sparseDot move move / state.stepSize
  if state.interceptGradient != 0 then
    ofCoefficients
      + -0.5 * state.interceptGradient * state.interceptGradient * state.stepSize
  else ofCoefficients

def State.accept (state : State α) : State α :=
  let before := state.inertia
  let inertia := 0.5 * (1 + Scalar.sqrt (1 + 4.0 * before * before))
  let ahead (new old : α) : α := new + (before - 1) * (new - old) / inertia
  let sizes := Vector.sum (state.candidate.map Scalar.abs)
  { state with
    inertia := inertia
    momentum := List.zipWith ahead state.candidate state.coefficients
    momentumIntercept := ahead state.candidateIntercept state.intercept
    coefficients := state.candidate
    intercept := state.candidateIntercept
    logLikelihood := -(state.candidateValue + state.strength * state.mixing * sizes)
    trial := 0 }

def State.reject (state : State α) : State α :=
  let stepSize := state.stepSize / state.eta
  { { state with stepSize := stepSize }.propose stepSize with trial := state.trial + 1 }

def State.finishTrial (state : State α) (total : α) : State α :=
  let state :=
    { state with
      candidateValue := state.smoothValue total state.candidateValue state.candidate
      momentumValue :=
        if state.trials = 1 then state.smoothValue total state.momentumValue state.momentum
        else state.momentumValue }
  if state.candidateValue ≤ state.momentumValue + state.modelIncrement then state.accept
  else state.reject

def State.isFinite (state : State α) : Bool :=
  Scalar.allFinite state.coefficients && Scalar.allFinite state.gradient
    && Scalar.isFinite state.intercept && Scalar.isFinite state.candidateValue
    && Scalar.isFinite state.logLikelihood

def State.finalize (state : State α) : State α :=
  if Scalar.toUInt64 state.rows = 0 then { state with status := Status.empty.slot }
  else
    let total := Scalar.ofCount (Scalar.toUInt64 state.totalRows)
    let state :=
      if state.trials = 0 then state.finishGradient total else state.finishTrial total
    { state with
      status := (if state.isFinite then Status.inProcess else Status.terminated).slot }

/-- The change of a number relative to its new size; the change itself if the new number is zero. -/
def relativeChange (before after : α) : α :=
  let change := Scalar.abs (before - after)
  let size := Scalar.abs after
  if size != 0 then change / size else change

/-- The distance that no tolerance meets while candidates are tried. -/
def trialDistance : α := 1e12

def meanChange (dimension : UInt32) (before after : List α) (beforeIntercept afterIntercept : α) :
    α :=
  let changes := List.zipWith relativeChange before after
  let total := changes.foldl (· + ·) 0 + relativeChange beforeIntercept afterIntercept
  total / ((dimension + 1).toNat : α)

def State.distance (before after : State α) : α :=
  if 0 < after.trials then trialDistance
  else
    meanChange (Scalar.toUInt32 before.dimension) before.coefficients after.coefficients
      before.intercept after.intercept

def State.model (state : State α) : Model α where
  intercept := state.intercept
  coefficients := state.coefficients
  strength := state.strength
  logLikelihood := state.logLikelihood
  status := Status.ofSlot state.status

def begin (previous : Slots α) (context : StepContext α) : Except Error (Slots α) :=
  match layout.view? previous with
  | some state => .ok (layout.write (state.begin context))
  | none => beginByPlace previous context

def transition (family : Family) (features : List α) (response : α) : Editing α Unit :=
  layout.edit
    (fun state =>
      if features.length ≤ state.coefficients.length then
        some (state.transition family features response)
      else none)
    (transitionByPlace family features response)

def merge (other : Slots α) : Editing α Unit := fun slots =>
  match layout.read slots, layout.view? other with
  | some (left, rest), some right =>
    if Scalar.toUInt64 right.rows = 0 then .ok () slots
    else if Scalar.toUInt64 left.rows = 0 then Editing.overwrite other slots
    else if left.coefficients.length ≤ right.coefficients.length then
      .ok () (layout.write (left.combine right) ++ rest)
    else combineByPlace other slots
  | _, _ => mergeByPlace other slots

/-- The distance of states by the places of their fields. A current state with fewer coefficients
    is read on in the slots behind them. -/
def distanceByPlace (previous current : Slots α) : Except Error α := do
  let dimension ← Slots.locate Place.all previous
  let currentDimension ← Slots.locate Place.all current
  if 0 < Scalar.toUInt32 (← Slots.read current (Place.trial currentDimension)) then
    return trialDistance
  let coefficients (slots : Slots α) : Except Error (List α) :=
    Slots.readBlock slots Place.coefficients dimension.toNat
  return meanChange dimension (← coefficients previous) (← coefficients current)
    (← Slots.read previous Place.intercept) (← Slots.read current Place.intercept)

def distance (previous current : Slots α) : Except Error α :=
  match layout.view? previous, layout.view? current with
  | some before, some after =>
    if before.coefficients.length ≤ after.coefficients.length then .ok (before.distance after)
    else distanceByPlace previous current
  | _, _ => distanceByPlace previous current

def optimizer (family : Family) : Optimizer α where
  initial context :=
    if context.dimension = 0 then .error .fistaShape
    else if slotCount context.dimension < UInt32.size then
      .ok (layout.write (initialState context))
    else initialByPlace context
  begin previous? context := begin (previous?.getD []) context
  transition := transition family
  merge := merge
  finalize := layout.edit (some ∘ State.finalize) finalizeByPlace
  distance := distance
  model slots _ _ := (layout.view slots).map State.model

end ElasticNet.Fista
