import ElasticNet.Optimizer.Layout
import ElasticNet.Scalar

namespace ElasticNet.Fista

/-- The state of proximal steps with momentum. A pass gathers the gradient at the momentum point, or
    the objective at a candidate, until a candidate is below its quadratic model. -/
structure State (α : Type) where
  dimension : α
  strength : α
  mixing : α
  totalRows : α
  intercept : α
  momentumIntercept : α
  coefficients : List α
  momentum : List α
  inertia : α
  rows : α
  gradient : List α
  maxStepSize : α
  /-- The factor by which a rejected step size is divided. -/
  eta : α
  /-- The objective at the candidate point, less the absolute penalty. -/
  candidateValue : α
  /-- The objective at the momentum point, less the absolute penalty. -/
  momentumValue : α
  stepSize : α
  candidate : List α
  candidateIntercept : α
  interceptGradient : α
  /-- Zero while the gradient is gathered, and the number of candidates tried after that. -/
  trial : α
  logLikelihood : α
  status : α

variable {α : Type} [Scalar α]

def slotCount (dimension : Nat) : Nat :=
  18 + 4 * dimension

def readState : SlotReader α (State α) := do
  let dimension ← SlotReader.one
  let count := (Scalar.toUInt32 dimension).toNat
  let strength ← SlotReader.one
  let mixing ← SlotReader.one
  let totalRows ← SlotReader.one
  let intercept ← SlotReader.one
  let momentumIntercept ← SlotReader.one
  let coefficients ← SlotReader.block count
  let momentum ← SlotReader.block count
  let inertia ← SlotReader.one
  let rows ← SlotReader.one
  let gradient ← SlotReader.block count
  let maxStepSize ← SlotReader.one
  let eta ← SlotReader.one
  let candidateValue ← SlotReader.one
  let momentumValue ← SlotReader.one
  let stepSize ← SlotReader.one
  let candidate ← SlotReader.block count
  let candidateIntercept ← SlotReader.one
  let interceptGradient ← SlotReader.one
  let trial ← SlotReader.one
  let logLikelihood ← SlotReader.one
  let status ← SlotReader.one
  return { dimension, strength, mixing, totalRows, intercept, momentumIntercept, coefficients,
           momentum, inertia, rows, gradient, maxStepSize, eta, candidateValue, momentumValue,
           stepSize, candidate, candidateIntercept, interceptGradient, trial, logLikelihood,
           status }

def writeState (state : State α) : List α :=
  [state.dimension, state.strength, state.mixing, state.totalRows, state.intercept,
    state.momentumIntercept]
  ++ state.coefficients ++ state.momentum ++ [state.inertia, state.rows]
  ++ state.gradient
  ++ [state.maxStepSize, state.eta, state.candidateValue, state.momentumValue, state.stepSize]
  ++ state.candidate
  ++ [state.candidateIntercept, state.interceptGradient, state.trial, state.logLikelihood,
    state.status]

def layout : Layout α (State α) where
  read := readState
  write := writeState

end ElasticNet.Fista
