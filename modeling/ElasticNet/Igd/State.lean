import ElasticNet.Optimizer.Layout
import ElasticNet.Scalar

namespace ElasticNet.Igd

structure State (α : Type) where
  dimension : α
  mixing : α
  threshold : α
  stepDecay : α
  exponent : α
  dualExponent : α
  totalRows : α
  means : List α
  responseMean : α
  strength : α
  stepSize : α
  coefficients : List α
  /-- The image of the coefficients under the link back, in which steps are taken. -/
  dual : List α
  intercept : α
  rows : α
  logLikelihood : α
  status : α

variable {α : Type} [Scalar α]

def slotCount (dimension : Nat) : Nat :=
  14 + 3 * dimension

def readState : SlotReader α (State α) := do
  let dimension ← SlotReader.one
  let count := (Scalar.toUInt32 dimension).toNat
  let mixing ← SlotReader.one
  let threshold ← SlotReader.one
  let stepDecay ← SlotReader.one
  let exponent ← SlotReader.one
  let dualExponent ← SlotReader.one
  let totalRows ← SlotReader.one
  let means ← SlotReader.block count
  let responseMean ← SlotReader.one
  let strength ← SlotReader.one
  let stepSize ← SlotReader.one
  let coefficients ← SlotReader.block count
  let dual ← SlotReader.block count
  let intercept ← SlotReader.one
  let rows ← SlotReader.one
  let logLikelihood ← SlotReader.one
  let status ← SlotReader.one
  return { dimension, mixing, threshold, stepDecay, exponent, dualExponent, totalRows, means,
           responseMean, strength, stepSize, coefficients, dual, intercept, rows, logLikelihood,
           status }

def writeState (state : State α) : List α :=
  [state.dimension, state.mixing, state.threshold, state.stepDecay, state.exponent,
    state.dualExponent, state.totalRows]
  ++ state.means ++ [state.responseMean, state.strength, state.stepSize]
  ++ state.coefficients ++ state.dual
  ++ [state.intercept, state.rows, state.logLikelihood, state.status]

/-- The step size as it is stored before a pass: every row divides it by the decay first. -/
def storedStepSize (stepSize stepDecay : α) : α :=
  stepSize * Scalar.exp stepDecay

def layout : Layout α (State α) where
  read := readState
  write := writeState

end ElasticNet.Igd
