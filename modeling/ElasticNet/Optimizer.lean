import ElasticNet.Model
import ElasticNet.Optimizer.Layout

namespace ElasticNet

structure StepContext (α : Type) where
  strength : α
  /-- The share of the absolute penalty: one for the lasso, zero for ridge regression. -/
  mixing : α
  dimension : Nat
  totalRows : Nat
  means : List α
  responseMean : α
  stepSize : α
  stepDecay : α
  threshold : α
  maxStepSize : α
  eta : α

def StepContext.default {α : Type} [Scalar α] : StepContext α where
  strength := 0
  mixing := 1
  dimension := 0
  totalRows := 0
  means := []
  responseMean := 0
  stepSize := 0.01
  stepDecay := 0
  threshold := 1e-10
  maxStepSize := 4.0
  eta := 2.0

/-- A fitting method as operations on flat states. -/
structure Optimizer (α : Type) where
  initial : StepContext α → Except Error (Slots α)
  /-- A copy of a state, ready to take in the rows of one pass. -/
  begin : Option (Slots α) → StepContext α → Except Error (Slots α)
  transition : (features : List α) → (response : α) → Editing α Unit
  merge : Slots α → Editing α Unit
  finalize : Editing α Unit
  distance : (previous current : Slots α) → Except Error α
  /-- The model of a state, given the spreads of the features and a tolerance. -/
  model : Slots α → (spreads : List α) → (tolerance : α) → Except Error (Model α)

/-- The status of a flat state, which its last slot keeps. -/
def Slots.status {α : Type} [Scalar α] (slots : Slots α) : Except Error Status :=
  match slots.getLast? with
  | some slot => .ok (.ofSlot slot)
  | none => .error .emptyState

end ElasticNet
