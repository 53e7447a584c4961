import ElasticNet.Optimizer
import ElasticNet.Optimizer.Slot

namespace ElasticNet.Halving

open Editing

variable {α : Type} [Scalar α]

def valueSlot : Nat := 0
def strengthSlot : Nat := 1
def passesSlot : Nat := 2
def rowsSlot : Nat := 3
def sumSlot : Nat := 4
def statusSlot : Nat := 5

def begin (context : StepContext α) : Editing α Unit := do
  if (← readSlot strengthSlot) != context.strength then
    writeSlot strengthSlot context.strength
    writeSlot passesSlot 0
  writeSlot rowsSlot 0
  writeSlot sumSlot 0
  writeSlot statusSlot Status.inProcess.slot

def merge (other : Slots α) : Editing α Unit := do
  match other[sumSlot]?, other[rowsSlot]? with
  | some sum, some rows =>
    addToSlot sumSlot sum
    addToSlot rowsSlot rows
  | _, _ => throw .indexOutOfBounds

def finalize : Editing α Unit := do
  if (← readSlot rowsSlot) == 0 then writeSlot statusSlot Status.empty.slot
  else
    let mean := (← readSlot sumSlot) / (← readSlot rowsSlot)
    let value := ((← readSlot valueSlot) + mean) / 2.0
    writeSlot valueSlot value
    addToSlot passesSlot 1
    let status := if Scalar.isFinite value then Status.inProcess else Status.terminated
    writeSlot statusSlot status.slot

def model (slots : Slots α) : Except Error (Model α) := do
  let intercept ← Slots.read slots valueSlot
  let strength ← Slots.read slots strengthSlot
  let status ← Slots.read slots statusSlot
  return { intercept, strength, coefficients := [0], logLikelihood := 0
           status := Status.ofSlot status }

def optimizer : Optimizer α where
  initial context :=
    .ok [0, context.strength, 0, 0, 0, Status.inProcess.slot]
  begin previous? context :=
    match previous? with
    | none => .error .nullArray
    | some previous => Command.apply (begin context) previous
  transition _ response := do
    addToSlot sumSlot response
    addToSlot rowsSlot 1
  merge := merge
  finalize := finalize
  distance previous current := do
    let _ ← Slots.read current passesSlot
    let after ← Slots.read current valueSlot
    let before ← Slots.read previous valueSlot
    return Scalar.abs (after - before)
  model slots _ _ := model slots

end ElasticNet.Halving
