import ElasticNet.Family
import ElasticNet.Igd.State
import ElasticNet.Optimizer
import ElasticNet.Optimizer.Slot
import ElasticNet.Vector

namespace ElasticNet.Igd

open Editing

namespace Place

def stepDecay : Nat := 3

variable (dimension : UInt32)

-- Places are words and wrap around: states of nearly 2^32 features have fields that share slots.
def strength : Nat := (8 + dimension).toNat
def stepSize : Nat := (9 + dimension).toNat
def coefficients : Nat := (10 + dimension).toNat
def intercept : Nat := (10 + 3 * dimension).toNat
def rows : Nat := (11 + 3 * dimension).toNat
def logLikelihood : Nat := (12 + 3 * dimension).toNat
def status : Nat := (13 + 3 * dimension).toNat

def all : List Nat :=
  [0, 1, 2, stepDecay, 4, 5, 6, 7, (7 + dimension).toNat, strength dimension, stepSize dimension,
    coefficients dimension, (10 + 2 * dimension).toNat, intercept dimension, rows dimension,
    logLikelihood dimension, status dimension]

def size : Nat := (14 + 3 * dimension).toNat

def fit : Bool := (all dimension).all (· < size dimension)

end Place

variable {α : Type} [Scalar α]

def startPass (dimension : UInt32) (context : StepContext α) : Editing α Unit := do
  if (← readSlot (Place.strength dimension)) != context.strength then
    writeSlot (Place.strength dimension) context.strength
    let stepDecay ← readSlot Place.stepDecay
    writeSlot (Place.stepSize dimension) (storedStepSize context.stepSize stepDecay)
  writeSlot (Place.rows dimension) 0
  writeSlot (Place.logLikelihood dimension) 0
  writeSlot (Place.status dimension) Status.inProcess.slot

def beginByPlace (previous : Slots α) (context : StepContext α) : Except Error (Slots α) := do
  let dimension ← Slots.locate Place.all previous
  if !Place.fit dimension then throw .indexOutOfBounds
  if previous.length ≠ Place.size dimension then throw .igdSizes
  Command.apply (startPass dimension context) previous

def locate : Editing α UInt32 := do
  Command.lift (Slots.locate Place.all (← get))

def predictorByPlace (features : List α) : Editing α α := do
  let dimension ← locate
  let coefficients ← readBlock (Place.coefficients dimension) features.length
  return Vector.sparseDot coefficients features + (← readSlot (Place.intercept dimension))

def seenRows (slots : Slots α) : Except Error UInt64 := do
  let dimension ← Slots.locate Place.all slots
  return Scalar.toUInt64 (← Slots.read slots (Place.rows dimension))

/-- Averages the model with that of another state, both having seen rows. As many numbers of the
    other state are taken as the model has coefficients. -/
def averageByPlace (family : Family) (other : Slots α) : Editing α Unit := do
  let dimension ← locate
  let otherDimension ← Command.lift (Slots.locate Place.all other)
  let otherNumber (place : UInt32 → Nat) : Editing α α :=
    Command.lift (Slots.read other (place otherDimension))
  let leftRows := Scalar.toUInt64 (← readSlot (Place.rows dimension))
  let rightRows := Scalar.toUInt64 (← otherNumber Place.rows)
  let leftCount : α := Scalar.ofCount leftRows
  let rightCount : α := Scalar.ofCount rightRows
  let total : α := Scalar.ofCount (leftRows + rightRows)
  let left ← readBlock (Place.coefficients dimension) dimension.toNat
  let right ← Command.lift
    (Slots.readBlock other (Place.coefficients otherDimension) dimension.toNat)
  let summed := Vector.add (Vector.scale (leftCount / rightCount) left) right
  writeBlock (Place.coefficients dimension) (Vector.scale (rightCount / total) summed)
  if !family.centered then
    let intercept ← readSlot (Place.intercept dimension)
    let otherIntercept ← otherNumber Place.intercept
    writeSlot (Place.intercept dimension)
      ((intercept * leftCount + otherIntercept * rightCount) / total)
  addToSlot (Place.logLikelihood dimension) (← otherNumber Place.logLikelihood)
  addToSlot (Place.rows dimension) rightCount
  let otherStepSize ← otherNumber Place.stepSize
  if otherStepSize < (← readSlot (Place.stepSize dimension)) then
    writeSlot (Place.stepSize dimension) otherStepSize

def mergeByPlace (family : Family) (other : Slots α) : Editing α Unit := fun slots =>
  match seenRows slots, seenRows other with
  | .ok before, .ok rows =>
    if rows = 0 then .ok () slots
    else if before = 0 then
      if slots.length = other.length then .ok () other else .error .igdSizes slots
    else averageByPlace family other slots
  | .error error, _ => .error error slots
  | _, .error error => .error error slots

def finalizeByPlace : Editing α Unit := do
  let dimension ← locate
  let rows ← readSlot (Place.rows dimension)
  if Scalar.toUInt64 rows = 0 then writeSlot (Place.status dimension) Status.empty.slot
  else throw .indexOutOfBounds

def keptLogLikelihood (slots : Slots α) : Except Error α := do
  let dimension ← Slots.locate Place.all slots
  Slots.read slots (Place.logLikelihood dimension)

def distanceByPlace (previous current : Slots α) : Except Error α := do
  let before ← keptLogLikelihood previous
  let after ← keptLogLikelihood current
  return Scalar.abs (Scalar.abs before - Scalar.abs after)

end ElasticNet.Igd
