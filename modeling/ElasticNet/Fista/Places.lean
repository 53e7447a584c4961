import ElasticNet.Family
import ElasticNet.Fista.State
import ElasticNet.Optimizer
import ElasticNet.Optimizer.Slot
import ElasticNet.Vector

namespace ElasticNet.Fista

open Editing

namespace Place

-- Places are words and wrap around: states of nearly 2^32 features have fields that share slots.
def strength : Nat := 1
def mixing : Nat := 2
def totalRows : Nat := 3
def intercept : Nat := 4
def momentumIntercept : Nat := 5
def coefficients : Nat := 6

variable (dimension : UInt32)

def momentum : Nat := (6 + dimension).toNat
def inertia : Nat := (6 + 2 * dimension).toNat
def rows : Nat := (7 + 2 * dimension).toNat
def gradient : Nat := (8 + 2 * dimension).toNat
def maxStepSize : Nat := (8 + 3 * dimension).toNat
def eta : Nat := (9 + 3 * dimension).toNat
def candidateValue : Nat := (10 + 3 * dimension).toNat
def momentumValue : Nat := (11 + 3 * dimension).toNat
def stepSize : Nat := (12 + 3 * dimension).toNat
def candidate : Nat := (13 + 3 * dimension).toNat
def candidateIntercept : Nat := (13 + 4 * dimension).toNat
def interceptGradient : Nat := (14 + 4 * dimension).toNat
def trial : Nat := (15 + 4 * dimension).toNat
def logLikelihood : Nat := (16 + 4 * dimension).toNat
def status : Nat := (17 + 4 * dimension).toNat

def all : List Nat :=
  [0, strength, mixing, totalRows, intercept, momentumIntercept, coefficients, momentum dimension,
    inertia dimension, rows dimension, gradient dimension, maxStepSize dimension, eta dimension,
    candidateValue dimension, momentumValue dimension, stepSize dimension, candidate dimension,
    candidateIntercept dimension, interceptGradient dimension, trial dimension,
    logLikelihood dimension, status dimension]

def size : Nat := (18 + 4 * dimension).toNat

def fit : Bool := (all dimension).all (· < size dimension)

end Place

variable {α : Type} [Scalar α]

def initialByPlace (context : StepContext α) : Except Error (Slots α) :=
  let dimension := UInt32.ofNat context.dimension
  if Place.fit dimension then
    Command.apply (do
      writeSlot 0 (context.dimension : α)
      writeSlot Place.mixing context.mixing
      writeSlot Place.totalRows (context.totalRows : α)
      writeSlot (Place.inertia dimension) 1
      writeSlot (Place.trial dimension) 0
      writeSlot (Place.maxStepSize dimension) context.maxStepSize
      writeSlot (Place.eta dimension) context.eta
      writeSlot Place.strength context.strength
      writeSlot (Place.stepSize dimension) context.maxStepSize
      writeSlot (Place.status dimension) Status.inProcess.slot)
      (Vector.zeros (Place.size dimension))
  else .error .indexOutOfBounds

def locate : Editing α UInt32 := do
  Command.lift (Slots.locate Place.all (← get))

def trialsByPlace (dimension : UInt32) : Editing α UInt32 := do
  return Scalar.toUInt32 (← readSlot (Place.trial dimension))

def startPass (dimension : UInt32) (context : StepContext α) : Editing α Unit := do
  if (← readSlot Place.strength) != context.strength then throw .indexOutOfBounds
  if (← trialsByPlace dimension) = 0 then throw .indexOutOfBounds
  writeSlot (Place.candidateValue dimension) 0
  if (← trialsByPlace dimension) = 1 then writeSlot (Place.momentumValue dimension) 0
  writeSlot (Place.rows dimension) 0
  writeSlot (Place.status dimension) Status.inProcess.slot

def beginByPlace (previous : Slots α) (context : StepContext α) : Except Error (Slots α) := do
  let dimension ← Slots.locate Place.all previous
  if Place.fit dimension then
    Command.apply (startPass dimension context) (previous.take (Place.size dimension))
  else throw .indexOutOfBounds

def predictorByPlace (intercept coefficients : Nat) (features : List α) : Editing α α := do
  let start ← readSlot intercept
  return start + Vector.sparseDot (← readBlock coefficients features.length) features

def transitionByPlace (family : Family) (features : List α) (response : α) :
    Editing α Unit := do
  let dimension ← locate
  let label := family.label response
  let momentumPredictor :=
    predictorByPlace Place.momentumIntercept (Place.momentum dimension) features
  if (← trialsByPlace dimension) = 0 then
    if features.length < dimension.toNat then throw .indexOutOfBounds
    let slope := family.derivative (← momentumPredictor) label
    addToBlock (Place.gradient dimension) ((features.take dimension.toNat).map (· * slope))
    addToSlot (Place.interceptGradient dimension) slope
  else
    let candidatePredictor ←
      predictorByPlace (Place.candidateIntercept dimension) (Place.candidate dimension) features
    addToSlot (Place.candidateValue dimension) (family.loss candidatePredictor label)
    if (← trialsByPlace dimension) = 1 then
      addToSlot (Place.momentumValue dimension) (family.loss (← momentumPredictor) label)
  addToSlot (Place.rows dimension) 1

def seenRows (slots : Slots α) : Except Error UInt64 := do
  let dimension ← Slots.locate Place.all slots
  return Scalar.toUInt64 (← Slots.read slots (Place.rows dimension))

/-- Adds the sums of another state, both having seen rows. As many numbers of the other state are
    taken as the gradient has. -/
def combineByPlace (other : Slots α) : Editing α Unit := do
  let dimension ← locate
  let otherDimension ← Command.lift (Slots.locate Place.all other)
  let otherNumber (place : UInt32 → Nat) : Editing α α :=
    Command.lift (Slots.read other (place otherDimension))
  if (← trialsByPlace dimension) = 0 then
    let gradient ← Command.lift
      (Slots.readBlock other (Place.gradient otherDimension) dimension.toNat)
    addToBlock (Place.gradient dimension) gradient
    addToSlot (Place.interceptGradient dimension) (← otherNumber Place.interceptGradient)
  else
    addToSlot (Place.candidateValue dimension) (← otherNumber Place.candidateValue)
    if (← trialsByPlace dimension) = 1 then
      addToSlot (Place.momentumValue dimension) (← otherNumber Place.momentumValue)
  let rows := Scalar.toUInt64 (← otherNumber Place.rows)
  addToSlot (Place.rows dimension) (Scalar.ofCount rows)

def mergeByPlace (other : Slots α) : Editing α Unit := fun slots =>
  match seenRows slots, seenRows other with
  | .ok before, .ok rows =>
    if rows = 0 then .ok () slots
    else if before = 0 then Editing.overwrite other slots
    else combineByPlace other slots
  | .error error, _ => .error error slots
  | _, .error error => .error error slots

def finalizeByPlace : Editing α Unit := do
  let dimension ← locate
  let rows ← readSlot (Place.rows dimension)
  if Scalar.toUInt64 rows = 0 then writeSlot (Place.status dimension) Status.empty.slot
  else throw .indexOutOfBounds

end ElasticNet.Fista
