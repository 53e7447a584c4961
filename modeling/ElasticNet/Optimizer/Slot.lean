import ElasticNet.Optimizer.Layout
import ElasticNet.Scalar

namespace ElasticNet

namespace Slots

variable {α : Type}

def read (slots : Slots α) (place : Nat) : Except Error α :=
  match slots[place]? with
  | some number => .ok number
  | none => .error .indexOutOfBounds

def readBlock (slots : Slots α) (place count : Nat) : Except Error (List α) :=
  if place + count ≤ slots.length then .ok ((slots.drop place).take count)
  else .error .indexOutOfBounds

/-- The dimension of a state, which its first slot keeps, if the fields of a state of that dimension
    all begin inside its slots. -/
def locate [Scalar α] (places : UInt32 → List Nat) (slots : Slots α) : Except Error UInt32 := do
  let dimension := Scalar.toUInt32 (← read slots 0)
  if (places dimension).all (· < slots.length) then return dimension
  else throw .indexOutOfBounds

end Slots

namespace Editing

variable {α : Type}

def readSlot (place : Nat) : Editing α α := fun slots =>
  match slots[place]? with
  | some number => .ok number slots
  | none => .error .indexOutOfBounds slots

def readBlock (place count : Nat) : Editing α (List α) := do
  Command.lift (Slots.readBlock (← get) place count)

def writeSlot (place : Nat) (number : α) : Editing α Unit := fun slots =>
  if place < slots.length then .ok () (slots.set place number)
  else .error .indexOutOfBounds slots

def writeBlock (place : Nat) : List α → Editing α Unit
  | [] => pure ()
  | number :: rest => do
    writeSlot place number
    writeBlock (place + 1) rest

variable [Add α]

def addToSlot (place : Nat) (number : α) : Editing α Unit := do
  writeSlot place ((← readSlot place) + number)

def addToBlock (place : Nat) : List α → Editing α Unit
  | [] => pure ()
  | number :: rest => do
    addToSlot place number
    addToBlock (place + 1) rest

end Editing

end ElasticNet
