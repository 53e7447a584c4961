import ElasticNet.Error
import ElasticNet.Scalar

namespace ElasticNet

structure Arrays (α : Type) where
  memory : List (List α)
  places : List (String × Nat)

inductive Operand (α : Type) where
  | number (value : α)
  | word32 (value : UInt32)
  | word64 (value : UInt64)

inductive EntryOp where
  | assign
  | add
  | subtract
  | multiply
  | divide
  | increment
  | read
deriving DecidableEq

variable {α : Type} [Scalar α]

def Operand.value : Operand α → α
  | number value => value
  | word32 value => (value.toNat : α)
  | word64 value => Scalar.ofCount value

/-- A number as the type of the operand shows it: a word shows its integer part. -/
def Operand.see (operand : Operand α) (x : α) : α :=
  match operand with
  | number _ => x
  | word32 _ => ((Scalar.toUInt32 x).toNat : α)
  | word64 _ => Scalar.ofCount (Scalar.toUInt64 x)

def EntryOp.apply (op : EntryOp) (entry operand : α) : α :=
  match op with
  | assign => operand
  | add => entry + operand
  | subtract => entry - operand
  | multiply => entry * operand
  | divide => entry / operand
  | increment => entry + 1
  | read => entry

namespace Arrays

def empty : Arrays α := ⟨[], []⟩

def place? (arrays : Arrays α) (name : String) : Option Nat :=
  (arrays.places.find? fun entry => entry.1 = name).map Prod.snd

def get? (arrays : Arrays α) (name : String) : Option (List α) :=
  (arrays.place? name).bind fun place => arrays.memory[place]?

def setPlace (arrays : Arrays α) (name : String) (place : Nat) : Arrays α :=
  { arrays with
    places := (name, place) :: arrays.places.filter fun entry => entry.1 ≠ name }

def assign (arrays : Arrays α) (name : String) (entries : List α) : Arrays α :=
  { arrays with memory := arrays.memory ++ [entries] }.setPlace name arrays.memory.length

def allocate (arrays : Arrays α) (name : String) (size : Nat) : Arrays α :=
  arrays.assign name (List.replicate size 0)

def clone (arrays : Arrays α) (name source : String) : Except Error (Arrays α) :=
  match arrays.get? source with
  | some entries => .ok (arrays.assign name entries)
  | none => .error .nullArray

def share (arrays : Arrays α) (name source : String) : Arrays α :=
  match arrays.place? source with
  | some place => arrays.setPlace name place
  | none => { arrays with places := arrays.places.filter fun entry => entry.1 ≠ name }

def entry (arrays : Arrays α) (name : String) (index : Nat) : Except Error α :=
  match (arrays.get? name).bind fun entries => entries[index]? with
  | some entry => .ok entry
  | none => .error .indexOutOfBounds

def setEntry (arrays : Arrays α) (name : String) (index : Nat) (value : α) :
    Except Error (Arrays α) :=
  match arrays.place? name, arrays.get? name with
  | some place, some entries =>
    if index < entries.length then
      .ok { arrays with memory := arrays.memory.set place (entries.set index value) }
    else .error .indexOutOfBounds
  | _, _ => .error .indexOutOfBounds

/-- An entry changed by an operation with an operand. The arithmetic is that of numbers; the answer
    is what the type of the operand shows of the entry afterwards. -/
def updateEntry (arrays : Arrays α) (name : String) (index : Nat) (op : EntryOp)
    (operand : Operand α) : Except Error (α × Arrays α) := do
  let value := op.apply (← arrays.entry name index) operand.value
  return (operand.see value, ← arrays.setEntry name index value)

/-- Copies entries one after the other, each as it is by then. -/
def copyEntries (target : String) (targetIndex : Nat) (source : String) (sourceIndex : Nat) :
    Nat → Arrays α → Except Error (Arrays α)
  | 0, arrays => .ok arrays
  | count + 1, arrays => do
    let value ← arrays.entry source sourceIndex
    copyEntries target (targetIndex + 1) source (sourceIndex + 1) count
      (← arrays.setEntry target targetIndex value)

def assignSegment (arrays : Arrays α) (target : String) (targetIndex targetLength : Nat)
    (source : String) (sourceIndex sourceLength : Nat) : Except Error (Arrays α) := do
  let _ ← arrays.entry target targetIndex
  let _ ← arrays.entry source sourceIndex
  if targetLength ≠ sourceLength then throw .unmatchedLengths
  copyEntries target targetIndex source sourceIndex targetLength arrays

end Arrays

end ElasticNet
