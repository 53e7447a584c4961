import ElasticNet.Error
import ElasticNet.Scalar

namespace ElasticNet

structure Row (α : Type) where
  features : List α
  response : α
  group : String

structure Partition (α : Type) where
  dimension : Nat
  rows : List (Row α)
  sized : ∀ row ∈ rows, row.features.length = dimension

structure Source (α : Type) where
  dimension : Nat
  partitions : List (Partition α)
  uniform : ∀ part ∈ partitions, part.dimension = dimension

variable {α : Type}

/-- A row with a missing value is kept in its partition, but takes no part in any fit. -/
def Row.isComplete [Scalar α] (row : Row α) : Bool :=
  Scalar.allFinite row.features && Scalar.isFinite row.response

namespace Partition

def empty (dimension : Nat) : Partition α where
  dimension := dimension
  rows := []
  sized := by simp

def append (part : Partition α) (row : Row α) : Except Error (Partition α) :=
  if h : row.features.length = part.dimension then
    .ok { part with
      rows := part.rows ++ [row]
      sized := by
        intro other member
        rcases List.mem_append.mp member with member | member
        · exact part.sized other member
        · rw [List.mem_singleton.mp member]; exact h }
  else .error (.rowSize row.features.length part.dimension)

def ofRows (dimension : Nat) (rows : List (Row α)) : Except Error (Partition α) :=
  if h : ∀ row ∈ rows, row.features.length = dimension then .ok ⟨dimension, rows, h⟩
  else
    match rows.find? fun row => row.features.length ≠ dimension with
    | some row => .error (.rowSize row.features.length dimension)
    | none => .error (.rowSize dimension dimension)

def row (part : Partition α) (index : Nat) : Except Error (Row α) :=
  match part.rows[index]? with
  | some row => .ok row
  | none => .error .rowOutOfBounds

variable [Scalar α]

def complete (part : Partition α) : List (Row α) :=
  part.rows.filter Row.isComplete

end Partition

namespace Source

def empty (dimension : Nat) : Source α where
  dimension := dimension
  partitions := []
  uniform := by simp

def add (source : Source α) (part : Partition α) : Except Error (Source α) :=
  if h : part.dimension = source.dimension then
    .ok { source with
      partitions := source.partitions ++ [part]
      uniform := by
        intro other member
        rcases List.mem_append.mp member with member | member
        · exact source.uniform other member
        · rw [List.mem_singleton.mp member]; exact h }
  else .error (.partitionSize part.dimension source.dimension)

def partition (source : Source α) (index : Nat) : Except Error (Partition α) :=
  match source.partitions[index]? with
  | some part => .ok part
  | none => .error .partitionOutOfBounds

def rows (source : Source α) : List (Row α) :=
  source.partitions.flatMap Partition.rows

def rowCount (source : Source α) : Nat :=
  source.rows.length

variable [Scalar α]

def incompleteCount (source : Source α) : Nat :=
  (source.rows.filter fun row => !row.isComplete).length

end Source

end ElasticNet
