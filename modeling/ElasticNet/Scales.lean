import ElasticNet.Data
import ElasticNet.Vector

namespace ElasticNet

structure RowSums (α : Type) where
  complete : Nat
  incomplete : Nat
  features : List α
  squares : List α
  response : α
  responseSquares : α

structure Scales (α : Type) where
  complete : Nat
  incomplete : Nat
  means : List α
  spreads : List α
  meanSquares : List α
  responseMean : α
  responseSpread : α

variable {α : Type} [Scalar α]

namespace RowSums

def zero (dimension : Nat) : RowSums α where
  complete := 0
  incomplete := 0
  features := Vector.zeros dimension
  squares := Vector.zeros dimension
  response := 0
  responseSquares := 0

/-- Takes in one row; of a row with a missing value only the count. -/
def addRow (sums : RowSums α) (row : Row α) : RowSums α :=
  if row.isComplete then
    { sums with
      complete := sums.complete + 1
      features := Vector.add sums.features row.features
      squares := Vector.add sums.squares (row.features.map fun x => x * x)
      response := sums.response + row.response
      responseSquares := sums.responseSquares + row.response * row.response }
  else { sums with incomplete := sums.incomplete + 1 }

def merge (left right : RowSums α) : RowSums α :=
  let counted := { left with incomplete := left.incomplete + right.incomplete }
  if right.complete = 0 then counted
  else
    { counted with
      complete := left.complete + right.complete
      features := Vector.add left.features right.features
      squares := Vector.add left.squares right.squares
      response := left.response + right.response
      responseSquares := left.responseSquares + right.responseSquares }

def ofPartition (dimension : Nat) (part : Partition α) : RowSums α :=
  part.rows.foldl addRow (zero dimension)

def ofSource (source : Source α) : RowSums α :=
  (source.partitions.map (ofPartition source.dimension)).foldl merge (zero source.dimension)

end RowSums

/-- The spread of values with a mean and a mean square. Rounding can bring the difference below
    zero, where the spread is zero. -/
def spread (mean meanSquare : α) : α :=
  Scalar.sqrt (Scalar.max 0 (meanSquare - mean * mean))

namespace Scales

def ofSums (sums : RowSums α) : Scales α :=
  let count : α := (sums.complete : α)
  let mean (total : α) : α := if sums.complete = 0 then total else total / count
  let means := sums.features.map mean
  let spreads :=
    if sums.complete = 0 then sums.squares
    else List.zipWith spread means (sums.squares.map mean)
  let responseMean := mean sums.response
  { complete := sums.complete
    incomplete := sums.incomplete
    means := means
    spreads := spreads
    meanSquares := List.zipWith (fun s m => s * s + m * m) spreads means
    responseMean := responseMean
    responseSpread :=
      if sums.complete = 0 then sums.responseSquares
      else spread responseMean (mean sums.responseSquares) }

def measure (source : Source α) : Scales α :=
  ofSums (RowSums.ofSource source)

def sumCount (dimension : Nat) : Nat :=
  5 + 2 * dimension

/-- The scales of a source whose rows have features, fewer than a word can count the sums of. Others
    have no place to put them. -/
def ofSource (source : Source α) : Except Error (Scales α) :=
  if source.dimension = 0 ∨ UInt32.size ≤ sumCount source.dimension then .error .indexOutOfBounds
  else .ok (measure source)

end Scales

end ElasticNet
