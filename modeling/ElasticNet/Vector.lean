import ElasticNet.Scalar

namespace ElasticNet.Vector

variable {α : Type} [Scalar α]

def sum (xs : List α) : α :=
  xs.foldl (· + ·) 0

def add (xs ys : List α) : List α :=
  List.zipWith (· + ·) xs ys

def sub (xs ys : List α) : List α :=
  List.zipWith (· - ·) xs ys

def scale (factor : α) (xs : List α) : List α :=
  xs.map (factor * ·)

def divide (xs : List α) (divisor : α) : List α :=
  xs.map (· / divisor)

def zeros (dimension : Nat) : List α :=
  List.replicate dimension 0

def ones (dimension : Nat) : List α :=
  List.replicate dimension 1

def dot (xs ys : List α) : α :=
  sum (List.zipWith (· * ·) xs ys)

/-- The sum of the products of a coefficient and its feature; a coefficient of zero is skipped, so
    that its feature may be anything. -/
def sparseDot (coefficients features : List α) : α :=
  (coefficients.zip features).foldl (fun total (c, x) => if c != 0 then total + c * x else total) 0

end ElasticNet.Vector
