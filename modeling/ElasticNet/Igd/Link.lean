import ElasticNet.Scalar

namespace ElasticNet.Igd

variable {α : Type} [Scalar α]

def norm (exponent : α) (xs : List α) : α :=
  let total := xs.foldl (fun total x =>
    if x != 0 then total + Scalar.pow (Scalar.abs x) exponent else total) 0
  Scalar.pow total (1 / exponent)

/-- One entry of the image; entries too small to tell from zero go to zero. -/
def linkEntry (exponent denominator x : α) : α :=
  if Scalar.abs x ≤ Scalar.tiny then 0
  else Scalar.sign x * Scalar.pow (Scalar.abs x) (exponent - 1) / denominator

def link (exponent : α) (xs : List α) : List α :=
  let size := norm exponent xs
  if Scalar.abs size ≤ Scalar.tiny then xs.map fun _ => 0
  else xs.map (linkEntry exponent (Scalar.pow size (exponent - 2.0)))

end ElasticNet.Igd
