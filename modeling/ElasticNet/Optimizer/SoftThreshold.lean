import ElasticNet.Scalar

namespace ElasticNet

variable {α : Type} [Scalar α]

/-- A number moved toward zero by a threshold; zero between the thresholds of both signs. -/
def softThreshold (threshold x : α) : α :=
  if threshold < x then x - threshold
  else if x < -threshold then x + threshold
  else 0

/-- A number moved toward zero by a threshold, unless that takes it across zero: then it is zero. -/
def truncateAtZero (threshold x : α) : α :=
  let moved := x - threshold * Scalar.sign x
  if Scalar.sign x != Scalar.sign moved then 0 else moved

end ElasticNet
