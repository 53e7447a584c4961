import ElasticNet.Scalar
import ElasticNet.Text

namespace ElasticNet

inductive Family where
  | gaussian
  | binomial
deriving DecidableEq

def logisticLoss {α : Type} [Scalar α] (predictor label : α) : α :=
  if 0 < label then Scalar.log (1 + Scalar.exp (-predictor))
  else Scalar.log (1 + Scalar.exp predictor)

def logisticSlope {α : Type} [Scalar α] (predictor label : α) : α :=
  if 0 < label then -1 / (1 + Scalar.exp predictor)
  else 1 / (1 + Scalar.exp (-predictor))

namespace Family

def ofName? (name : String) : Option Family :=
  let name := Text.normalized name
  if name = "gaussian" ∨ name = "linear" then some .gaussian
  else if name = "binomial" ∨ name = "logistic" then some .binomial
  else none

/-- Whether the intercept follows from the means instead of taking steps of its own. -/
def centered : Family → Bool
  | gaussian => true
  | binomial => false

variable {α : Type} [Scalar α]

/-- The label that the loss is written in: the response itself, or one and minus one for the two
    classes. -/
def label (family : Family) (response : α) : α :=
  match family with
  | gaussian => response
  | binomial => if 0.5 < response then 1 else -1

def loss (family : Family) (predictor label : α) : α :=
  match family with
  | gaussian => 0.5 * (label - predictor) * (label - predictor)
  | binomial => logisticLoss predictor label

def derivative (family : Family) (predictor label : α) : α :=
  match family with
  | gaussian => predictor - label
  | binomial => logisticSlope predictor label

end Family

end ElasticNet
