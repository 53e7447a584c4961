import ElasticNet.Error
import ElasticNet.Family
import ElasticNet.Vector

namespace ElasticNet.Predict

variable {α : Type} [Scalar α]

def linear (coefficients : List α) (intercept : α) (features : List α) :
    Except Error (Option α) :=
  if !Scalar.allFinite coefficients || !Scalar.isFinite intercept then .error .nonFiniteModel
  else if coefficients.length ≠ features.length then
    .error (.featureCount coefficients.length features.length)
  else if features.any Scalar.isNaN then .ok none
  else .ok (some (intercept + Vector.sparseDot coefficients features))

def gaussian (coefficients : List α) (intercept : α) (features : List α) :
    Except Error (Option α) :=
  linear coefficients intercept features

def binomial (coefficients : List α) (intercept : α) (features : List α) :
    Except Error (Option Bool) :=
  (linear coefficients intercept features).map fun r? => r?.map fun r => decide (0 < r)

def probability (coefficients : List α) (intercept : α) (features : List α) :
    Except Error (Option α) :=
  (linear coefficients intercept features).map fun r? =>
    r?.map fun r => 1 / (1 + Scalar.exp (-r))

def classLoss (coefficients : List α) (intercept : α) (observed : Bool) (features : List α) :
    Except Error (Option α) :=
  (linear coefficients intercept features).map fun r? =>
    r?.map fun r => logisticLoss r (if observed then 1 else -1)

end ElasticNet.Predict
