import ElasticNet.Optimizer

namespace ElasticNet

structure ConvergenceTest (α : Type) where
  optimizer : Optimizer α
  tolerance : α
  warmupTolerance : α

namespace ConvergenceTest

variable {α : Type} [Scalar α]

def create (optimizer? : Option (Optimizer α)) (tolerance warmupTolerance : α) :
    Except Error (ConvergenceTest α) :=
  match optimizer? with
  | none => .error .testWithoutOptimizer
  | some optimizer =>
    if 0 ≤ tolerance ∧ 0 ≤ warmupTolerance then .ok ⟨optimizer, tolerance, warmupTolerance⟩
    else .error .negativeTolerance

def distance (test : ConvergenceTest α) (previous? current? : Option (Slots α)) :
    Except Error α :=
  match previous?, current? with
  | some previous, some current => test.optimizer.distance previous current
  | _, _ => .error .testWithoutStates

/-- The tolerance at a position of a path: that of the target at the last position. -/
def toleranceAt (test : ConvergenceTest α) (position length : Nat) : α :=
  if position < length then test.warmupTolerance else test.tolerance

def isWithin (distance tolerance : α) : Bool :=
  distance < tolerance

def isConverged (test : ConvergenceTest α) (previous? current? : Option (Slots α))
    (position length : Nat) : Except Error Bool :=
  (test.distance previous? current?).map fun distance =>
    isWithin distance (test.toleranceAt position length)

end ConvergenceTest

end ElasticNet
