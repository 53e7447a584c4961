import ElasticNet.Error

namespace ElasticNet

inductive Failure where
  | targetNotReached
  | diverged (strength : String) (iteration : Nat)
  | nothingToFit
deriving DecidableEq

namespace Failure

def toError : Failure → Error
  | targetNotReached => .targetNotReached
  | diverged strength iteration => .diverged strength iteration
  | nothingToFit => .nothingToFit

def message (failure : Failure) : String :=
  failure.toError.message

end Failure

inductive Phase where
  | start
  | atPosition (position updates : Nat)
  | done (position : Nat) (converged : Bool)
  | failed (failure : Failure) (position : Nat)
deriving DecidableEq

namespace Phase

def position : Phase → Nat
  | start => 0
  | atPosition position _ => position
  | done position _ => position
  | failed _ position => position

def isDone : Phase → Bool
  | done _ _ => true
  | _ => false

def isFailed : Phase → Bool
  | failed _ _ => true
  | _ => false

def isTerminal (phase : Phase) : Bool :=
  phase.isDone || phase.isFailed

def text : Phase → String
  | start => "START"
  | atPosition position updates =>
    "AT_PATH_POS(" ++ toString position ++ ", " ++ toString updates ++ ")"
  | done position converged =>
    "DONE(" ++ toString position ++ ", " ++ (if converged then "converged" else "not converged")
      ++ ")"
  | failed failure position => "FAILED(" ++ toString position ++ ": " ++ failure.message ++ ")"

end Phase

end ElasticNet
