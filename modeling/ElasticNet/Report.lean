import ElasticNet.Error
import ElasticNet.Model

namespace ElasticNet

/-- The outcome of one run. A null row has no model, and says why. -/
structure Report (α : Type) where
  group : Option String
  isNull : Bool
  converged : Bool
  model : Model α
  processed : Nat
  skipped : Nat
  iterations : Nat
  position : Nat
  message : String

namespace Report

variable {α : Type} [Scalar α]

def empty : Report α where
  group := none
  isNull := true
  converged := false
  model := .empty
  processed := 0
  skipped := 0
  iterations := 0
  position := 0
  message := ""

def rightAligned (width : Nat) (text : String) : String :=
  String.ofList (List.replicate (width - text.length) ' ') ++ text

def alignedText (xs : List α) : String :=
  let texts := xs.map Scalar.text
  let width := (texts.map String.length).foldl Nat.max 0
  String.intercalate " " (texts.map (rightAligned width))

def text (report : Report α) : String :=
  let key := match report.group with
    | some key => key ++ ": "
    | none => ""
  if report.isNull then key ++ "NULL (" ++ report.message ++ ")"
  else
    key ++ "intercept " ++ Scalar.text report.model.intercept
      ++ ", coef [" ++ alignedText report.model.coefficients
      ++ "], lambda " ++ Scalar.text report.model.strength
      ++ ", log-likelihood " ++ Scalar.text report.model.logLikelihood
      ++ ", " ++ toString report.iterations ++ " iterations"
      ++ (if report.converged then "" else " (not converged)")

def find (reports : List (Report α)) (group : Option String) : Except Error (Report α) :=
  match reports.find? fun report => report.group = group with
  | some report => .ok report
  | none => .error (.noResult (group.getD ""))

end Report

end ElasticNet
