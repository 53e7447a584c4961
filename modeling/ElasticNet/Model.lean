import ElasticNet.Scalar

namespace ElasticNet

/-- How a state or a model stands: still under way, finished, given up as not finite, or empty for
    want of rows. States can carry codes of their own. -/
inductive Status where
  | inProcess
  | completed
  | terminated
  | empty
  | other (code : Int)
deriving DecidableEq

namespace Status

def code : Status → Int
  | inProcess => 0
  | completed => 1
  | terminated => 2
  | empty => 3
  | other code => code

def ofCode (code : Int) : Status :=
  if code = 0 then inProcess
  else if code = 1 then completed
  else if code = 2 then terminated
  else if code = 3 then empty
  else other code

variable {α : Type} [Scalar α]

def slot (status : Status) : α :=
  (status.code.toNat : α)

def ofSlot (number : α) : Status :=
  ofCode (Scalar.toCode number)

end Status

structure Model (α : Type) where
  intercept : α
  coefficients : List α
  strength : α
  logLikelihood : α
  status : Status

def Model.empty {α : Type} [Scalar α] : Model α where
  intercept := 0
  coefficients := []
  strength := 0
  logLikelihood := 0
  status := .empty

end ElasticNet
