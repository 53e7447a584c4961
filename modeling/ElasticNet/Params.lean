import ElasticNet.Method
import ElasticNet.Path

namespace ElasticNet

structure Params (α : Type) where
  stepSize : α
  stepDecay : α
  threshold : α
  parallel : Bool
  maxStepSize : α
  eta : α
  warmup : Bool
  warmupPath : Option (Path α)
  warmupCount : Nat
  warmupTolerance : Option α

namespace Params

variable {α : Type} [Scalar α]

def default : Params α where
  stepSize := 0.01
  stepDecay := 0
  threshold := 1e-10
  parallel := true
  maxStepSize := 4.0
  eta := 2.0
  warmup := false
  warmupPath := none
  warmupCount := 15
  warmupTolerance := none

def isOpening (c : Char) : Bool :=
  c = '[' || c = '(' || c = '{'

def isClosing (c : Char) : Bool :=
  c = ']' || c = ')' || c = '}'

def consFirst (c : Char) : List (List Char) → List (List Char)
  | [] => [[c]]
  | segment :: more => (c :: segment) :: more

/-- The segments between the commas that stand outside all brackets, for a text that starts inside
    a number of open brackets. There are none if a bracket closes nothing or is never closed; the
    kinds of brackets are not told apart. -/
def segments? (depth : Nat) : List Char → Option (List (List Char))
  | [] => if depth = 0 then some [[]] else none
  | c :: rest =>
    if isOpening c then (segments? (depth + 1) rest).map (consFirst c)
    else if isClosing c then
      if depth = 0 then none else (segments? (depth - 1) rest).map (consFirst c)
    else if c = ',' ∧ depth = 0 then (segments? 0 rest).map ([] :: ·)
    else (segments? depth rest).map (consFirst c)

def split (text : String) : Except Error (List String) :=
  match segments? 0 text.toList with
  | none => .error (.unbalancedParameters text)
  | some segments =>
    let trimmed := segments.map Text.trim
    .ok (if trimmed = [[]] then [] else trimmed.map String.ofList)

def readBool (key value : String) : Except Error Bool :=
  let word := Text.lowered value
  if word ∈ ["t", "true", "1", "yes", "y", "on"] then .ok true
  else if word ∈ ["f", "false", "0", "no", "n", "off"] then .ok false
  else .error (.notABoolean key value)

def readNumber (key value : String) : Except Error α :=
  match Scalar.read? value.toList with
  | none => .error (.notANumber key value)
  | some number =>
    if Scalar.isFinite number then .ok number else .error (.notFinite key value)

def readBounded (key value : String) (bounds : String) (meets : α → Bool) : Except Error α := do
  let number ← readNumber key value
  if meets number then return number
  else throw (.outsideBounds key bounds (Scalar.text number))

/-- A positive integer of 32 bits, written as an integer of 64. -/
def readCount (key value : String) : Except Error Nat :=
  match Decimal.readInteger? value.toList with
  | none => .error (.notAnInteger key value)
  | some n =>
    if n < -Nat.pow 2 63 ∨ Nat.pow 2 63 ≤ n then .error (.notAnInteger key value)
    else if n ≤ 0 ∨ Nat.pow 2 32 ≤ n then .error (.notPositiveInteger key value)
    else .ok n.toNat

/-- An entry cut at its first equals sign: the key in small letters, and the value. Neither is
    empty. -/
def readEntry (entry : String) : Except Error (String × String) :=
  let chars := entry.toList
  let key := Text.lower (Text.trim (chars.takeWhile (· ≠ '=')))
  let value := Text.trim ((chars.dropWhile (· ≠ '=')).drop 1)
  if '=' ∉ chars ∨ key = [] ∨ value = [] then .error (.malformedParameter entry)
  else .ok (String.ofList key, String.ofList value)

/-- One parameter set to a written value. The step parameters belong to one method each. -/
def set (method : Method) (params : Params α) (key value : String) : Except Error (Params α) := do
  let positive : α → Bool := fun x => 0 < x
  let notNegative : α → Bool := fun x => 0 ≤ x
  if method = .igd ∧ key = "stepsize" then
    return { params with stepSize := (← readBounded key value "positive" positive) }
  else if method = .igd ∧ key = "step_decay" then
    return { params with stepDecay := (← readBounded key value "non-negative" notNegative) }
  else if method = .igd ∧ key = "threshold" then
    return { params with threshold := (← readBounded key value "non-negative" notNegative) }
  else if method = .fista ∧ key = "max_stepsize" then
    return { params with maxStepSize := (← readBounded key value "positive" positive) }
  else if method = .fista ∧ key = "eta" then
    return { params with eta := (← readBounded key value "greater than 1" fun x => 1 < x) }
  else if key = "parallel" then
    return { params with parallel := (← readBool key value) }
  else if key = "warmup" then
    return { params with warmup := (← readBool key value) }
  else if key = "warmup_lambdas" then
    return { params with warmupPath := some (← Path.parse value) }
  else if key = "warmup_lambda_no" then
    return { params with warmupCount := (← readCount key value) }
  else if key = "warmup_tolerance" then
    return { params with
      warmupTolerance := some (← readBounded key value "non-negative" notNegative) }
  else throw (.unknownParameter key method.name)

def setAll (method : Method) (seen : List String) (params : Params α) :
    List String → Except Error (Params α)
  | [] => .ok params
  | entry :: more => do
    let (key, value) ← readEntry entry
    if key ∈ seen then throw (.repeatedParameter key)
    setAll method (key :: seen) (← set method params key value) more

def parse (text method : String) : Except Error (Params α) := do
  match Method.ofName? method with
  | none => throw (.unknownOptimizer method)
  | some method => setAll method [] default (← split text)

end Params

end ElasticNet
