namespace ElasticNet.Decimal

/-- The meaning of a real literal, with its sign: a decimal fraction, an infinity, or no number. -/
inductive Literal where
  | decimal (negative : Bool) (digits : Nat) (exponent : Int)
  | infinity (negative : Bool)
  | notANumber (negative : Bool)
deriving DecidableEq

def readSign : List Char → Bool × List Char
  | '-' :: rest => (true, rest)
  | '+' :: rest => (false, rest)
  | text => (false, text)

def digitsValue (digits : List Char) : Nat :=
  digits.foldl (fun value c => 10 * value + (c.toNat - '0'.toNat)) 0

def readNatural? (text : List Char) : Option Nat :=
  if text ≠ [] ∧ text.all Char.isDigit then some (digitsValue text) else none

def readInteger? (text : List Char) : Option Int :=
  let (negative, rest) := readSign text
  (readNatural? rest).map fun n => if negative then -(n : Int) else n

def readExponent? : List Char → Option Int
  | [] => some 0
  | c :: rest => if c = 'e' ∨ c = 'E' then readInteger? rest else none

def readFraction? (text : List Char) : Option (Nat × Int) :=
  let whole := text.takeWhile Char.isDigit
  let afterWhole := text.dropWhile Char.isDigit
  let (part, rest) :=
    match afterWhole with
    | '.' :: more => (more.takeWhile Char.isDigit, more.dropWhile Char.isDigit)
    | _ => ([], afterWhole)
  if whole = [] ∧ part = [] then none
  else
    (readExponent? rest).map fun exponent =>
      (digitsValue (whole ++ part), exponent - part.length)

def isRemark (text : List Char) : Bool :=
  text = [] || (2 ≤ text.length && text.head? = some '(' && text.getLast? = some ')')

def Literal.read? (text : List Char) : Option Literal :=
  let (negative, rest) := readSign text
  let small := rest.map Char.toLower
  if small = "inf".toList ∨ small = "infinity".toList then some (.infinity negative)
  else if small.take 3 = "nan".toList ∧ isRemark (small.drop 3) then some (.notANumber negative)
  else
    (readFraction? rest).map fun (digits, exponent) => .decimal negative digits exponent

end ElasticNet.Decimal
