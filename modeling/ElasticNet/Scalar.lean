import ElasticNet.Decimal.Binary64

namespace ElasticNet

/-- The arithmetic that models are fitted in. Double precision and exact arithmetic are two
    instances. Comparisons are those of the arithmetic: in double precision a number that is no
    number compares with nothing, not even with itself. -/
class Scalar (α : Type) extends Zero α, One α, Add α, Sub α, Mul α, Div α, Neg α, NatCast α,
    OfScientific α, LT α, LE α, BEq α where
  decidableLT : DecidableLT α
  decidableLE : DecidableLE α
  exp : α → α
  log : α → α
  sqrt : α → α
  abs : α → α
  pow : α → α → α
  isFinite : α → Bool
  isNaN : α → Bool
  /-- The least size that is not taken for zero by the mirror link. -/
  tiny : α
  toUInt32 : α → UInt32
  toUInt64 : α → UInt64
  toCode : α → Int
  ofLiteral? : Decimal.Literal → Option α
  text : α → String

namespace Scalar

variable {α : Type} [Scalar α]

instance : DecidableLT α := Scalar.decidableLT

instance : DecidableLE α := Scalar.decidableLE

/-- The larger of two numbers; the first of two that do not compare. -/
def max (a b : α) : α :=
  if a < b then b else a

def sign (x : α) : α :=
  if 0 < x then 1 else if x < 0 then -1 else 0

def ofCount (n : UInt64) : α :=
  (n.toNat : α)

def allFinite (xs : List α) : Bool :=
  xs.all isFinite

def listText (xs : List α) : String :=
  "[" ++ String.intercalate ", " (xs.map text) ++ "]"

def read? (text : List Char) : Option α :=
  (Decimal.Literal.read? text).bind ofLiteral?

/-- A result of arithmetic as messages show it: an undefined one has a minus sign. -/
def resultText (x : α) : String :=
  if isNaN x then "-" ++ text x else text x

/-- A written number as messages show it: one that is no number keeps its sign. -/
def writtenText (literal : Decimal.Literal) (x : α) : String :=
  match literal with
  | .notANumber true => "-" ++ text x
  | _ => text x

end Scalar

instance : Scalar Float where
  decidableLT := inferInstance
  decidableLE := inferInstance
  natCast := Float.ofNat
  exp := Float.exp
  log := Float.log
  sqrt := Float.sqrt
  abs := Float.abs
  pow := Float.pow
  isFinite := Float.isFinite
  isNaN := Float.isNaN
  tiny := Float.ofBits 1
  toUInt32 x := (Decimal.Binary64.ofFloat x).toUInt32
  toUInt64 x := (Decimal.Binary64.ofFloat x).toUInt64
  toCode x := (Decimal.Binary64.ofFloat x).toSigned 32
  ofLiteral? := Decimal.Literal.toFloat?
  text x := (Decimal.Binary64.ofFloat x).general 6

end ElasticNet
