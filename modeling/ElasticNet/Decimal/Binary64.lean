import ElasticNet.Decimal.General
import ElasticNet.Decimal.Literal

namespace ElasticNet.Decimal

/-- What the bits of a double precision number say; a finite number is its digits times a power of
    two. -/
inductive Binary64 where
  | finite (negative : Bool) (digits : Nat) (exponent : Int)
  | infinity (negative : Bool)
  | notANumber
deriving DecidableEq

namespace Binary64

def leastExponent : Int := -1074

def greatestExponent : Int := 971

def ofBits (bits : Nat) : Binary64 :=
  let negative := decide (Nat.pow 2 63 ≤ bits)
  let biased : Nat := bits / Nat.pow 2 52 % Nat.pow 2 11
  let fraction : Nat := bits % Nat.pow 2 52
  if biased = 2047 then
    if fraction = 0 then .infinity negative else .notANumber
  else if biased = 0 then .finite negative fraction leastExponent
  else .finite negative (Nat.pow 2 52 + fraction) (leastExponent + (biased - 1))

def ofFloat (x : Float) : Binary64 :=
  ofBits x.toBits.toNat

/-- The place of the leading bit of a positive quotient: the greatest power of two that is not above
    it. The bit counts tell it up to one. -/
def leadingBit (num den : Nat) : Int :=
  let place : Int := (Nat.log2 num : Int) - Nat.log2 den
  if reaches 2 place num den then place else place - 1

/-- The number nearest to a quotient with a sign, of two the one with even digits. Beyond the
    greatest number there is only infinity. -/
def nearest (negative : Bool) (num den : Nat) : Binary64 :=
  if num = 0 then .finite negative 0 leastExponent
  else
    let exponent := max (leadingBit num den - 52) leastExponent
    let digits := roundedUnits 2 exponent num den
    let (digits, exponent) :=
      if digits = Nat.pow 2 53 then (Nat.pow 2 52, exponent + 1) else (digits, exponent)
    if greatestExponent < exponent then .infinity negative
    else .finite negative digits exponent

def toBits : Binary64 → Nat
  | .finite negative digits exponent =>
    (if negative then Nat.pow 2 63 else 0)
      + (if digits < Nat.pow 2 52 then digits
        else (exponent - leastExponent + 1).toNat * Nat.pow 2 52 + (digits - Nat.pow 2 52))
  | .infinity negative => (if negative then Nat.pow 2 63 else 0) + 2047 * Nat.pow 2 52
  | .notANumber => 2047 * Nat.pow 2 52 + Nat.pow 2 51

def toFloat (x : Binary64) : Float :=
  Float.ofBits (UInt64.ofNat x.toBits)

def quotient (digits : Nat) (exponent : Int) : Nat × Nat :=
  if 0 ≤ exponent then (digits * Nat.pow 2 exponent.toNat, 1)
  else (digits, Nat.pow 2 (-exponent).toNat)

def general (count : Nat) : Binary64 → String
  | .finite negative digits exponent =>
    let (num, den) := quotient digits exponent
    Decimal.general count negative num den
  | .infinity negative => if negative then "-inf" else "inf"
  | .notANumber => "nan"

def truncate? : Binary64 → Option Int
  | .finite negative digits exponent =>
    let (num, den) := quotient digits exponent
    let size : Int := (num / den : Nat)
    some (if negative then -size else size)
  | _ => none

/-- The integer part if it lies in the range of a signed word of the given width, and the least
    number of that range for everything else. -/
def toSigned (width : Nat) (x : Binary64) : Int :=
  let bound : Int := Nat.pow 2 (width - 1)
  match x.truncate? with
  | some n => if -bound ≤ n ∧ n < bound then n else -bound
  | none => -bound

def toUInt32 (x : Binary64) : UInt32 :=
  UInt32.ofInt (x.toSigned 64)

/-- The integer part as an unsigned word of 64 bits: below the middle of the range it is read as a
    signed word, from there on the middle is taken off before the reading and added after it. -/
def toUInt64 (x : Binary64) : UInt64 :=
  match x.truncate? with
  | some n =>
    if n < Nat.pow 2 63 then UInt64.ofInt (x.toSigned 64)
    else if n < Nat.pow 2 64 then UInt64.ofInt n
    else 0
  | none =>
    match x with
    | .infinity false => 0
    | _ => UInt64.ofInt (x.toSigned 64)

end Binary64

/-- Literals with more places than this before the point lie beyond every double. -/
def placesAbove : Int := 310

/-- Literals whose first digit stands after this many zeros lie below half the least double. -/
def placesBelow : Int := -330

/-- The double nearest to a literal. There is none for a decimal beyond the largest double; one too
    small for every positive double is zero. -/
def Literal.toFloat? : Literal → Option Float
  | .decimal negative digits exponent =>
    let place := (digitCount digits : Int) + exponent
    if digits = 0 ∨ place < placesBelow then some (Binary64.nearest negative 0 1).toFloat
    else if placesAbove < place then none
    else
      let nearest :=
        if 0 ≤ exponent then Binary64.nearest negative (digits * Nat.pow 10 exponent.toNat) 1
        else Binary64.nearest negative digits (Nat.pow 10 (-exponent).toNat)
      match nearest with
      | .finite _ _ _ => some nearest.toFloat
      | _ => none
  | .infinity negative => some (Binary64.infinity negative).toFloat
  | .notANumber _ => some Binary64.notANumber.toFloat

end ElasticNet.Decimal
