namespace ElasticNet.Decimal

def roundedQuotient (num den : Nat) : Nat :=
  let quotient := num / den
  let twice := 2 * (num % den)
  if den < twice ∨ (twice = den ∧ quotient % 2 = 1) then quotient + 1 else quotient

def digitCount (n : Nat) : Nat :=
  (Nat.toDigits 10 n).length

def reaches (base : Nat) (place : Int) (num den : Nat) : Bool :=
  if 0 ≤ place then decide (den * Nat.pow base place.toNat ≤ num)
  else decide (den ≤ num * Nat.pow base (-place).toNat)

def roundedUnits (base : Nat) (place : Int) (num den : Nat) : Nat :=
  if 0 ≤ place then roundedQuotient num (den * Nat.pow base place.toNat)
  else roundedQuotient (num * Nat.pow base (-place).toNat) den

def leadingPlace (num den : Nat) : Int :=
  let place : Int := (digitCount num : Int) - digitCount den
  if reaches 10 place num den then place else place - 1

def significant (count num den : Nat) : Nat × Int :=
  let place := leadingPlace num den
  let digits := roundedUnits 10 (place - count + 1) num den
  if digits = Nat.pow 10 count then (Nat.pow 10 (count - 1), place + 1) else (digits, place)

def withoutTrailingZeros (digits : List Char) : List Char :=
  (digits.reverse.dropWhile (· = '0')).reverse

def positional (whole part : List Char) : List Char :=
  match withoutTrailingZeros part with
  | [] => whole
  | rest => whole ++ '.' :: rest

def exponentText (place : Int) : List Char :=
  let digits := Nat.toDigits 10 place.natAbs
  (if place < 0 then '-' else '+') :: (List.replicate (2 - digits.length) '0' ++ digits)

/-- The general notation of digits whose first one stands at a place: positional from four zeros
    after the point up to as many places as there are digits. -/
def layout (digits : List Char) (place : Int) : List Char :=
  if place < -4 ∨ (digits.length : Int) ≤ place then
    positional (digits.take 1) (digits.drop 1) ++ 'e' :: exponentText place
  else if place < 0 then
    positional ['0'] (List.replicate (-place - 1).toNat '0' ++ digits)
  else
    positional (digits.take (place.toNat + 1)) (digits.drop (place.toNat + 1))

def general (count : Nat) (negative : Bool) (num den : Nat) : String :=
  let sign := if negative then ['-'] else []
  if num = 0 then String.ofList (sign ++ ['0'])
  else
    let (digits, place) := significant count num den
    String.ofList (sign ++ layout (Nat.toDigits 10 digits) place)

end ElasticNet.Decimal
