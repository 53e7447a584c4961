import ElasticNet.Proofs.Counts
import ElasticNet.Proofs.Ordered
import Mathlib.Analysis.Real.Sqrt
import Mathlib.Analysis.SpecialFunctions.Log.Basic
import Mathlib.Analysis.SpecialFunctions.Pow.Real

namespace ElasticNet

-- Found before the general instance, so that no definition below holds a proof of its own about its
-- numerals.
instance atLeastTwo_two : Nat.AtLeastTwo 2 := ⟨by decide⟩

instance atLeastTwo_three : Nat.AtLeastTwo 3 := ⟨by decide⟩

instance atLeastTwo_five : Nat.AtLeastTwo 5 := ⟨by decide⟩

/-- The real numbers, and one value for what is none of them: a missing value, a quotient by zero,
    the root of a negative number. Whatever is computed from it is undefined as well, and it
    compares with nothing. -/
inductive Exact where
  | number (value : ℝ)
  | undefined

namespace Exact

open Classical in
noncomputable def provided (condition : Prop) (value : ℝ) : Exact :=
  if condition then number value else undefined

def map (change : ℝ → ℝ) : Exact → Exact
  | number x => number (change x)
  | undefined => undefined

def combine (change : ℝ → ℝ → ℝ) : Exact → Exact → Exact
  | number x, number y => number (change x y)
  | _, _ => undefined

noncomputable def divide : Exact → Exact → Exact
  | number x, number y => provided (y ≠ 0) (x / y)
  | _, _ => undefined

def Compares (relation : ℝ → ℝ → Prop) : Exact → Exact → Prop
  | number x, number y => relation x y
  | _, _ => False

noncomputable def onProvided (condition : ℝ → Prop) (change : ℝ → ℝ) : Exact → Exact
  | number x => provided (condition x) (change x)
  | undefined => undefined

def isNumber : Exact → Bool
  | number _ => true
  | undefined => false

def value : Exact → ℝ
  | number x => x
  | undefined => 0

noncomputable def truncate (x : ℝ) : Int :=
  if 0 ≤ x then ⌊x⌋ else ⌈x⌉

noncomputable def ofLiteral : Decimal.Literal → Exact
  | .decimal negative digits exponent =>
    number ((if negative then -1 else 1) * digits * (10 : ℝ) ^ exponent)
  | _ => undefined

open Classical in
noncomputable instance : Scalar Exact where
  zero := number 0
  one := number 1
  add := combine (· + ·)
  sub := combine (· - ·)
  mul := combine (· * ·)
  div := divide
  neg := map (- ·)
  natCast n := number n
  ofScientific mantissa sign exponent := number (OfScientific.ofScientific mantissa sign exponent)
  lt := Compares (· < ·)
  le := Compares (· ≤ ·)
  beq x y := decide (Compares (· = ·) x y)
  decidableLT _ _ := Classical.propDecidable _
  decidableLE _ _ := Classical.propDecidable _
  exp := map Real.exp
  log := onProvided (0 < ·) Real.log
  sqrt := onProvided (0 ≤ ·) Real.sqrt
  abs := map abs
  pow x y :=
    match x, y with
    | number x, number y => provided (0 < x ∨ x = 0 ∧ 0 ≤ y) (x ^ y)
    | _, _ => undefined
  isFinite := isNumber
  isNaN x := !x.isNumber
  tiny := number (2 ^ (-1074 : ℤ))
  toUInt32 x := UInt32.ofNat (min ⌊x.value⌋₊ (UInt32.size - 1))
  toUInt64 x := UInt64.ofNat (min ⌊x.value⌋₊ (UInt64.size - 1))
  toCode x := truncate x.value
  ofLiteral? literal := some (ofLiteral literal)
  text _ := ""

theorem zero_eq : (0 : Exact) = number 0 := rfl

theorem one_eq : (1 : Exact) = number 1 := rfl

theorem natCast_eq (n : ℕ) : (n : Exact) = number n := rfl

theorem ofScientific_eq (mantissa : ℕ) (sign : Bool) (exponent : ℕ) :
    (OfScientific.ofScientific mantissa sign exponent : Exact) =
      number (OfScientific.ofScientific mantissa sign exponent) := rfl

theorem half_eq : (0.5 : Exact) = number (1 / 2) := by
  rw [ofScientific_eq]
  norm_num

section Numbers

variable (x y : ℝ)

@[simp]
theorem number_add : number x + number y = number (x + y) := rfl

@[simp]
theorem number_sub : number x - number y = number (x - y) := rfl

@[simp]
theorem number_mul : number x * number y = number (x * y) := rfl

@[simp]
theorem number_neg : -number x = number (-x) := rfl

theorem provided_of {condition : Prop} (holds : condition) : provided condition x = number x :=
  if_pos holds

variable {y} in
theorem number_div (nonzero : y ≠ 0) : number x / number y = number (x / y) :=
  provided_of _ nonzero

@[simp]
theorem number_lt : number x < number y ↔ x < y := Iff.rfl

@[simp]
theorem number_le : number x ≤ number y ↔ x ≤ y := Iff.rfl

@[simp]
theorem number_beq : (number x == number y) = decide (x = y) := rfl

@[simp]
theorem number_bne : (number x != number y) = decide (x ≠ y) := by
  rw [bne, number_beq, decide_not]

@[simp]
theorem exp_number : Scalar.exp (number x) = number (Real.exp x) := rfl

variable {x} in
theorem log_number (positive : 0 < x) : Scalar.log (number x) = number (Real.log x) :=
  provided_of _ positive

variable {x} in
theorem sqrt_number (nonnegative : 0 ≤ x) : Scalar.sqrt (number x) = number (Real.sqrt x) :=
  provided_of _ nonnegative

@[simp]
theorem abs_number : Scalar.abs (number x) = number |x| := rfl

@[simp]
theorem isFinite_number : Scalar.isFinite (number x) = true := rfl

@[simp]
theorem max_number : Scalar.max (number x) (number y) = number (max x y) := by
  unfold Scalar.max
  split
  · next less => rw [max_eq_right (le_of_lt less)]
  · next more => rw [max_eq_left (not_lt.mp more)]

end Numbers

theorem exists_number {x : Exact} (finite : Scalar.isFinite x = true) : ∃ r, x = number r := by
  cases x with
  | number r => exact ⟨r, rfl⟩
  | undefined => cases finite

theorem bne_iff_ne {x y : Exact} (finite : Scalar.isFinite y = true) : (x != y) = true ↔ x ≠ y := by
  obtain ⟨s, rfl⟩ := exists_number finite
  cases x with
  | number r => rw [number_bne, decide_eq_true_eq, ne_eq, ne_eq, number.injEq]
  | undefined =>
    have differs : (undefined == number s) = false := by
      classical exact decide_eq_false (p := Compares (· = ·) undefined (number s)) id
    rw [bne, differs]
    exact ⟨fun _ => nofun, fun _ => rfl⟩

theorem eq_of_same {x y : Exact} (finite : Scalar.isFinite y = true)
    (same : x = y ∨ (x == y) = true) : x = y := by
  rcases same with same | same
  · exact same
  · by_contra different
    have unequal := (bne_iff_ne finite).mpr different
    rw [bne, same] at unequal
    cases unequal

theorem exists_of_nonneg {x : Exact} (nonnegative : 0 ≤ x) : ∃ r : ℝ, 0 ≤ r ∧ x = number r := by
  cases x with
  | number r => exact ⟨r, nonnegative, rfl⟩
  | undefined => exact nonnegative.elim

theorem exists_of_pos {x : Exact} (positive : 0 < x) : ∃ r : ℝ, 0 < r ∧ x = number r := by
  cases x with
  | number r => exact ⟨r, positive, rfl⟩
  | undefined => exact positive.elim

theorem isNumber_of_le {x y : Exact} (below : x ≤ y) : y.isNumber = true := by
  cases y with
  | number r => rfl
  | undefined => cases x <;> exact below.elim

theorem isNumber_of_lt {x y : Exact} (below : x < y) : y.isNumber = true := by
  cases y with
  | number r => rfl
  | undefined => cases x <;> exact below.elim

theorem value_of_lt {r : ℝ} {x : Exact} (above : number r < x) :
    x = number x.value ∧ r < x.value := by
  cases x with
  | number s => exact ⟨rfl, above⟩
  | undefined => exact above.elim

protected theorem not_lt_of_le {x y : Exact} (below : x ≤ y) : ¬y < x := by
  cases x with
  | number r =>
    cases y with
    | number s => exact not_lt_of_ge (show r ≤ s from below)
    | undefined => exact below.elim
  | undefined => cases y <;> exact nofun

instance : Scalar.OrdersFinite Exact where
  isFinite_zero := rfl
  le_of_not_lt := by
    intro x y finite other above
    obtain ⟨r, rfl⟩ := exists_number finite
    obtain ⟨s, rfl⟩ := exists_number other
    exact not_lt.mp (show ¬ r < s from above)
  le_trans := by
    intro x y z first second third below further
    obtain ⟨r, rfl⟩ := exists_number first
    obtain ⟨s, rfl⟩ := exists_number second
    obtain ⟨t, rfl⟩ := exists_number third
    exact le_trans (show r ≤ s from below) (show s ≤ t from further)

section Sums

variable (x y z : Exact)

protected theorem add_assoc : x + y + z = x + (y + z) := by
  cases x <;> cases y <;> cases z <;> first | exact congrArg number (add_assoc _ _ _) | rfl

protected theorem add_right_comm : x + y + z = x + z + y := by
  cases x <;> cases y <;> cases z <;> first | exact congrArg number (add_right_comm _ _ _) | rfl

protected theorem add_zero : x + 0 = x := by
  cases x with
  | number r => exact congrArg number (add_zero r)
  | undefined => rfl

end Sums

theorem toNat_toUInt32 (n : ℕ) :
    (Scalar.toUInt32 (number n)).toNat = min n (UInt32.size - 1) := by
  change (UInt32.ofNat (min ⌊(n : ℝ)⌋₊ (UInt32.size - 1))).toNat = _
  rw [Nat.floor_natCast, UInt32.toNat_ofNat']
  exact Nat.mod_eq_of_lt (lt_of_le_of_lt (min_le_right _ _) (by decide))

theorem toNat_toUInt64 (n : ℕ) :
    (Scalar.toUInt64 (number n)).toNat = min n (UInt64.size - 1) := by
  change (UInt64.ofNat (min ⌊(n : ℝ)⌋₊ (UInt64.size - 1))).toNat = _
  rw [Nat.floor_natCast, UInt64.toNat_ofNat']
  exact Nat.mod_eq_of_lt (lt_of_le_of_lt (min_le_right _ _) (by decide))

instance : Scalar.KeepsCounts Exact where
  natCast_zero := congrArg number Nat.cast_zero
  toUInt32_natCast n small := (toNat_toUInt32 n).trans (min_eq_left (Nat.le_sub_one_of_lt small))
  toUInt64_natCast n small := by
    refine (toNat_toUInt64 n).trans (min_eq_left ?_)
    unfold UInt64.size
    omega
  toCode_natCast n _ := by
    change truncate (n : ℝ) = n
    rw [truncate, if_pos (Nat.cast_nonneg n)]
    exact Int.floor_natCast n

theorem natCast_zero : ((0 : ℕ) : Exact) = 0 :=
  Scalar.KeepsCounts.natCast_zero

theorem natCast_add (m n : ℕ) : ((m + n : ℕ) : Exact) = (m : Exact) + (n : Exact) :=
  congrArg number (Nat.cast_add m n)

theorem toUInt32_eq_zero (n : ℕ) : Scalar.toUInt32 (n : Exact) = 0 ↔ n = 0 := by
  rw [← UInt32.toNat_inj, natCast_eq, toNat_toUInt32]
  change min n (2 ^ 32 - 1) = 0 ↔ _
  omega

theorem toUInt64_eq_zero (n : ℕ) : Scalar.toUInt64 (n : Exact) = 0 ↔ n = 0 := by
  rw [← UInt64.toNat_inj, natCast_eq, toNat_toUInt64]
  change min n (2 ^ 64 - 1) = 0 ↔ _
  omega

theorem iterate_add_one (n : ℕ) : (· + 1)^[n] (0 : Exact) = (n : Exact) := by
  induction n with
  | zero => exact natCast_zero.symm
  | succ n ih =>
    rw [Function.iterate_succ_apply', ih, natCast_add]
    exact congrArg (fun one => (n : Exact) + number one) Nat.cast_one.symm

instance : Scalar.AddsCounts Exact where
  natCast_one := congrArg number Nat.cast_one
  natCast_add m n _ := (natCast_add m n).symm
  natCast_ne_zero n positive _ := by
    change ((n : Exact) == number 0) = false
    rw [natCast_eq, number_beq, decide_eq_false_iff_not]
    exact Nat.cast_ne_zero.mpr (Nat.ne_of_gt positive)

instance : Scalar.CountsUp Exact where
  toUInt64_iterate n := by
    rw [iterate_add_one]
    exact (toUInt64_eq_zero _).not.mpr (Nat.succ_ne_zero n)

theorem ofCount_toUInt64 {n : ℕ} (small : n < UInt64.size) :
    Scalar.ofCount (Scalar.toUInt64 (n : Exact)) = (n : Exact) := by
  have kept : (Scalar.toUInt64 (n : Exact)).toNat = n :=
    (toNat_toUInt64 n).trans (min_eq_left (Nat.le_sub_one_of_lt small))
  rw [Scalar.ofCount, kept]

end Exact

end ElasticNet
