import Mathlib.Data.Int.Order.Basic
import Mathlib.Data.Prod.Lex
import Mathlib.Order.Compare
import Mathlib.Order.Monotone.Basic

namespace ElasticNet.Decimal.Binary64

open Float.Model Float.Model.UnpackedFloat

/-- The place of a finite double among all of them. -/
def place : UnpackedFloat → ℤ ×ₗ ℤ ×ₗ ℤ
  | .finite .negative mantissa exponent _ => toLex (-1, toLex (-exponent, -(mantissa : ℤ)))
  | .finite .positive mantissa exponent _ => toLex (1, toLex (exponent, (mantissa : ℤ)))
  | _ => toLex (0, toLex (0, 0))

section Place

variable {mantissa : Nat} {exponent : ℤ} {positive : 0 < mantissa}

theorem place_negative : place (.finite .negative mantissa exponent positive) =
    toLex (-1, toLex (-exponent, -(mantissa : ℤ))) :=
  rfl

theorem place_positive : place (.finite .positive mantissa exponent positive) =
    toLex (1, toLex (exponent, (mantissa : ℤ))) :=
  rfl

end Place

theorem compare_same_sign (sign e f m n : ℤ) :
    compare (toLex (sign, toLex (e, m)) : ℤ ×ₗ ℤ ×ₗ ℤ) (toLex (sign, toLex (f, n))) =
      (compare e f).then (compare m n) := by
  rw [Prod.Lex.compare_def]
  simp only [compareLex, compareOn, ofLex_toLex, compare_eq_iff_eq.mpr, Ordering.then,
    Prod.Lex.compare_def]

theorem compare_below {sign other : ℤ} (below : sign < other) (size otherSize : ℤ ×ₗ ℤ) :
    compare (toLex (sign, size)) (toLex (other, otherSize)) = .lt := by
  rw [compare_lt_iff_lt, Prod.Lex.toLex_lt_toLex]
  exact .inl below

theorem compare_above {sign other : ℤ} (above : other < sign) (size otherSize : ℤ ×ₗ ℤ) :
    compare (toLex (sign, size)) (toLex (other, otherSize)) = .gt := by
  rw [compare_gt_iff_gt, Prod.Lex.toLex_lt_toLex]
  exact .inl above

theorem compare_natCast (m n : ℕ) : compare (m : ℤ) (n : ℤ) = compare m n := by
  have rising : StrictMono fun n : ℕ => (n : ℤ) := fun _ _ less => Int.ofNat_lt.mpr less
  rw [← cmp_eq_compare, ← cmp_eq_compare]
  exact rising.cmp_map_eq m n

theorem compare_neg (m n : ℤ) : compare (-m) (-n) = (compare m n).swap := by
  have falling : StrictAnti fun n : ℤ => -n := fun _ _ less => Int.neg_lt_neg less
  rw [Int.compare_swap, ← cmp_eq_compare, ← cmp_eq_compare]
  exact falling.cmp_map_eq m n

/-- Finite doubles compare as their places do. -/
theorem compare_eq {x y : UnpackedFloat} (finite : x.isFinite = true)
    (other : y.isFinite = true) : x.compare y = some (compare (place x) (place y)) := by
  match x, y with
  | .notANumber, _ | .infinity _, _ => cases finite
  | _, .notANumber | _, .infinity _ => cases other
  | .zero _, .zero _ => rfl
  | .finite .positive m e _, .finite .positive n f _ =>
    rw [place_positive, place_positive, compare_same_sign, compare_natCast]
    rfl
  | .finite .negative m e _, .finite .negative n f _ =>
    rw [place_negative, place_negative, compare_same_sign, compare_neg, compare_neg,
      compare_natCast, ← Ordering.swap_then]
    rfl
  | .finite .negative _ _ _, .zero _ | .finite .negative _ _ _, .finite .positive _ _ _
  | .zero _, .finite .positive _ _ _ =>
    exact congrArg some (compare_below (by decide) _ _).symm
  | .zero _, .finite .negative _ _ _ | .finite .positive _ _ _, .finite .negative _ _ _
  | .finite .positive _ _ _, .zero _ =>
    exact congrArg some (compare_above (by decide) _ _).symm

theorem lt_iff {x y : Float} (finite : x.isFinite = true) (other : y.isFinite = true) :
    x < y ↔ place x.toModel.unpack < place y.toModel.unpack := by
  have compared := compare_eq (x := x.toModel.unpack) (y := y.toModel.unpack) finite other
  change decide (x.toModel < y.toModel) = true ↔ _
  rw [decide_eq_true_iff]
  change (x.toModel.unpack.compare y.toModel.unpack == some .lt) = true ↔ _
  rw [compared, ← compare_lt_iff_lt, Option.some_beq_some, beq_iff_eq]

theorem le_iff {x y : Float} (finite : x.isFinite = true) (other : y.isFinite = true) :
    x ≤ y ↔ place x.toModel.unpack ≤ place y.toModel.unpack := by
  have compared := compare_eq (x := x.toModel.unpack) (y := y.toModel.unpack) finite other
  change decide (x.toModel ≤ y.toModel) = true ↔ _
  rw [decide_eq_true_iff]
  change (x.toModel.unpack.compare y.toModel.unpack).any Ordering.isLE = true ↔ _
  rw [compared, ← compare_le_iff_le, Option.any_some, Ordering.isLE_iff_ne_gt]

theorem not_lt_iff {x y : Float} (finite : x.isFinite = true) (other : y.isFinite = true) :
    ¬ x < y ↔ y ≤ x := by
  rw [lt_iff finite other, le_iff other finite, not_lt]

end ElasticNet.Decimal.Binary64
