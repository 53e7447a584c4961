import ElasticNet.Proofs.Exact.Vectors

namespace ElasticNet.Exact

instance : RightCommutative ((· + ·) : Exact → Exact → Exact) :=
  ⟨Exact.add_right_comm⟩

theorem sum_append_singleton (xs : List Exact) (x : Exact) :
    Vector.sum (xs ++ [x]) = Vector.sum xs + x :=
  List.foldl_append

theorem sum_singleton (x : Exact) : Vector.sum [x] = x := by
  cases x with
  | number r => exact congrArg number (zero_add r)
  | undefined => rfl

theorem sum_perm {xs ys : List Exact} (perm : xs.Perm ys) : Vector.sum xs = Vector.sum ys :=
  perm.foldl_eq 0

protected theorem lt_irrefl (x : Exact) : ¬x < x := by
  cases x with
  | number r => exact lt_irrefl r
  | undefined => exact id

protected theorem lt_trans {x y z : Exact} (first : x < y) (second : y < z) : x < z := by
  cases x with
  | undefined => exact first.elim
  | number r =>
    cases z with
    | undefined => cases y <;> exact second.elim
    | number t =>
      cases y with
      | undefined => exact first.elim
      | number s => exact lt_trans (show r < s from first) (show s < t from second)

theorem eq_of_not_lt {x y : Exact} (same : x.isNumber = y.isNumber) (above : ¬x < y)
    (below : ¬y < x) : x = y := by
  cases x with
  | number r =>
    cases y with
    | number s => exact congrArg number (le_antisymm (not_lt.mp below) (not_lt.mp above))
    | undefined => cases same
  | undefined =>
    cases y with
    | number s => cases same
    | undefined => rfl

theorem two_eq : (2.0 : Exact) = number 2 := by
  rw [ofScientific_eq]
  norm_num

section Finite

variable {x y : Exact} {xs ys : List Exact}

theorem isFinite_add (finite : Scalar.isFinite x = true) (other : Scalar.isFinite y = true) :
    Scalar.isFinite (x + y) = true := by
  obtain ⟨r, rfl⟩ := exists_number finite
  obtain ⟨s, rfl⟩ := exists_number other
  rfl

theorem isFinite_mul (finite : Scalar.isFinite x = true) (other : Scalar.isFinite y = true) :
    Scalar.isFinite (x * y) = true := by
  obtain ⟨r, rfl⟩ := exists_number finite
  obtain ⟨s, rfl⟩ := exists_number other
  rfl

theorem isFinite_div (finite : Scalar.isFinite x = true) {n : ℕ} (nonzero : n ≠ 0) :
    Scalar.isFinite (x / (n : Exact)) = true := by
  obtain ⟨r, rfl⟩ := exists_number finite
  rw [natCast_eq, number_div _ (Nat.cast_ne_zero.mpr nonzero)]
  rfl

theorem isFinite_sum (finite : ∀ x ∈ xs, Scalar.isFinite x = true) :
    Scalar.isFinite (Vector.sum xs) = true :=
  List.foldlRecOn (motive := fun total : Exact => Scalar.isFinite total = true) xs _ rfl
    fun _ total x inside => isFinite_add total (finite x inside)

theorem isFinite_sparseDot (finite : Scalar.allFinite xs = true)
    (other : Scalar.allFinite ys = true) : Scalar.isFinite (Vector.sparseDot xs ys) = true := by
  refine List.foldlRecOn (motive := fun total : Exact => Scalar.isFinite total = true) _ _ rfl ?_
  intro total held entry inside
  obtain ⟨left, right⟩ := List.of_mem_zip inside
  dsimp only
  split
  · exact isFinite_add held
      (isFinite_mul (List.all_eq_true.mp finite _ left) (List.all_eq_true.mp other _ right))
  · exact held

end Finite

section Weights

variable {left right : ℕ} (some : left ≠ 0) (a x : Exact)
include some

/-- One step of the reduction in an entry: the mean of `a` over the rows so far is rescaled by the
    two counts, and that of the next rows is added. -/
theorem rescaled_add (more : right ≠ 0) : (right : Exact) / (left + right : ℕ) *
    ((left : Exact) / (right : Exact) * (a / (left : Exact)) + x) =
      (a + (right : Exact) * x) / (left + right : ℕ) := by
  have someReal : (left : ℝ) ≠ 0 := Nat.cast_ne_zero.mpr some
  have moreReal : (right : ℝ) ≠ 0 := Nat.cast_ne_zero.mpr more
  have total : ((left + right : ℕ) : ℝ) ≠ 0 := Nat.cast_ne_zero.mpr (by omega)
  rw [natCast_eq, natCast_eq, natCast_eq, number_div _ moreReal, number_div _ total]
  cases a with
  | undefined => rfl
  | number r =>
    cases x with
    | undefined => rw [number_div _ someReal]; rfl
    | number s =>
      rw [number_div _ someReal, number_mul, number_add, number_mul, number_mul, number_add,
        number_div _ total]
      congr 1
      field_simp

theorem reweighted_add : (a / (left : Exact) * (left : Exact) + x * (right : Exact)) /
    (left + right : ℕ) = (a + (right : Exact) * x) / (left + right : ℕ) := by
  have someReal : (left : ℝ) ≠ 0 := Nat.cast_ne_zero.mpr some
  rw [natCast_eq, natCast_eq]
  cases a with
  | undefined => rfl
  | number r =>
    cases x with
    | undefined => rw [number_div _ someReal]; rfl
    | number s =>
      rw [number_div _ someReal, number_mul, number_mul, number_mul, div_mul_cancel₀ _ someReal,
        mul_comm s]

end Weights

end ElasticNet.Exact
