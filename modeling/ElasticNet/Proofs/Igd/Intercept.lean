import ElasticNet.Proofs.Exact.Vectors
import ElasticNet.Proofs.Igd.Slots

namespace ElasticNet.Igd

open Exact Matrix

section Slots

variable {α : Type} [Scalar α] {count : ℕ} {state : State α}

theorem finalize_write (sized : state.Sized count) (family : Family) :
    (optimizer family).finalize (layout.write state) =
      .ok () (layout.write (state.finalize family)) :=
  ((carriedOut family count).finalize sized).2

theorem model_write (sized : state.Sized count) (family : Family) (spreads : List α)
    (tolerance : α) :
    (optimizer family).model (layout.write state) spreads tolerance =
      .ok (state.model spreads tolerance) := by
  change (layout.view (layout.write state)).map _ = _
  rw [(readsBack sized).view]
  rfl

theorem intercept_finalize_gaussian (rows : Scalar.toUInt64 state.rows ≠ 0) :
    (state.finalize .gaussian).intercept = state.centeredIntercept := by
  unfold State.finalize
  rw [if_neg rows]
  rfl

variable (state) in
theorem coefficients_finalize (family : Family) :
    (state.finalize family).coefficients = state.coefficients := by
  unfold State.finalize
  dsimp only
  split
  · rfl
  · split
    · rfl
    · rfl

end Slots

section Means

variable {d : ℕ} {state : State Exact} {w m : Fin d → ℝ} {y : ℝ}

theorem centeredIntercept_ofVector (coefficients : state.coefficients = ofVector w)
    (means : state.means = ofVector m) (response : state.responseMean = number y) :
    state.centeredIntercept = number (y - w ⬝ᵥ m) := by
  unfold State.centeredIntercept
  rw [coefficients, means, response, sparseDot_ofVector, number_sub]

theorem exists_left_out (w : Fin d → ℝ) {sizes : List Exact} (fitting : sizes.length = d)
    (leaves : Exact → Prop) [DecidablePred leaves] :
    ∃ v : Fin d → ℝ,
      List.zipWith (fun c size => if leaves size then 0 else c) (ofVector w) sizes = ofVector v ∧
        ∀ j, v j = w j ∨ v j = 0 := by
  refine ⟨fun j => if leaves sizes[j] then 0 else w j, ?_, fun j => ?_⟩
  · apply List.ext_getElem
    · simp [fitting]
    · intro i inside _
      simp only [List.getElem_zipWith, ofVector, List.getElem_ofFn, Fin.getElem_fin]
      rw [apply_ite number, ← zero_eq]
  · exact (ite_eq_or_eq _ _ _).symm

theorem keptCoefficients_ofVector (coefficients : state.coefficients = ofVector w)
    {spreads : List Exact} (fitting : spreads.length = d) (tolerance : Exact) :
    ∃ v : Fin d → ℝ, state.keptCoefficients spreads tolerance = ofVector v ∧
      ∀ j, v j = w j ∨ v j = 0 := by
  have sizes : (List.zipWith (· * ·) (ofVector w) spreads).length = d := by
    rw [List.length_zipWith, length_ofVector, fitting, Nat.min_self]
  unfold State.keptCoefficients
  rw [coefficients]
  exact exists_left_out w sizes _

/-- The reported intercept is the one of all coefficients. The coefficients that are reported have
    this intercept if and only if those that were left out added nothing at the means. -/
theorem reported_intercept (sized : state.Sized d) (rows : Scalar.toUInt64 state.rows ≠ 0)
    (coefficients : state.coefficients = ofVector w) (means : state.means = ofVector m)
    (response : state.responseMean = number y) {spreads : List Exact}
    (fitting : spreads.length = d) (tolerance : Exact) :
    ∃ after model, ∃ v : Fin d → ℝ,
      (optimizer .gaussian).finalize (layout.write state) = .ok () after ∧
      (optimizer .gaussian).model after spreads tolerance = .ok model ∧
      model.coefficients = ofVector v ∧ (∀ j, v j = w j ∨ v j = 0) ∧
      model.intercept = number (y - w ⬝ᵥ m) ∧
      (model.intercept = number (y - v ⬝ᵥ m) ↔ (w - v) ⬝ᵥ m = 0) := by
  have kept := (coefficients_finalize state .gaussian).trans coefficients
  obtain ⟨v, left, choice⟩ := keptCoefficients_ofVector kept fitting tolerance
  have intercept : (state.finalize .gaussian).intercept = number (y - w ⬝ᵥ m) :=
    (intercept_finalize_gaussian rows).trans
      (centeredIntercept_ofVector coefficients means response)
  refine ⟨_, _, v, finalize_write sized .gaussian,
    model_write (sized.finalize .gaussian) .gaussian spreads tolerance, left, choice, intercept, ?_⟩
  change (state.finalize .gaussian).intercept = _ ↔ _
  rw [intercept, sub_dotProduct]
  constructor
  · intro same
    have equal : y - w ⬝ᵥ m = y - v ⬝ᵥ m := Exact.number.inj same
    linarith
  · intro nothing
    have equal : w ⬝ᵥ m = v ⬝ᵥ m := sub_eq_zero.mp nothing
    rw [equal]

end Means

noncomputable def oneRow : State Exact where
  dimension := number 1
  mixing := number (1 / 2)
  threshold := number (1 / (2 * 5) ^ 10)
  stepDecay := number 0
  exponent := number 2
  dualExponent := number 2
  totalRows := number 2
  means := [number 1]
  responseMean := number 3
  strength := number 0
  stepSize := number 1
  coefficients := [number (1 / 2)]
  dual := [number (1 / 2)]
  intercept := number (5 / 2)
  rows := number 1
  logLikelihood := number ((1 / 2) ^ 3)
  status := number 0

theorem toUInt64_oneRow : Scalar.toUInt64 oneRow.rows ≠ 0 := by
  have positive := (toUInt64_eq_zero 1).not.mpr one_ne_zero
  rwa [natCast_eq, Nat.cast_one] at positive

theorem sized_oneRow : oneRow.Sized 1 where
  dimension := by
    have kept := toNat_toUInt32 1
    rwa [Nat.cast_one] at kept
  means := rfl
  coefficients := rfl
  dual := rfl

theorem reported_intercept_oneRow :
    oneRow.Sized 1 ∧ Scalar.toUInt64 oneRow.rows ≠ 0 ∧ oneRow.coefficients = ofVector ![1 / 2] ∧
      oneRow.means = ofVector ![1] ∧ oneRow.responseMean = number 3 ∧ [number 1].length = 1 ∧
      ∃ after model, ∃ v : Fin 1 → ℝ,
        (optimizer .gaussian).finalize (layout.write oneRow) = .ok () after ∧
        (optimizer .gaussian).model after [number 1] (number 0) = .ok model ∧
        model.coefficients = ofVector v ∧ (∀ j, v j = ![1 / 2] j ∨ v j = 0) ∧
        model.intercept = number (3 - ![1 / 2] ⬝ᵥ ![1]) ∧
        (model.intercept = number (3 - v ⬝ᵥ ![1]) ↔ (![1 / 2] - v) ⬝ᵥ ![1] = 0) :=
  ⟨sized_oneRow, toUInt64_oneRow, rfl, rfl, rfl, rfl,
    reported_intercept sized_oneRow toUInt64_oneRow rfl rfl rfl rfl (number 0)⟩

/-- With a tolerance of 10 the only coefficient is left out. The intercept for it would be the mean
    response. -/
theorem reported_intercept_left_out :
    ∃ after model,
      (optimizer .gaussian).finalize (layout.write oneRow) = .ok () after ∧
      (optimizer .gaussian).model after [number 1] (number 10) = .ok model ∧
      model.coefficients = [number 0] ∧ model.intercept = number (5 / 2) ∧
      model.intercept ≠ oneRow.responseMean - Vector.sparseDot model.coefficients oneRow.means := by
  have leftOut : (oneRow.finalize .gaussian).keptCoefficients [number 1] (number 10) =
      [number 0] := by
    unfold State.keptCoefficients
    rw [coefficients_finalize]
    have small : Scalar.abs (number (1 / 2) * number 1) < number 10 := by
      rw [number_mul, abs_number, number_lt]
      norm_num
    change [if _ ∨ Scalar.abs (number (1 / 2) * number 1) < number 10 then 0 else _] = _
    rw [if_pos (.inr small), zero_eq]
  have intercept : (oneRow.finalize .gaussian).intercept = number (5 / 2) := by
    rw [intercept_finalize_gaussian toUInt64_oneRow,
      centeredIntercept_ofVector (w := ![1 / 2]) (m := ![1]) (y := 3) rfl rfl rfl]
    norm_num [dotProduct]
  have mean : oneRow.responseMean - Vector.sparseDot [number 0] oneRow.means = number 3 := by
    have nothing : ![0] ⬝ᵥ ![(1 : ℝ)] = 0 := by
      norm_num [dotProduct]
    have dot : Vector.sparseDot [number 0] oneRow.means = number 0 :=
      (sparseDot_ofVector ![0] ![1]).trans (congrArg number nothing)
    rw [dot]
    exact congrArg number (sub_zero 3)
  refine ⟨_, _, finalize_write sized_oneRow .gaussian,
    model_write (sized_oneRow.finalize .gaussian) .gaussian _ _, leftOut, intercept, ?_⟩
  change (oneRow.finalize .gaussian).intercept ≠
    _ - Vector.sparseDot ((oneRow.finalize .gaussian).keptCoefficients _ _) _
  rw [leftOut, intercept, mean]
  intro same
  have equal : (5 / 2 : ℝ) = 3 := Exact.number.inj same
  norm_num at equal

end ElasticNet.Igd
