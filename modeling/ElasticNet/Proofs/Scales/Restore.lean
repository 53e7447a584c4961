import ElasticNet.Predict
import ElasticNet.Proofs.Scales.Sums
import ElasticNet.Proofs.Scales.Units

namespace ElasticNet

open Exact Matrix

def Model.residual {α : Type} [Scalar α] (model : Model α) (row : Row α) :
    Except Error (Option α) :=
  (Predict.linear model.coefficients model.intercept row.features).map
    (Option.map (row.response - ·))

variable {n : ℕ}

theorem Predict.linear_ofVector (w x : Fin n → ℝ) (b : ℝ) :
    Predict.linear (ofVector w) (number b) (ofVector x) = .ok (some (number (b + w ⬝ᵥ x))) := by
  have known : (ofVector x).any Scalar.isNaN = false := by
    rw [List.any_eq_false]
    intro entry inside
    obtain ⟨j, rfl⟩ := List.mem_ofFn.mp inside
    exact Bool.false_ne_true
  unfold Predict.linear
  rw [allFinite_ofVector, isFinite_number, length_ofVector, length_ofVector, known,
    sparseDot_ofVector, number_add]
  simp only [Bool.not_true, Bool.or_false, Bool.false_eq_true, if_false, ne_eq, not_true]

/-- What exact predictions depend on: whether the model is finite, whether it fits the features, and
    whether all of these are known. -/
theorem Predict.linear_eq (coefficients : List Exact) (intercept : Exact) (features : List Exact) :
    Predict.linear coefficients intercept features =
      if Scalar.allFinite coefficients && Scalar.isFinite intercept then
        if coefficients.length = features.length then
          if Scalar.allFinite features then
            .ok (some (intercept + Vector.sparseDot coefficients features))
          else .ok none
        else .error (.featureCount coefficients.length features.length)
      else .error .nonFiniteModel := by
  have known : features.any Scalar.isNaN = !Scalar.allFinite features :=
    List.not_all_eq_any_not.symm
  unfold Predict.linear
  rw [known, ← Bool.not_and]
  cases Scalar.allFinite coefficients && Scalar.isFinite intercept with
  | false => rfl
  | true =>
    by_cases fitting : coefficients.length = features.length
    · rw [if_pos fitting, if_neg (not_not_intro fitting)]
      cases Scalar.allFinite features with
      | true => rfl
      | false => rfl
    · rw [if_neg fitting, if_pos fitting]
      rfl

theorem Predict.linear_carried {coefficients carried : List Exact} {intercept other : Exact}
    {features changed : List Exact} {change : Exact → Exact}
    (finite : (Scalar.allFinite carried && Scalar.isFinite other) =
      (Scalar.allFinite coefficients && Scalar.isFinite intercept))
    (sized : carried.length = coefficients.length) (length : changed.length = features.length)
    (known : Scalar.allFinite changed = Scalar.allFinite features)
    (numbers : (Scalar.allFinite coefficients && Scalar.isFinite intercept) = true →
      coefficients.length = features.length → Scalar.allFinite features = true →
      Predict.linear carried other changed =
        (Predict.linear coefficients intercept features).map (Option.map change)) :
    Predict.linear carried other changed =
      (Predict.linear coefficients intercept features).map (Option.map change) := by
  by_cases sound : (Scalar.allFinite coefficients && Scalar.isFinite intercept) = true
  · by_cases fitting : coefficients.length = features.length
    · by_cases complete : Scalar.allFinite features = true
      · exact numbers sound fitting complete
      · rw [Predict.linear_eq, Predict.linear_eq, finite, sized, length, known, if_pos sound,
          if_pos fitting, if_neg complete, if_pos sound, if_pos fitting, if_neg complete]
        rfl
    · rw [Predict.linear_eq, Predict.linear_eq, finite, sized, length, if_pos sound,
        if_neg fitting, if_pos sound, if_neg fitting]
      rfl
  · rw [Predict.linear_eq, Predict.linear_eq, finite, if_neg sound, if_neg sound]
    rfl

namespace Scales

structure Numeric (scales : Scales Exact) (means spreads : Fin n → ℝ) (mean : ℝ) : Prop where
  means : scales.means = ofVector means
  spreads : scales.spreads = ofVector spreads
  responseMean : scales.responseMean = number mean

theorem numeric_measure {source : Source Exact} (some : source.completeCount ≠ 0) :
    ∃ (means spreads : Fin source.dimension → ℝ) (mean : ℝ),
      (measure source).Numeric means spreads mean := by
  obtain ⟨means, spreads, responseMean, _⟩ := ofSamples_measure (source.samples_ne_nil some)
  exact ⟨_, _, _, means, spreads, responseMean⟩

noncomputable def standardValue (mean spread x : ℝ) : ℝ :=
  if isCloseToZero (number spread) (number mean) then x - mean else (x - mean) / spread

noncomputable def restoredValue (mean spread c : ℝ) : ℝ :=
  if isCloseToZero (number spread) (number mean) then c else c / spread

theorem isCloseToZero_number (spread mean : ℝ) :
    isCloseToZero (number spread) (number mean) = true ↔ |spread| ≤ 1e-6 * max 1 |mean| := by
  unfold isCloseToZero noise
  rw [decide_eq_true_eq, ofScientific_eq, one_eq, abs_number, abs_number, max_number, number_mul,
    number_le]

theorem spread_ne_zero {mean spread : ℝ}
    (varies : ¬isCloseToZero (number spread) (number mean) = true) : spread ≠ 0 := by
  rintro rfl
  apply varies
  rw [isCloseToZero_number, abs_zero]
  positivity

theorem standardizeFeature_number (mean spread x : ℝ) :
    standardizeFeature (number mean) (number spread) (number x) =
      number (standardValue mean spread x) := by
  unfold standardizeFeature standardValue
  split
  · exact number_sub _ _
  · next varies => rw [number_sub, number_div _ (spread_ne_zero varies)]

theorem restoreCoefficient_number (mean spread c : ℝ) :
    restoreCoefficient (number mean) (number spread) (number c) =
      number (restoredValue mean spread c) := by
  unfold restoreCoefficient restoredValue
  split
  · rfl
  · next varies => exact number_div _ (spread_ne_zero varies)

theorem isFinite_restoreCoefficient (mean spread : ℝ) (c : Exact) :
    Scalar.isFinite (restoreCoefficient (number mean) (number spread) c) = Scalar.isFinite c := by
  cases c with
  | number c => rw [restoreCoefficient_number, isFinite_number, isFinite_number]
  | undefined =>
    unfold restoreCoefficient
    split
    · rfl
    · rfl

/-- A restored coefficient weighs the distance from the mean as the coefficient weighs the feature
    in standard units. -/
theorem restoredValue_mul_sub (mean spread c x : ℝ) :
    restoredValue mean spread c * (x - mean) = c * standardValue mean spread x := by
  unfold restoredValue standardValue
  split
  · rfl
  · exact (mul_comm_div c spread (x - mean))

theorem standardizeFeatures_ofVector (means spreads x : Fin n → ℝ) :
    standardizeFeatures (ofVector means) (ofVector spreads) (ofVector x) =
      ofVector fun j => standardValue (means j) (spreads j) (x j) := by
  induction n with
  | zero => rfl
  | succ n ih =>
    rw [ofVector_succ means, ofVector_succ spreads, ofVector_succ x, standardizeFeatures,
      standardizeFeature_number, ih, ofVector_succ]

theorem restoreCoefficients_ofFn (means spreads : Fin n → ℝ) (w : Fin n → Exact) :
    restoreCoefficients (ofVector means) (ofVector spreads) (List.ofFn w) =
      List.ofFn fun j => restoreCoefficient (number (means j)) (number (spreads j)) (w j) := by
  induction n with
  | zero => rfl
  | succ n ih =>
    rw [ofVector_succ means, ofVector_succ spreads, List.ofFn_succ, restoreCoefficients, ih,
      List.ofFn_succ]

theorem restoreCoefficients_ofVector (means spreads w : Fin n → ℝ) :
    restoreCoefficients (ofVector means) (ofVector spreads) (ofVector w) =
      ofVector fun j => restoredValue (means j) (spreads j) (w j) := by
  refine (restoreCoefficients_ofFn means spreads _).trans (congrArg List.ofFn ?_)
  funext j
  exact restoreCoefficient_number _ _ _

theorem restored_dotProduct (means spreads w x : Fin n → ℝ) :
    (fun j => restoredValue (means j) (spreads j) (w j)) ⬝ᵥ x =
      (fun j => restoredValue (means j) (spreads j) (w j)) ⬝ᵥ means +
        w ⬝ᵥ fun j => standardValue (means j) (spreads j) (x j) := by
  rw [← sub_eq_iff_eq_add', ← dotProduct_sub]
  exact Finset.sum_congr rfl fun j _ => restoredValue_mul_sub _ _ _ _

section Rows

variable {scales : Scales Exact} {means spreads : Fin n → ℝ} {mean : ℝ}
  (numeric : scales.Numeric means spreads mean) (centered : Bool)
include numeric

theorem isComplete_standardizeRow {row : Row Exact} (sized : row.features.length = n) :
    (scales.standardizeRow centered row).isComplete = row.isComplete := by
  unfold standardizeRow
  split
  · next complete =>
    obtain ⟨features, response⟩ := Row.eq_sample complete sized
    have known : Scalar.isFinite (row.response - if centered then scales.responseMean else 0) =
        true := by
      rw [response, numeric.responseMean]
      cases centered with
      | true => rfl
      | false => rfl
    rw [complete]
    unfold Row.isComplete
    dsimp only
    rw [known, features, numeric.means, numeric.spreads, standardizeFeatures_ofVector,
      allFinite_ofVector]
    rfl
  · rfl

theorem complete_standardizePartition {part : Partition Exact} (fitting : part.dimension = n) :
    (scales.standardizePartition centered part).complete =
      part.complete.map (scales.standardizeRow centered) := by
  unfold Partition.complete standardizePartition
  dsimp only
  rw [List.filter_map]
  congr 1
  apply List.filter_congr
  intro row inside
  exact isComplete_standardizeRow numeric centered ((part.sized row inside).trans fitting)

end Rows

section Models

variable {scales : Scales Exact} {means spreads : Fin n → ℝ} {mean : ℝ}
  (numeric : scales.Numeric means spreads mean) (centered : Bool) {model : Model Exact}
  {w : Fin n → ℝ} {b : ℝ} (coefficients : model.coefficients = ofVector w)
include numeric coefficients

theorem restored_coefficients : (scales.restored centered model).coefficients =
    ofVector fun j => restoredValue (means j) (spreads j) (w j) := by
  change restoreCoefficients scales.means scales.spreads model.coefficients = _
  rw [numeric.means, numeric.spreads, coefficients, restoreCoefficients_ofVector]

variable (intercept : model.intercept = number b)
include intercept

theorem restored_intercept : (scales.restored centered model).intercept =
    number (b - (fun j => restoredValue (means j) (spreads j) (w j)) ⬝ᵥ means +
      if centered then mean else 0) := by
  have shifted : model.intercept - Vector.dot (restoreCoefficients scales.means scales.spreads
      model.coefficients) scales.means =
      number (b - (fun j => restoredValue (means j) (spreads j) (w j)) ⬝ᵥ means) := by
    rw [numeric.means, numeric.spreads, coefficients, intercept, restoreCoefficients_ofVector,
      dot_ofVector, number_sub]
  unfold restored
  dsimp only
  rw [shifted, numeric.responseMean]
  split
  · exact number_add _ _
  · rw [add_zero]

theorem linear_restored (x : Fin n → ℝ) : ∃ p : ℝ,
    Predict.linear model.coefficients model.intercept
      (standardizeFeatures scales.means scales.spreads (ofVector x)) = .ok (some (number p)) ∧
    Predict.linear (scales.restored centered model).coefficients
      (scales.restored centered model).intercept (ofVector x) =
      .ok (some (number (p + if centered then mean else 0))) := by
  refine ⟨b + w ⬝ᵥ fun j => standardValue (means j) (spreads j) (x j), ?_, ?_⟩
  · rw [numeric.means, numeric.spreads, coefficients, intercept, standardizeFeatures_ofVector,
      Predict.linear_ofVector]
  · rw [restored_coefficients numeric centered coefficients,
      restored_intercept numeric centered coefficients intercept, Predict.linear_ofVector,
      restored_dotProduct means spreads w x]
    congr 3
    ring

theorem residual_restored {row : Row Exact} (complete : row.isComplete = true)
    (sized : row.features.length = n) : ∃ residual : ℝ,
    model.residual (scales.standardizeRow centered row) = .ok (some (number residual)) ∧
    (scales.restored centered model).residual row = .ok (some (number residual)) := by
  obtain ⟨features, response⟩ := Row.eq_sample complete sized
  generalize row.sample n = sample at features response
  obtain ⟨p, standard, own⟩ :=
    linear_restored numeric centered coefficients intercept sample.features
  refine ⟨sample.response - (p + if centered then mean else 0), ?_, ?_⟩
  · have shift : (if centered then scales.responseMean else 0) =
        number (if centered then mean else 0) := by
      rw [numeric.responseMean]
      split
      · rfl
      · rfl
    unfold Model.residual standardizeRow
    rw [if_pos complete]
    dsimp only
    rw [features, standard, response, shift, number_sub]
    change Except.ok (some (number _)) = _
    congr 3
    ring
  · unfold Model.residual
    rw [features, own, response]
    rfl

end Models

theorem finite_restored {scales : Scales Exact} {means spreads : Fin n → ℝ} {mean : ℝ}
    (numeric : scales.Numeric means spreads mean) (centered : Bool) {model : Model Exact}
    (sized : model.coefficients.length = n) :
    (Scalar.allFinite (scales.restored centered model).coefficients &&
      Scalar.isFinite (scales.restored centered model).intercept) =
    (Scalar.allFinite model.coefficients && Scalar.isFinite model.intercept) := by
  cases finite : Scalar.allFinite model.coefficients with
  | true =>
    obtain ⟨w, coefficients⟩ := exists_ofVector finite sized
    rw [restored_coefficients numeric centered coefficients, allFinite_ofVector]
    cases given : model.intercept with
    | number b =>
      rw [restored_intercept numeric centered coefficients given]
      rfl
    | undefined =>
      unfold restored
      dsimp only
      rw [given]
      cases centered with
      | true => rfl
      | false => rfl
  | false =>
    obtain ⟨w, coefficients⟩ := exists_ofFn sized
    have same : Scalar.allFinite (scales.restored centered model).coefficients = false := by
      rw [← finite]
      apply allFinite_congr
      change (restoreCoefficients scales.means scales.spreads model.coefficients).map _ = _
      rw [numeric.means, numeric.spreads, coefficients, restoreCoefficients_ofFn, List.map_ofFn,
        List.map_ofFn]
      congr 1
      funext j
      exact isFinite_restoreCoefficient _ _ _
    rw [same, Bool.false_and, Bool.false_and]

/-- A model brought to the units of a source, and the source brought to standard units: both predict
    alike but for the mean of a centered response, and leave the same of every complete row. -/
structure PredictAlike (source : Source Exact) (centered : Bool) (model restored : Model Exact)
    (normalized : Source Exact) (mean : ℝ) : Prop where
  restores : (measure source).restore centered model = .ok restored
  standardizes : (measure source).standardize centered source = .ok normalized
  responseMean : (measure source).responseMean = number mean
  predictions : ∀ features : List Exact, features.length = source.dimension →
    Scalar.allFinite features = true → ∃ p : ℝ,
      Predict.linear model.coefficients model.intercept
        (standardizeFeatures (measure source).means (measure source).spreads features) =
        .ok (some (number p)) ∧
      Predict.linear restored.coefficients restored.intercept features =
        .ok (some (number (p + if centered then mean else 0)))
  rows : normalized.rows = source.rows.map ((measure source).standardizeRow centered)
  residuals : ∀ row ∈ source.rows, row.isComplete = true → ∃ residual : ℝ,
    model.residual ((measure source).standardizeRow centered row) = .ok (some (number residual)) ∧
    restored.residual row = .ok (some (number residual))

/-- Restoring a model keeps its predictions and its residuals. -/
theorem restore_keeps_predictions (source : Source Exact) (centered : Bool) (model : Model Exact)
    (some : source.completeCount ≠ 0) (fitted : model.status ≠ .empty)
    (sized : model.coefficients.length = source.dimension)
    (finite : Scalar.allFinite model.coefficients = true)
    (finiteIntercept : Scalar.isFinite model.intercept = true) :
    ∃ restored normalized mean, PredictAlike source centered model restored normalized mean := by
  obtain ⟨means, spreads, mean, numeric⟩ := numeric_measure some
  obtain ⟨w, coefficients⟩ := exists_ofVector finite sized
  obtain ⟨b, intercept⟩ := exists_number finiteIntercept
  refine ⟨_, _, mean,
    restore_eq_ok model fitted (sized.trans (length_spreads source).symm) centered,
    standardize_eq_ok (length_means source) centered, numeric.responseMean, ?_, ?_, ?_⟩
  · intro features fitting known
    obtain ⟨x, rfl⟩ := exists_ofVector known fitting
    exact linear_restored numeric centered coefficients intercept x
  · exact rows_standardized _ centered source
  · intro row inside complete
    exact residual_restored numeric centered coefficients intercept complete
      (source.length_features inside)

noncomputable def halfConstant : Source Exact where
  dimension := 2
  partitions := [⟨2, [⟨[1, 5], 2, ""⟩, ⟨[.undefined, 7], 3, ""⟩, ⟨[3, 5], 6, ""⟩], by simp⟩]
  uniform := by simp

theorem halfConstant_predicted_alike : halfConstant.completeCount = 2 ∧
    ∃ restored normalized mean, PredictAlike halfConstant true
      ⟨1, [2, -3], 0, 0, .completed⟩ restored normalized mean := by
  have complete : halfConstant.completeCount = 2 := rfl
  refine ⟨complete, restore_keeps_predictions halfConstant true _ ?_ ?_ rfl rfl rfl⟩
  · rw [complete]
    decide
  · decide

end Scales

end ElasticNet
