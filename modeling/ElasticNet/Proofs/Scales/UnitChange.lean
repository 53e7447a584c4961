import ElasticNet.Proofs.Scales.Restore

namespace ElasticNet

open Exact Matrix

/-- Other units: every feature has a factor and an offset, and the response is shifted. -/
structure UnitChange where
  factor : ℕ → ℝ
  offset : ℕ → ℝ
  shift : ℝ
  positive : ∀ j, 0 < factor j

/-- No feature counts as constant. -/
def Scales.Varies {α : Type} [Scalar α] (scales : Scales α) : Prop :=
  ∀ scale ∈ scales.spreads.zip scales.means, isCloseToZero scale.1 scale.2 = false

namespace UnitChange

variable (change : UnitChange) {n : ℕ}

noncomputable def features (xs : List Exact) : List Exact :=
  xs.mapIdx fun j x => number (change.factor j) * x + number (change.offset j)

noncomputable def row (row : Row Exact) : Row Exact :=
  { row with
    features := change.features row.features
    response := row.response + number change.shift }

theorem length_features (xs : List Exact) : (change.features xs).length = xs.length :=
  List.length_mapIdx

noncomputable def partition (part : Partition Exact) : Partition Exact where
  dimension := part.dimension
  rows := part.rows.map change.row
  sized := by
    intro row member
    obtain ⟨before, inside, rfl⟩ := List.mem_map.mp member
    exact (change.length_features before.features).trans (part.sized before inside)

noncomputable def source (source : Source Exact) : Source Exact where
  dimension := source.dimension
  partitions := source.partitions.map change.partition
  uniform := by
    intro part member
    obtain ⟨before, inside, rfl⟩ := List.mem_map.mp member
    exact source.uniform before inside

theorem rows_source (source : Source Exact) :
    (change.source source).rows = source.rows.map change.row := by
  unfold Source.rows
  rw [List.map_flatMap]
  exact List.flatMap_map _ _ _

theorem allFinite_features (xs : List Exact) :
    Scalar.allFinite (change.features xs) = Scalar.allFinite xs := by
  apply allFinite_congr
  unfold features
  apply List.ext_getElem
  · rw [List.length_map, List.length_map, List.length_mapIdx]
  · intro j _ other
    have inside : j < xs.length := by rwa [List.length_map] at other
    rw [List.getElem_map, List.getElem_map, List.getElem_mapIdx]
    cases xs[j] with
    | number x => rfl
    | undefined => rfl

theorem isComplete_row (row : Row Exact) : (change.row row).isComplete = row.isComplete := by
  have response : Scalar.isFinite (row.response + number change.shift) =
      Scalar.isFinite row.response := by
    cases row.response with
    | number y => rfl
    | undefined => rfl
  change (Scalar.allFinite (change.features row.features) &&
    Scalar.isFinite (row.response + number change.shift)) = _
  rw [change.allFinite_features, response]
  rfl

theorem isComplete_comp_row : Row.isComplete ∘ change.row = Row.isComplete :=
  funext change.isComplete_row

theorem complete_partition (part : Partition Exact) :
    (change.partition part).complete = part.complete.map change.row := by
  unfold Partition.complete partition
  rw [List.filter_map, change.isComplete_comp_row]

def point (x : Fin n → ℝ) : Fin n → ℝ :=
  fun j => change.factor j * x j + change.offset j

theorem features_ofVector (x : Fin n → ℝ) :
    change.features (ofVector x) = ofVector (change.point x) := by
  unfold features ofVector
  apply List.ext_getElem
  · rw [List.length_mapIdx, List.length_ofFn, List.length_ofFn]
  · intro j inside other
    rw [List.getElem_mapIdx, List.getElem_ofFn, List.getElem_ofFn]
    rfl

def sample (s : Sample n) : Sample n where
  features := change.point s.features
  response := s.response + change.shift

theorem sample_row {row : Row Exact} (complete : row.isComplete = true)
    (sized : row.features.length = n) :
    (change.row row).sample n = change.sample (row.sample n) := by
  obtain ⟨features, response⟩ := Row.eq_sample complete sized
  apply Row.sample_eq
  · change change.features row.features = _
    rw [features, change.features_ofVector]
  · change row.response + number change.shift = _
    rw [response, number_add]

theorem samples_source (source : Source Exact) :
    (change.source source).samples = source.samples.map change.sample := by
  unfold Source.samples
  rw [change.rows_source, List.filter_map, change.isComplete_comp_row, List.map_map, List.map_map]
  apply List.map_congr_left
  intro row member
  obtain ⟨inside, complete⟩ := List.mem_filter.mp member
  exact change.sample_row complete (source.length_features inside)

open Scales

structure Relates (change : UnitChange) (scales other : Scales Exact) (means spreads : Fin n → ℝ)
    (mean : ℝ) : Prop where
  numeric : scales.Numeric means spreads mean
  otherNumeric : other.Numeric (change.point means)
    (fun j : Fin n => change.factor j * spreads j) (mean + change.shift)
  varies : ∀ j, ¬isCloseToZero (number (spreads j)) (number (means j)) = true
  otherVaries : ∀ j : Fin n, ¬isCloseToZero (number (change.factor j * spreads j))
    (number (change.point means j)) = true

theorem varies_iff {scales : Scales Exact} {means spreads : Fin n → ℝ} {mean : ℝ}
    (numeric : scales.Numeric means spreads mean) : scales.Varies ↔
      ∀ j, ¬isCloseToZero (number (spreads j)) (number (means j)) = true := by
  have paired : (ofVector spreads).zip (ofVector means) =
      List.ofFn fun j => (number (spreads j), number (means j)) := by
    apply List.ext_getElem
    · rw [List.length_zip, length_ofVector, length_ofVector, List.length_ofFn, Nat.min_self]
    · intro i inside other
      simp only [ofVector, List.getElem_zip, List.getElem_ofFn]
  unfold Varies
  rw [numeric.spreads, numeric.means, paired, List.forall_mem_ofFn_iff]
  simp only [Bool.not_eq_true]

section Measured

variable {source : Source Exact} (some : source.samples ≠ [])
include some

theorem ofSamples_source :
    (measure (change.source source)).OfSamples (source.samples.map change.sample) := by
  have same := change.samples_source source
  have otherSome : (change.source source).samples ≠ [] :=
    fun none => some (List.map_eq_nil_iff.mp (same.symm.trans none))
  exact same ▸ ofSamples_measure otherSome

theorem numeric_source : (measure (change.source source)).Numeric
    (change.point fun j => average source.samples fun s => s.features j)
    (fun j : Fin source.dimension => change.factor j *
      deviation source.samples fun s => s.features j)
    (average source.samples Sample.response + change.shift) := by
  obtain ⟨means, spreads, responseMean, _⟩ := change.ofSamples_source some
  refine ⟨means.trans (congrArg ofVector ?_), spreads.trans (congrArg ofVector ?_),
    responseMean.trans (congrArg number ?_)⟩
  · funext j
    rw [average_map]
    exact average_affine _ some _ _
  · funext j
    rw [deviation_map]
    exact deviation_affine _ some (change.positive j) _
  · rw [average_map]
    refine (average_add _ _ _).trans ?_
    rw [average_const some]

theorem relates_measure (varies : (measure source).Varies)
    (otherVaries : (measure (change.source source)).Varies) :
    ∃ (means spreads : Fin source.dimension → ℝ) (mean : ℝ),
      change.Relates (measure source) (measure (change.source source)) means spreads mean := by
  obtain ⟨means, spreads, responseMean, _⟩ := ofSamples_measure some
  have numeric : (measure source).Numeric _ _ _ := ⟨means, spreads, responseMean⟩
  have otherNumeric := change.numeric_source some
  exact ⟨_, _, _, numeric, otherNumeric, (varies_iff numeric).mp varies,
    (varies_iff otherNumeric).mp otherVaries⟩

theorem responseSpread_source :
    (measure (change.source source)).responseSpread = (measure source).responseSpread := by
  rw [(ofSamples_measure some).responseSpread, (change.ofSamples_source some).responseSpread,
    deviation_map]
  have shifted := deviation_affine Sample.response some one_pos change.shift
  simp only [one_mul] at shifted
  exact congrArg number shifted

end Measured

section Related

variable {change} {scales other : Scales Exact} {means spreads : Fin n → ℝ} {mean : ℝ}
  (relates : change.Relates scales other means spreads mean)
include relates

theorem Relates.standardizeFeatures_point (x : Fin n → ℝ) :
    standardizeFeatures other.means other.spreads (ofVector (change.point x)) =
      standardizeFeatures scales.means scales.spreads (ofVector x) := by
  rw [relates.otherNumeric.means, relates.otherNumeric.spreads, relates.numeric.means,
    relates.numeric.spreads, standardizeFeatures_ofVector, standardizeFeatures_ofVector]
  congr 1
  funext j
  have nonzero : change.factor j ≠ 0 := ne_of_gt (change.positive j)
  unfold standardValue
  rw [if_neg (relates.otherVaries j), if_neg (relates.varies j)]
  unfold point
  rw [add_sub_add_right_eq_sub, ← mul_sub, mul_div_mul_left _ _ nonzero]

variable {centered : Bool} (kept : centered = false → change.shift = 0)
include kept

theorem Relates.standardizeRow_row {row : Row Exact} (complete : row.isComplete = true)
    (sized : row.features.length = n) :
    other.standardizeRow centered (change.row row) = scales.standardizeRow centered row := by
  obtain ⟨features, response⟩ := Row.eq_sample complete sized
  have shifts : row.response + number change.shift - (if centered then other.responseMean else 0) =
      row.response - if centered then scales.responseMean else 0 := by
    rw [response, relates.otherNumeric.responseMean, relates.numeric.responseMean]
    cases centered with
    | true =>
      simp only [if_true, number_add, number_sub, add_sub_add_right_eq_sub]
    | false =>
      rw [kept rfl]
      simp only [Bool.false_eq_true, if_false, number_add, add_zero]
  have points : standardizeFeatures other.means other.spreads (change.features row.features) =
      standardizeFeatures scales.means scales.spreads row.features := by
    rw [features, change.features_ofVector, relates.standardizeFeatures_point]
  unfold standardizeRow
  rw [if_pos complete, if_pos ((change.isComplete_row row).trans complete)]
  dsimp only [UnitChange.row]
  rw [points, shifts]

theorem Relates.complete_standardized {source : Source Exact} (fitting : source.dimension = n) :
    (other.standardized centered (change.source source)).partitions.map Partition.complete =
      (scales.standardized centered source).partitions.map Partition.complete := by
  change ((source.partitions.map change.partition).map
      (other.standardizePartition centered)).map Partition.complete =
    (source.partitions.map (scales.standardizePartition centered)).map Partition.complete
  rw [List.map_map, List.map_map, List.map_map]
  apply List.map_congr_left
  intro part inside
  have sized : part.dimension = n := (source.uniform part inside).trans fitting
  have otherSized : (change.partition part).dimension = n := sized
  change (other.standardizePartition centered (change.partition part)).complete =
    (scales.standardizePartition centered part).complete
  rw [complete_standardizePartition relates.otherNumeric centered otherSized,
    complete_standardizePartition relates.numeric centered sized, change.complete_partition,
    List.map_map]
  apply List.map_congr_left
  intro row member
  exact relates.standardizeRow_row kept (List.mem_filter.mp member).2
    ((part.sized row (List.mem_filter.mp member).1).trans sized)

end Related

/-- Coefficients in other units weigh features as they did before, and a model of them predicts the
    same in either units but for the shift of the response. If the response is not shifted, the
    classes are the same. -/
structure CarriesModel (change : UnitChange) (model other : Model Exact) : Prop where
  logLikelihood : other.logLikelihood = model.logLikelihood
  coefficients : other.coefficients =
    model.coefficients.mapIdx fun j c => c / number (change.factor j)
  predictions : ∀ features,
    Predict.linear other.coefficients other.intercept (change.features features) =
      (Predict.linear model.coefficients model.intercept features).map
        (Option.map (· + number change.shift))
  classes : change.shift = 0 → ∀ features,
    Predict.binomial other.coefficients other.intercept (change.features features) =
      Predict.binomial model.coefficients model.intercept features
  probabilities : change.shift = 0 → ∀ features,
    Predict.probability other.coefficients other.intercept (change.features features) =
      Predict.probability model.coefficients model.intercept features

section Restored

variable {change} {scales other : Scales Exact} {means spreads : Fin n → ℝ} {mean : ℝ}
  (relates : change.Relates scales other means spreads mean)
include relates

theorem Relates.restoreCoefficient_eq (j : Fin n) (c : Exact) :
    restoreCoefficient (number (change.point means j)) (number (change.factor j * spreads j)) c =
      restoreCoefficient (number (means j)) (number (spreads j)) c / number (change.factor j) := by
  have nonzero : change.factor j ≠ 0 := ne_of_gt (change.positive j)
  unfold restoreCoefficient
  rw [if_neg (relates.otherVaries j), if_neg (relates.varies j)]
  cases c with
  | number c =>
    rw [number_div _ (spread_ne_zero (relates.otherVaries j)),
      number_div _ (spread_ne_zero (relates.varies j)), number_div _ nonzero, div_div,
      mul_comm (spreads j)]
  | undefined => rfl

variable (centered : Bool) {model : Model Exact} (sized : model.coefficients.length = n)
include sized

theorem Relates.restored_coefficients : (other.restored centered model).coefficients =
    (scales.restored centered model).coefficients.mapIdx
      fun j c => c / number (change.factor j) := by
  obtain ⟨w, coefficients⟩ := exists_ofFn sized
  change restoreCoefficients other.means other.spreads model.coefficients =
    (restoreCoefficients scales.means scales.spreads model.coefficients).mapIdx _
  rw [relates.otherNumeric.means, relates.otherNumeric.spreads, relates.numeric.means,
    relates.numeric.spreads, coefficients, restoreCoefficients_ofFn, restoreCoefficients_ofFn]
  apply List.ext_getElem
  · rw [List.length_mapIdx, List.length_ofFn, List.length_ofFn]
  · intro j inside _
    rw [List.getElem_mapIdx, List.getElem_ofFn, List.getElem_ofFn]
    exact relates.restoreCoefficient_eq _ _

variable (kept : centered = false → change.shift = 0)
include kept

theorem Relates.linear_restored (features : List Exact) :
    Predict.linear (other.restored centered model).coefficients
      (other.restored centered model).intercept (change.features features) =
    (Predict.linear (scales.restored centered model).coefficients
      (scales.restored centered model).intercept features).map
        (Option.map (· + number change.shift)) := by
  have finite := finite_restored relates.numeric centered sized
  have length : (scales.restored centered model).coefficients.length = n := by
    obtain ⟨w, coefficients⟩ := exists_ofFn sized
    change (restoreCoefficients scales.means scales.spreads model.coefficients).length = n
    rw [relates.numeric.means, relates.numeric.spreads, coefficients, restoreCoefficients_ofFn,
      List.length_ofFn]
  refine Predict.linear_carried ((finite_restored relates.otherNumeric centered sized).trans
    finite.symm) ?_ (change.length_features features) (change.allFinite_features features) ?_
  · rw [relates.restored_coefficients centered sized, List.length_mapIdx]
  · intro sound fitting known
    rw [finite, Bool.and_eq_true] at sound
    obtain ⟨w, coefficients⟩ := exists_ofVector sound.1 sized
    obtain ⟨b, intercept⟩ := exists_number sound.2
    obtain ⟨x, rfl⟩ := exists_ofVector known (fitting.symm.trans length)
    obtain ⟨p, standard, own⟩ :=
      Scales.linear_restored relates.numeric centered coefficients intercept x
    obtain ⟨q, otherStandard, carried⟩ := Scales.linear_restored relates.otherNumeric centered
      coefficients intercept (change.point x)
    -- in standard units both predict for the same point
    rw [relates.standardizeFeatures_point, standard] at otherStandard
    cases otherStandard
    rw [change.features_ofVector, own, carried]
    refine congrArg (fun r => Except.ok (some (number r))) ?_
    cases centered with
    | true => exact (add_assoc _ _ _).symm
    | false =>
      rw [kept rfl]
      exact (add_zero _).symm

theorem Relates.carries_restored : change.CarriesModel (scales.restored centered model)
    (other.restored centered model) := by
  have predictions := relates.linear_restored centered sized kept
  have unshifted (none : change.shift = 0) (features : List Exact) :
      Predict.linear (other.restored centered model).coefficients
        (other.restored centered model).intercept (change.features features) =
      Predict.linear (scales.restored centered model).coefficients
        (scales.restored centered model).intercept features := by
    rw [predictions, none, ← zero_eq]
    cases Predict.linear (scales.restored centered model).coefficients
      (scales.restored centered model).intercept features with
    | error error => rfl
    | ok given =>
      cases given with
      | none => rfl
      | some value => exact congrArg (fun r => Except.ok (some r)) (Exact.add_zero value)
  refine ⟨rfl, relates.restored_coefficients centered sized, predictions, ?_, ?_⟩
  · intro none features
    unfold Predict.binomial
    rw [unshifted none]
  · intro none features
    unfold Predict.probability
    rw [unshifted none]

end Restored

end UnitChange

end ElasticNet
