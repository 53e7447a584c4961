import ElasticNet.Proofs.Scales.Moments
import ElasticNet.Proofs.Scales.Restore

namespace ElasticNet.Scales

open Exact

variable {n : ℕ}

def IsConstant (mean spread : ℝ) : Prop :=
  isCloseToZero (number spread) (number mean) = true

open Classical in
noncomputable def standardFactor (mean spread : ℝ) : ℝ :=
  if IsConstant mean spread then 1 else spread⁻¹

theorem standardFactor_of_constant {mean spread : ℝ} (constant : IsConstant mean spread) :
    standardFactor mean spread = 1 :=
  if_pos constant

theorem standardFactor_of_varying {mean spread : ℝ} (varies : ¬IsConstant mean spread) :
    standardFactor mean spread = spread⁻¹ :=
  if_neg varies

theorem standardFactor_pos {mean spread : ℝ} (nonnegative : 0 ≤ spread) :
    0 < standardFactor mean spread := by
  by_cases constant : IsConstant mean spread
  · rw [standardFactor_of_constant constant]
    exact one_pos
  · rw [standardFactor_of_varying constant]
    exact inv_pos.mpr (lt_of_le_of_ne nonnegative (spread_ne_zero constant).symm)

theorem standardValue_eq (mean spread x : ℝ) : standardValue mean spread x =
    standardFactor mean spread * x + -(standardFactor mean spread * mean) := by
  have factored : standardValue mean spread x = standardFactor mean spread * (x - mean) := by
    by_cases constant : IsConstant mean spread
    · rw [standardFactor_of_constant constant, one_mul]
      exact if_pos constant
    · rw [standardFactor_of_varying constant, inv_mul_eq_div]
      exact if_neg constant
  rw [factored]
  ring

theorem standardFactor_mul_spread (mean spread : ℝ) :
    (IsConstant mean spread → standardFactor mean spread * spread = spread) ∧
      (¬IsConstant mean spread → standardFactor mean spread * spread = 1) := by
  constructor
  · intro constant
    rw [standardFactor_of_constant constant, one_mul]
  · intro varies
    rw [standardFactor_of_varying varies, inv_mul_cancel₀ (spread_ne_zero varies)]

theorem spread_le_one {mean spread : ℝ} (constant : IsConstant mean spread)
    (moderate : |mean| ≤ 1e6) : spread ≤ 1 := by
  have small := (isCloseToZero_number spread mean).mp constant
  have bound : max 1 |mean| ≤ 1e6 := max_le (by norm_num) moderate
  have product : (1e-6 : ℝ) * max 1 |mean| ≤ 1 := by
    calc (1e-6 : ℝ) * max 1 |mean| ≤ 1e-6 * 1e6 := by gcongr
      _ = 1 := by norm_num
  exact (le_abs_self spread).trans (small.trans product)

noncomputable def standardSample (means spreads : Fin n → ℝ) (shift : ℝ) (s : Sample n) :
    Sample n where
  features j := standardValue (means j) (spreads j) (s.features j)
  response := s.response - shift

theorem sample_standardizeRow {scales : Scales Exact} {means spreads : Fin n → ℝ} {mean : ℝ}
    (numeric : scales.Numeric means spreads mean) (center : Bool) {row : Row Exact}
    (complete : row.isComplete = true) (sized : row.features.length = n) :
    (scales.standardizeRow center row).sample n =
      standardSample means spreads (if center then mean else 0) (row.sample n) := by
  obtain ⟨features, response⟩ := Row.eq_sample complete sized
  unfold standardizeRow
  rw [if_pos complete]
  apply Row.sample_eq
  · dsimp only
    rw [features, numeric.means, numeric.spreads, standardizeFeatures_ofVector]
  · dsimp only
    rw [response, numeric.responseMean]
    cases center with
    | true => rfl
    | false => rfl

section Measured

variable {source : Source Exact} {scales : Scales Exact}
  {means spreads : Fin source.dimension → ℝ} {mean : ℝ}
  (numeric : scales.Numeric means spreads mean) (center : Bool)
include numeric

theorem complete_rows_standardized :
    (scales.standardized center source).rows.filter Row.isComplete =
      (source.rows.filter Row.isComplete).map (scales.standardizeRow center) := by
  rw [rows_standardized, List.filter_map]
  congr 1
  exact List.filter_congr fun row inside =>
    isComplete_standardizeRow numeric center (source.length_features inside)

theorem completeCount_standardized :
    (scales.standardized center source).completeCount = source.completeCount := by
  unfold Source.completeCount
  rw [complete_rows_standardized numeric, List.length_map]

theorem incompleteCount_standardized :
    (scales.standardized center source).incompleteCount = source.incompleteCount := by
  have counts := source.completeCount_add_incompleteCount
  have after := (scales.standardized center source).completeCount_add_incompleteCount
  have rows : (scales.standardized center source).rowCount = source.rowCount := by
    unfold Source.rowCount
    rw [rows_standardized, List.length_map]
  rw [completeCount_standardized numeric, rows] at after
  omega

theorem samples_standardized : (scales.standardized center source).samples =
    source.samples.map (standardSample means spreads (if center then mean else 0)) := by
  unfold Source.samples
  rw [complete_rows_standardized numeric, List.map_map, List.map_map]
  apply List.map_congr_left
  intro row member
  obtain ⟨inside, complete⟩ := List.mem_filter.mp member
  exact sample_standardizeRow numeric center complete (source.length_features inside)

variable (some : source.samples ≠ [])
include some

theorem samples_standardized_ne_nil : (scales.standardized center source).samples ≠ [] :=
  fun none => some (List.map_eq_nil_iff.mp ((samples_standardized numeric center).symm.trans none))

theorem ofSamples_standardized : (measure (scales.standardized center source)).OfSamples
    (source.samples.map (standardSample means spreads (if center then mean else 0))) :=
  samples_standardized numeric center ▸
    ofSamples_measure (samples_standardized_ne_nil numeric center some)

theorem momentsOf_standardized : (measure (scales.standardized center source)).MomentsOf
    (source.samples.map (standardSample means spreads (if center then mean else 0))) :=
  samples_standardized numeric center ▸
    momentsOf_measure (samples_standardized_ne_nil numeric center some)

end Measured

section Averages

variable {samples : List (Sample n)} (some : samples ≠ []) (spreads : Fin n → ℝ) (shift : ℝ)
  (j : Fin n)
include some

theorem average_standardSample : average
    (samples.map (standardSample (fun j => average samples fun s => s.features j) spreads shift))
    (fun s => s.features j) = 0 := by
  rw [average_map]
  unfold standardSample
  simp only [standardValue_eq]
  rw [average_affine _ some]
  ring

theorem deviation_standardSample (means : Fin n → ℝ) (nonnegative : 0 ≤ spreads j) : deviation
    (samples.map (standardSample means spreads shift)) (fun s => s.features j) =
      standardFactor (means j) (spreads j) * deviation samples fun s => s.features j := by
  rw [deviation_map]
  unfold standardSample
  simp only [standardValue_eq]
  exact deviation_affine _ some (standardFactor_pos nonnegative) _

omit j in
theorem average_response_standardSample (means : Fin n → ℝ) : average
    (samples.map (standardSample means spreads shift)) Sample.response =
      average samples Sample.response - shift := by
  have moved := average_affine Sample.response some 1 (-shift)
  simp only [one_mul, ← sub_eq_add_neg] at moved
  rw [average_map]
  exact moved

omit j in
theorem deviation_response_standardSample (means : Fin n → ℝ) : deviation
    (samples.map (standardSample means spreads shift)) Sample.response =
      deviation samples Sample.response := by
  have moved := deviation_affine Sample.response some one_pos (-shift)
  simp only [one_mul, ← sub_eq_add_neg] at moved
  rw [deviation_map]
  exact moved

end Averages

/-- A row of a group with values or without, as it was before if it has a missing value. -/
structure KeptRow (row other : Row Exact) : Prop where
  group : other.group = row.group
  complete : other.isComplete = row.isComplete
  unchanged : row.isComplete = false → other = row

structure KeptPartition (part other : Partition Exact) : Prop where
  dimension : other.dimension = part.dimension
  rows : List.Forall₂ KeptRow part.rows other.rows

/-- The spread and the mean square of a feature in standard units, of which mean and spread were
    other ones before. -/
structure StandardFeature (mean spread standardSpread meanSquare : ℝ) : Prop where
  constant : IsConstant mean spread → standardSpread = spread
  varying : ¬IsConstant mean spread → standardSpread = 1 ∧ meanSquare = 1
  bounded : |mean| ≤ 1e6 → meanSquare ≤ 1

structure Standardizes (source : Source Exact) (scales : Scales Exact) (center : Bool)
    (normalized : Source Exact) (after : Scales Exact) : Prop where
  dimension : normalized.dimension = source.dimension
  partitions : List.Forall₂ KeptPartition source.partitions normalized.partitions
  complete : after.complete = scales.complete
  incomplete : after.incomplete = scales.incomplete
  means : after.means = Vector.zeros source.dimension
  features : ∃ means spreads standardSpreads meanSquares : Fin source.dimension → ℝ,
    scales.means = ofVector means ∧ scales.spreads = ofVector spreads ∧
    after.spreads = ofVector standardSpreads ∧ after.meanSquares = ofVector meanSquares ∧
    ∀ j, StandardFeature (means j) (spreads j) (standardSpreads j) (meanSquares j)
  responseMean : after.responseMean = if center then 0 else scales.responseMean
  responseSpread : after.responseSpread = scales.responseSpread

theorem keptRow_standardizeRow {scales : Scales Exact} {means spreads : Fin n → ℝ} {mean : ℝ}
    (numeric : scales.Numeric means spreads mean) (center : Bool) {row : Row Exact}
    (sized : row.features.length = n) : KeptRow row (scales.standardizeRow center row) := by
  refine ⟨?_, isComplete_standardizeRow numeric center sized, ?_⟩
  · unfold standardizeRow
    split
    · rfl
    · rfl
  · intro missing
    unfold standardizeRow
    rw [missing]
    rfl

theorem keptPartitions_standardized {source : Source Exact} {scales : Scales Exact}
    {means spreads : Fin source.dimension → ℝ} {mean : ℝ}
    (numeric : scales.Numeric means spreads mean) (center : Bool) :
    List.Forall₂ KeptPartition source.partitions
      (scales.standardized center source).partitions := by
  refine List.forall₂_map_right_iff.mpr (List.forall₂_same.mpr ?_)
  intro part inside
  refine ⟨rfl, List.forall₂_map_right_iff.mpr (List.forall₂_same.mpr ?_)⟩
  intro row member
  exact keptRow_standardizeRow numeric center
    ((part.sized row member).trans (source.uniform part inside))

theorem standardizes_measure {source : Source Exact} (some : source.samples ≠ []) (center : Bool) :
    Standardizes source (measure source) center ((measure source).standardized center source)
      (measure ((measure source).standardized center source)) := by
  obtain ⟨means, spreads, responseMean, responseSpread⟩ := ofSamples_measure some
  have numeric : (measure source).Numeric _ _ _ := ⟨means, spreads, responseMean⟩
  have after := ofSamples_standardized numeric center some
  have moments := momentsOf_standardized numeric center some
  have filled : source.samples.map (standardSample (fun j => average source.samples fun s =>
      s.features j) (fun j => deviation source.samples fun s => s.features j)
      (if center then average source.samples Sample.response else 0)) ≠ [] :=
    fun none => some (List.map_eq_nil_iff.mp none)
  refine ⟨rfl, keptPartitions_standardized numeric center, ?_, ?_, ?_, ?_, ?_, ?_⟩
  · rw [complete_measure, complete_measure, completeCount_standardized numeric]
  · rw [incomplete_measure, incomplete_measure, incompleteCount_standardized numeric]
  · rw [after.means, zeros_eq]
    exact congrArg ofVector (funext fun j => average_standardSample some _ _ j)
  · refine ⟨_, _, _, _, means, spreads, after.spreads, moments.meanSquares, fun j => ?_⟩
    have factor := standardFactor_mul_spread (average source.samples fun s => s.features j)
      (deviation source.samples fun s => s.features j)
    rw [average_sq filled, average_standardSample some, deviation_standardSample some _ _ _ _
      (deviation_nonneg _ _)]
    refine ⟨factor.1, fun varies => ?_, fun moderate => ?_⟩
    · rw [factor.2 varies]
      norm_num
    · by_cases constant : IsConstant (average source.samples fun s => s.features j)
        (deviation source.samples fun s => s.features j)
      · rw [factor.1 constant]
        have below := spread_le_one constant moderate
        have above := deviation_nonneg source.samples fun s => s.features j
        nlinarith only [below, above]
      · rw [factor.2 constant]
        norm_num
  · rw [after.responseMean, average_response_standardSample some, responseMean]
    cases center with
    | true => exact congrArg number (sub_self _)
    | false => exact congrArg number (sub_zero _)
  · rw [after.responseSpread, deviation_response_standardSample some, responseSpread]

/-- A source that has scales and a complete row comes to standard units, and these are standard. -/
theorem standardize_standardizes {source : Source Exact} {scales : Scales Exact} (center : Bool)
    (measured : ofSource source = .ok scales) (some : source.completeCount ≠ 0) :
    ∃ normalized after, scales.standardize center source = .ok normalized ∧
      ofSource normalized = .ok after ∧ Standardizes source scales center normalized after := by
  obtain ⟨featured, few, rfl⟩ := ofSource_eq_ok measured
  exact ⟨_, _, standardize_eq_ok (length_means source) center, ofSource_of_featured featured few,
    standardizes_measure (source.samples_ne_nil some) center⟩

theorem standardize_standardizes_splitConstant : ∃ scales,
    ofSource splitConstant = .ok scales ∧ splitConstant.completeCount = 2 ∧
    ∃ normalized after, scales.standardize true splitConstant = .ok normalized ∧
      ofSource normalized = .ok after ∧
      Standardizes splitConstant scales true normalized after := by
  have measured : ofSource splitConstant = .ok (measure splitConstant) :=
    ofSource_of_featured (by decide) (by decide)
  have complete : splitConstant.completeCount = 2 := rfl
  refine ⟨_, measured, complete, standardize_standardizes true measured ?_⟩
  rw [complete]
  decide

end ElasticNet.Scales
