import ElasticNet.Proofs.Exact.Samples
import ElasticNet.Proofs.Scales.Measure

namespace ElasticNet

open Exact

variable {n : ℕ}

theorem Source.length_samples (source : Source Exact) :
    source.samples.length = source.completeCount :=
  List.length_map _

theorem Source.samples_ne_nil {source : Source Exact} (some : source.completeCount ≠ 0) :
    source.samples ≠ [] := by
  intro none
  rw [← source.length_samples, none] at some
  exact some rfl

noncomputable def RowSums.ofSamples (incomplete : ℕ) (samples : List (Sample n)) :
    RowSums Exact where
  complete := samples.length
  incomplete := incomplete
  features := ofVector (samples.map Sample.features).sum
  squares := ofVector (samples.map fun s => s.features * s.features).sum
  response := number (samples.map Sample.response).sum
  responseSquares := number (samples.map fun s => s.response * s.response).sum

namespace RowSums

theorem zero_eq_ofSamples (n : ℕ) : zero n = ofSamples 0 ([] : List (Sample n)) := by
  unfold zero ofSamples
  rw [zeros_eq]
  rfl

variable (incomplete : ℕ) (samples : List (Sample n))

theorem addRow_ofSamples {row : Row Exact} (complete : row.isComplete = true)
    (sized : row.features.length = n) :
    (ofSamples incomplete samples).addRow row =
      ofSamples incomplete (samples ++ [row.sample n]) := by
  obtain ⟨features, response⟩ := Row.eq_sample complete sized
  have squares : (row.features.map fun x => x * x) =
      ofVector ((row.sample n).features * (row.sample n).features) := by
    rw [features]
    exact map_ofVector (fun x => x * x) (fun r => r * r) (fun r => number_mul r r) _
  unfold addRow
  rw [if_pos complete, squares, features, response]
  unfold ofSamples
  simp only [add_ofVector, number_mul, number_add, List.map_append, List.map_singleton,
    List.sum_append, List.sum_singleton, List.length_append, List.length_singleton]

theorem merge_ofSamples (more : ℕ) (others : List (Sample n)) :
    (ofSamples incomplete samples).merge (ofSamples more others) =
      ofSamples (incomplete + more) (samples ++ others) := by
  unfold merge
  dsimp only
  split
  · next none =>
    cases List.eq_nil_of_length_eq_zero none
    rw [List.append_nil]
    rfl
  · unfold ofSamples
    simp only [add_ofVector, number_add, List.map_append, List.sum_append, List.length_append]

theorem ofSource_eq_ofSamples (source : Source Exact) :
    ofSource source = ofSamples source.incompleteCount source.samples := by
  refine ofSource_induction (fun rows sums => sums =
    ofSamples (rows.filter fun row => !row.isComplete).length
      ((rows.filter Row.isComplete).map (Row.sample source.dimension))) source
    (zero_eq_ofSamples _) ?_ ?_
  · rintro rows _ row sized rfl
    rw [List.filter_append, List.filter_append, List.filter_singleton, List.filter_singleton]
    cases complete : row.isComplete with
    | true =>
      rw [addRow_ofSamples _ _ complete sized]
      simp only [Bool.not_true, cond_true, cond_false, List.append_nil, List.map_append,
        List.map_singleton]
    | false =>
      unfold addRow
      rw [complete]
      simp only [Bool.not_false, cond_true, cond_false, List.append_nil, List.length_append,
        List.length_singleton]
      rfl
  · rintro rows more _ _ rfl rfl
    rw [merge_ofSamples, List.filter_append, List.filter_append, List.length_append,
      List.map_append]

theorem ofSamples_perm {samples others : List (Sample n)} (perm : samples.Perm others) :
    ofSamples incomplete samples = ofSamples incomplete others := by
  unfold ofSamples
  rw [perm.length_eq, (perm.map _).sum_eq, (perm.map _).sum_eq, (perm.map _).sum_eq,
    (perm.map _).sum_eq]

end RowSums

noncomputable def average (samples : List (Sample n)) (read : Sample n → ℝ) : ℝ :=
  (samples.map read).sum / samples.length

noncomputable def deviation (samples : List (Sample n)) (read : Sample n → ℝ) : ℝ :=
  Real.sqrt (max 0 (average samples (fun s => read s * read s) -
    average samples read * average samples read))

section Affine

variable (samples : List (Sample n)) (read : Sample n → ℝ)

theorem average_map (change : Sample n → Sample n) :
    average (samples.map change) read = average samples fun s => read (change s) := by
  unfold average
  rw [List.map_map, List.length_map]
  rfl

theorem deviation_map (change : Sample n → Sample n) :
    deviation (samples.map change) read = deviation samples fun s => read (change s) := by
  unfold deviation
  rw [average_map, average_map]

theorem average_add (other : Sample n → ℝ) :
    average samples (fun s => read s + other s) = average samples read + average samples other := by
  unfold average
  rw [List.sum_map_add, add_div]

theorem average_mul_left (factor : ℝ) :
    average samples (fun s => factor * read s) = factor * average samples read := by
  unfold average
  rw [List.sum_map_mul_left, mul_div_assoc]

variable {samples} (some : samples ≠ [])
include some

theorem average_const (value : ℝ) : average samples (fun _ => value) = value := by
  have filled : (samples.length : ℝ) ≠ 0 :=
    Nat.cast_ne_zero.mpr (mt List.eq_nil_of_length_eq_zero some)
  unfold average
  rw [List.map_const', List.sum_replicate, nsmul_eq_mul, mul_div_cancel_left₀ _ filled]

theorem average_affine (factor offset : ℝ) :
    average samples (fun s => factor * read s + offset) =
      factor * average samples read + offset := by
  rw [average_add, average_mul_left, average_const some]

theorem deviation_affine {factor : ℝ} (positive : 0 < factor) (offset : ℝ) :
    deviation samples (fun s => factor * read s + offset) = factor * deviation samples read := by
  have squares : (fun s => (factor * read s + offset) * (factor * read s + offset)) = fun s =>
      factor * factor * (read s * read s) + (2 * factor * offset * read s + offset * offset) := by
    funext s
    ring
  have variance : average samples (fun s =>
        (factor * read s + offset) * (factor * read s + offset)) -
      average samples (fun s => factor * read s + offset) *
        average samples (fun s => factor * read s + offset) =
      factor * factor * (average samples (fun s => read s * read s) -
        average samples read * average samples read) := by
    rw [squares, average_add, average_mul_left, average_affine read some,
      average_affine read some]
    ring
  have square : 0 ≤ factor * factor := mul_self_nonneg factor
  unfold deviation
  rw [variance, ← mul_zero (factor * factor), ← mul_max_of_nonneg _ _ square, Real.sqrt_mul square,
    Real.sqrt_mul_self (le_of_lt positive), mul_zero]

end Affine

theorem sum_features_apply (samples : List (Sample n)) (read : Sample n → Fin n → ℝ) (j : Fin n) :
    (samples.map read).sum j = (samples.map fun s => read s j).sum := by
  induction samples with
  | nil => rfl
  | cons s rest ih => rw [List.map_cons, List.map_cons, List.sum_cons, List.sum_cons, ← ih]; rfl

namespace Scales

theorem spread_number (mean square : ℝ) : spread (number mean) (number square) =
    number (Real.sqrt (max 0 (square - mean * mean))) := by
  unfold spread
  rw [zero_eq, number_mul, number_sub, max_number, sqrt_number (le_max_left _ _)]

structure OfSamples (samples : List (Sample n)) (scales : Scales Exact) : Prop where
  means : scales.means = ofVector fun j => average samples fun s => s.features j
  spreads : scales.spreads = ofVector fun j => deviation samples fun s => s.features j
  responseMean : scales.responseMean = number (average samples Sample.response)
  responseSpread : scales.responseSpread = number (deviation samples Sample.response)

theorem ofSums_ofSamples (incomplete : ℕ) {samples : List (Sample n)} (some : samples ≠ []) :
    (ofSums (RowSums.ofSamples incomplete samples)).OfSamples samples := by
  have filled : samples.length ≠ 0 := mt List.eq_nil_of_length_eq_zero some
  have count : (samples.length : ℝ) ≠ 0 := Nat.cast_ne_zero.mpr filled
  have averages (read : Sample n → Fin n → ℝ) :
      (ofVector (samples.map read).sum).map (· / (samples.length : Exact)) =
        ofVector fun j => average samples fun s => read s j := by
    rw [map_ofVector _ (· / (samples.length : ℝ)) fun total => number_div total count]
    congr 1
    funext j
    rw [sum_features_apply]
    rfl
  have numbers (read : Sample n → ℝ) :
      number (samples.map read).sum / (samples.length : Exact) = number (average samples read) :=
    number_div _ count
  unfold ofSums RowSums.ofSamples
  simp only [if_neg filled]
  refine ⟨averages _, ?_, numbers _, ?_⟩
  · dsimp only
    rw [averages, averages]
    exact zipWith_ofVector _ _ spread_number
  · dsimp only
    rw [numbers, numbers]
    exact spread_number _ _

theorem ofSamples_measure {source : Source Exact} (some : source.samples ≠ []) :
    (measure source).OfSamples source.samples := by
  unfold measure
  rw [RowSums.ofSource_eq_ofSamples]
  exact ofSums_ofSamples _ some

theorem measure_perm {source other : Source Exact} (dimension : other.dimension = source.dimension)
    (rows : other.rows.Perm source.rows) : measure other = measure source := by
  obtain ⟨n, partitions, uniform⟩ := source
  obtain ⟨_, otherPartitions, otherUniform⟩ := other
  cases dimension
  unfold measure
  rw [RowSums.ofSource_eq_ofSamples, RowSums.ofSource_eq_ofSamples]
  have incomplete := (rows.filter fun row => !row.isComplete).length_eq
  have samples := (rows.filter Row.isComplete).map (Row.sample n)
  unfold Source.incompleteCount
  rw [incomplete]
  exact congrArg ofSums (RowSums.ofSamples_perm _ samples)

end Scales

end ElasticNet
