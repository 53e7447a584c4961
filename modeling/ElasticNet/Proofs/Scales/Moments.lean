import ElasticNet.Proofs.Scales.Sums

namespace ElasticNet

open Exact

variable {n : ℕ}

theorem average_nonneg (samples : List (Sample n)) {read : Sample n → ℝ}
    (nonnegative : ∀ s, 0 ≤ read s) : 0 ≤ average samples read := by
  apply div_nonneg _ (Nat.cast_nonneg _)
  apply List.sum_nonneg
  intro value inside
  obtain ⟨s, _, rfl⟩ := List.mem_map.mp inside
  exact nonnegative s

noncomputable def variance (samples : List (Sample n)) (read : Sample n → ℝ) : ℝ :=
  average samples fun s => (read s - average samples read) ^ 2

theorem variance_nonneg (samples : List (Sample n)) (read : Sample n → ℝ) :
    0 ≤ variance samples read :=
  average_nonneg samples fun _ => sq_nonneg _

section Squares

variable {samples : List (Sample n)} (some : samples ≠ []) (read : Sample n → ℝ)
include some

theorem variance_eq : variance samples read =
    average samples (fun s => read s * read s) - average samples read * average samples read := by
  have squares : (fun s => (read s - average samples read) ^ 2) = fun s =>
      read s * read s + (-2 * average samples read * read s
        + average samples read * average samples read) := by
    funext s
    ring
  unfold variance
  rw [squares, average_add, average_affine read some]
  ring

theorem deviation_eq_sqrt : deviation samples read = Real.sqrt (variance samples read) := by
  unfold deviation
  rw [← variance_eq some, max_eq_right (variance_nonneg samples read)]

theorem deviation_sq : deviation samples read ^ 2 = variance samples read := by
  rw [deviation_eq_sqrt some, Real.sq_sqrt (variance_nonneg samples read)]

theorem average_sq : average samples (fun s => read s ^ 2) =
    deviation samples read ^ 2 + average samples read ^ 2 := by
  have squares : (fun s => read s ^ 2) = fun s => read s * read s := by
    funext s
    ring
  rw [deviation_sq some, variance_eq some, squares]
  ring

end Squares

theorem deviation_nonneg (samples : List (Sample n)) (read : Sample n → ℝ) :
    0 ≤ deviation samples read :=
  Real.sqrt_nonneg _

namespace Scales

theorem meanSquares_measure {source : Source Exact} (some : source.samples ≠ []) :
    (measure source).meanSquares =
      ofVector fun j => average source.samples fun s => s.features j ^ 2 := by
  have scales := ofSamples_measure some
  have squares : (measure source).meanSquares =
      List.zipWith (fun s m => s * s + m * m) (measure source).spreads (measure source).means := rfl
  rw [squares, scales.spreads, scales.means]
  refine (zipWith_ofVector _ _ (g := fun s m => s * s + m * m) fun _ _ => rfl).trans ?_
  congr 1
  funext j
  rw [average_sq some]
  ring

structure MomentsOf (samples : List (Sample n)) (scales : Scales Exact) : Prop where
  means : scales.means = ofVector fun j => average samples fun s => s.features j
  meanSquares : scales.meanSquares = ofVector fun j => average samples fun s => s.features j ^ 2
  spreads : ∃ spreads : Fin n → ℝ, scales.spreads = ofVector spreads ∧
    ∀ j, 0 ≤ spreads j ∧ spreads j ^ 2 = variance samples fun s => s.features j
  responseMean : scales.responseMean = number (average samples Sample.response)
  responseSpread : ∃ spread : ℝ, scales.responseSpread = number spread ∧
    0 ≤ spread ∧ spread ^ 2 = variance samples Sample.response

theorem momentsOf_measure {source : Source Exact} (some : source.samples ≠ []) :
    (measure source).MomentsOf source.samples := by
  obtain ⟨means, spreads, responseMean, responseSpread⟩ := ofSamples_measure some
  exact ⟨means, meanSquares_measure some,
    ⟨_, spreads, fun j => ⟨deviation_nonneg _ _, deviation_sq some _⟩⟩, responseMean,
    ⟨_, responseSpread, deviation_nonneg _ _, deviation_sq some _⟩⟩

/-- The difference that a spread is the root of is not cut off at zero. -/
def Unclamped (mean meanSquare : Exact) : Prop :=
  Scalar.max 0 (meanSquare - mean * mean) = meanSquare - mean * mean

theorem unclamped_average {samples : List (Sample n)} (some : samples ≠ [])
    (read : Sample n → ℝ) : Unclamped (number (average samples read))
      (number (average samples fun s => read s * read s)) := by
  unfold Unclamped
  rw [number_mul, number_sub, ← variance_eq some, zero_eq, max_number,
    max_eq_right (variance_nonneg samples read)]

structure SpreadsKept (sums : RowSums Exact) (scales : Scales Exact) : Prop where
  features : List.Forall₂ Unclamped scales.means (sums.squares.map (· / (sums.complete : Exact)))
  response : Unclamped scales.responseMean (sums.responseSquares / (sums.complete : Exact))

theorem forall₂_ofVector {Related : Exact → Exact → Prop} {u w : Fin n → ℝ}
    (all : ∀ j, Related (number (u j)) (number (w j))) :
    List.Forall₂ Related (ofVector u) (ofVector w) := by
  induction n with
  | zero => exact .nil
  | succ n ih =>
    rw [ofVector_succ, ofVector_succ w]
    exact .cons (all 0) (ih fun j => all j.succ)

theorem spreadsKept_measure {source : Source Exact} (some : source.samples ≠ []) :
    SpreadsKept (RowSums.ofSource source) (measure source) := by
  have count : (source.samples.length : ℝ) ≠ 0 :=
    Nat.cast_ne_zero.mpr (mt List.eq_nil_of_length_eq_zero some)
  have scales := ofSamples_measure some
  rw [RowSums.ofSource_eq_ofSamples]
  unfold RowSums.ofSamples
  refine ⟨?_, ?_⟩
  · dsimp only
    rw [scales.means, natCast_eq,
      map_ofVector _ (· / (source.samples.length : ℝ)) fun total => number_div total count]
    apply forall₂_ofVector
    intro j
    rw [sum_features_apply]
    exact unclamped_average some _
  · dsimp only
    rw [scales.responseMean, natCast_eq, number_div _ count]
    exact unclamped_average some _

structure AllZero (dimension : ℕ) (scales : Scales Exact) : Prop where
  means : scales.means = Vector.zeros dimension
  spreads : scales.spreads = Vector.zeros dimension
  meanSquares : scales.meanSquares = Vector.zeros dimension
  responseMean : scales.responseMean = 0
  responseSpread : scales.responseSpread = 0

theorem allZero_measure {source : Source Exact} (none : source.samples = []) :
    (measure source).AllZero source.dimension := by
  have squares : List.zipWith (fun s m => s * s + m * m) (ofVector (0 : Fin source.dimension → ℝ))
      (ofVector (0 : Fin source.dimension → ℝ)) = ofVector (0 : Fin source.dimension → ℝ) := by
    refine (zipWith_ofVector _ _ (g := fun s m => s * s + m * m) fun _ _ => rfl).trans ?_
    congr 1
    funext j
    simp
  unfold measure
  rw [RowSums.ofSource_eq_ofSamples, none]
  unfold ofSums RowSums.ofSamples
  simp only [List.length_nil, if_true, List.map_nil, List.sum_nil, List.map_id_fun', id_eq]
  exact ⟨zeros_eq.symm, zeros_eq.symm, squares.trans zeros_eq.symm, rfl, rfl⟩

/-- The scales that a source ought to have: its rows are counted, and the moments are those of the
    complete ones. -/
structure ScalesOf (source : Source Exact) (scales : Scales Exact) : Prop where
  complete : scales.complete = source.completeCount
  incomplete : scales.incomplete = source.incompleteCount
  counted : scales.complete + scales.incomplete = source.rowCount
  moments : source.completeCount ≠ 0 → scales.MomentsOf source.samples
  kept : source.completeCount ≠ 0 → SpreadsKept (RowSums.ofSource source) scales
  nothing : source.completeCount = 0 → scales.AllZero source.dimension

theorem scalesOf_measure (source : Source Exact) : ScalesOf source (measure source) where
  complete := complete_measure source
  incomplete := incomplete_measure source
  counted := by
    rw [complete_measure, incomplete_measure]
    exact source.completeCount_add_incompleteCount
  moments some := momentsOf_measure (source.samples_ne_nil some)
  kept some := spreadsKept_measure (source.samples_ne_nil some)
  nothing none := allZero_measure
    (List.eq_nil_of_length_eq_zero (source.length_samples.trans none))

theorem ofSource_of_featured {source : Source Exact} (featured : source.dimension ≠ 0)
    (few : sumCount source.dimension < UInt32.size) : ofSource source = .ok (measure source) :=
  if_neg (not_or.mpr ⟨featured, Nat.not_le.mpr few⟩)

theorem ofSource_of_featureless {source : Source Exact} (none : source.dimension = 0) :
    ofSource source = .error .indexOutOfBounds :=
  if_pos (.inl none)

/-- A source with features, of which a word can count the sums, has the moments of its complete
    rows, in whatever order and however these are partitioned. One without features is refused. -/
theorem ofSource_moments :
    (∀ source : Source Exact, source.dimension ≠ 0 → sumCount source.dimension < UInt32.size →
      ∃ scales, ofSource source = .ok scales ∧ ScalesOf source scales ∧
        ∀ other : Source Exact, other.dimension = source.dimension → other.rows.Perm source.rows →
          ofSource other = .ok scales) ∧
    ∀ source : Source Exact, source.dimension = 0 → ofSource source = .error .indexOutOfBounds := by
  constructor
  · intro source featured few
    refine ⟨measure source, ofSource_of_featured featured few, scalesOf_measure source, ?_⟩
    intro other dimension rows
    rw [← measure_perm dimension rows]
    exact ofSource_of_featured (dimension ▸ featured) (dimension ▸ few)
  · exact fun _ none => ofSource_of_featureless none

noncomputable def splitConstant : Source Exact where
  dimension := 2
  partitions := [⟨2, [⟨[0, 1], 1, "a"⟩, ⟨[.undefined, 0], 1, "b"⟩], by simp⟩,
    ⟨2, [⟨[1, 1], 0, "a"⟩], by simp⟩]
  uniform := by simp

noncomputable def featureless : Source Exact where
  dimension := 0
  partitions := [⟨0, [⟨[], 0, ""⟩, ⟨[], 1, ""⟩], by simp⟩]
  uniform := by simp

theorem ofSource_moments_splitConstant :
    (splitConstant.dimension ≠ 0 ∧ sumCount splitConstant.dimension < UInt32.size ∧
      ∃ scales, ofSource splitConstant = .ok scales ∧ ScalesOf splitConstant scales ∧
        scales.complete = 2 ∧ scales.incomplete = 1) ∧
    featureless.dimension = 0 ∧ ofSource featureless = .error .indexOutOfBounds := by
  have featured : splitConstant.dimension ≠ 0 := by decide
  have few : sumCount splitConstant.dimension < UInt32.size := by decide
  obtain ⟨scales, measured, own, _⟩ := ofSource_moments.1 splitConstant featured few
  refine ⟨⟨featured, few, scales, measured, own, own.complete, own.incomplete⟩, rfl, ?_⟩
  exact ofSource_moments.2 featureless rfl

/-- Rows without features have a mean response and a spread, but are not measured. -/
theorem ofSource_refuses_featureless : featureless.completeCount = 2 ∧
    ofSource featureless = .error .indexOutOfBounds ∧
    ¬∃ scales, ofSource featureless = .ok scales ∧ ScalesOf featureless scales := by
  have refused : ofSource featureless = .error .indexOutOfBounds := ofSource_of_featureless rfl
  refine ⟨rfl, refused, ?_⟩
  rintro ⟨scales, measured, _⟩
  cases refused.symm.trans measured

end Scales

end ElasticNet
