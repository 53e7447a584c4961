import ElasticNet.Path
import ElasticNet.Proofs.Scales.Moments
import Mathlib.Algebra.QuadraticDiscriminant

namespace ElasticNet

open Exact

variable {n : ℕ}

/-- The inequality of Cauchy and Schwarz, from the squares of all combinations. -/
theorem average_mul_sq_le (samples : List (Sample n)) (read other : Sample n → ℝ) :
    average samples (fun s => read s * other s) ^ 2 ≤
      average samples (fun s => read s ^ 2) * average samples fun s => other s ^ 2 := by
  have combined (t : ℝ) : 0 ≤ average samples (fun s => read s ^ 2) * (t * t)
      + 2 * average samples (fun s => read s * other s) * t
      + average samples fun s => other s ^ 2 := by
    have squares : (fun s => (t * read s + other s) ^ 2) = fun s =>
        (t * t) * read s ^ 2 + ((2 * t) * (read s * other s) + other s ^ 2) := by
      funext s
      ring
    have whole : 0 ≤ average samples fun s => (t * read s + other s) ^ 2 :=
      average_nonneg samples fun s => sq_nonneg _
    rw [squares, average_add, average_mul_left, average_add, average_mul_left] at whole
    linarith
  have bound := discrim_le_zero combined
  unfold discrim at bound
  linarith

theorem average_centered {samples : List (Sample n)} (some : samples ≠ []) (read : Sample n → ℝ) :
    average samples (fun s => average samples read - read s) = 0 := by
  have moved : (fun s => average samples read - read s) = fun s =>
      -1 * read s + average samples read := by
    funext s
    ring
  rw [moved, average_affine read some]
  ring

theorem abs_average_centered_le {samples : List (Sample n)} (some : samples ≠ [])
    (feature read : Sample n → ℝ) :
    |average samples fun s => feature s * (average samples read - read s)| ≤
      Real.sqrt (average samples fun s => feature s ^ 2) * deviation samples read := by
  have product := average_mul_sq_le samples feature fun s => average samples read - read s
  have distances : (fun s => (average samples read - read s) ^ 2) = fun s =>
      (read s - average samples read) ^ 2 := by
    funext s
    ring
  have positive : 0 ≤ average samples fun s => feature s ^ 2 :=
    average_nonneg samples fun s => sq_nonneg _
  rw [deviation_eq_sqrt some, ← Real.sqrt_mul positive]
  apply Real.abs_le_sqrt
  rw [distances] at product
  exact product

namespace Path

theorem largestOf_ofVector (first : ℝ) (w : Fin n → ℝ) :
    ∃ top, largestOf (number first) (ofVector w) = number top ∧ first ≤ top ∧ ∀ j, w j ≤ top := by
  induction n generalizing first with
  | zero => exact ⟨first, rfl, le_refl _, fun j => j.elim0⟩
  | succ n ih =>
    obtain ⟨top, found, above, others⟩ := ih (max first (w 0)) fun j => w j.succ
    refine ⟨top, ?_, (le_max_left _ _).trans above, ?_⟩
    · rw [← found, ofVector_succ]
      unfold largestOf
      rw [List.foldl_cons, max_number]
    · intro j
      cases j using Fin.cases with
      | zero => exact (le_max_right _ _).trans above
      | succ j => exact others j

theorem ne_zero_of_low {share : ℝ} (low : 1e-3 ≤ share) : share ≠ 0 := by
  have small : (0 : ℝ) < 1e-3 := by norm_num
  linarith

theorem largestStrength_ofVector (features : n ≠ 0) {w : Fin n → ℝ} (nonnegative : ∀ j, 0 ≤ w j)
    (spread : ℝ) {share : ℝ} (low : 1e-3 ≤ share) :
    ∃ top, (∀ j, w j ≤ top) ∧ largestStrength (ofVector w) (number spread) (number share) =
      .ok (number (Real.sqrt top * spread / share)) := by
  cases n with
  | zero => exact absurd rfl features
  | succ n =>
    obtain ⟨top, found, above, others⟩ := largestOf_ofVector (w 0) fun j => w j.succ
    have floor : Scalar.max (number share) (1e-3 : Exact) = number share := by
      rw [ofScientific_eq, max_number, max_eq_left low]
    refine ⟨top, fun j => ?_, ?_⟩
    · cases j using Fin.cases with
      | zero => exact above
      | succ j => exact others j
    · rw [ofVector_succ]
      unfold largestStrength
      simp only
      rw [found, sqrt_number ((nonnegative 0).trans above), floor, number_mul,
        number_div _ (ne_zero_of_low low)]

/-- With the largest strength the absolute penalty outweighs every feature. -/
theorem largestStrength_outweighs {source : Source Exact} (features : source.dimension ≠ 0)
    (some : source.samples ≠ []) {share : ℝ} (low : 1e-3 ≤ share) :
    ∃ largest, largestStrength (Scales.measure source).meanSquares
        (Scales.measure source).responseSpread (number share) = .ok (number largest) ∧
      ∀ j, |average source.samples fun s =>
        s.features j * (average source.samples Sample.response - s.response)| ≤
          largest * share := by
  rw [Scales.meanSquares_measure some, (Scales.ofSamples_measure some).responseSpread]
  obtain ⟨top, above, given⟩ := largestStrength_ofVector features
    (fun j => average_nonneg source.samples fun s => sq_nonneg (s.features j))
    (deviation source.samples Sample.response) low
  refine ⟨_, given, fun j => ?_⟩
  rw [div_mul_cancel₀ _ (ne_zero_of_low low)]
  exact (abs_average_centered_le some _ _).trans
    (mul_le_mul_of_nonneg_right (Real.sqrt_le_sqrt (above j)) (deviation_nonneg _ _))

end Path

end ElasticNet
