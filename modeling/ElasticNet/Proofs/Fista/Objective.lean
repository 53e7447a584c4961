import ElasticNet.Family
import ElasticNet.Proofs.Exact.Samples
import Mathlib.Algebra.BigOperators.Field
import Mathlib.Tactic.FieldSimp
import Mathlib.Tactic.Linarith

namespace ElasticNet

open Matrix

variable {n : ℕ}

abbrev Point (n : ℕ) := (Fin n → ℝ) × ℝ

namespace Point

def inner (p q : Point n) : ℝ :=
  p.1 ⬝ᵥ q.1 + p.2 * q.2

theorem inner_self_nonneg (p : Point n) : 0 ≤ p.inner p :=
  add_nonneg (Finset.sum_nonneg fun j _ => mul_self_nonneg (p.1 j)) (mul_self_nonneg p.2)

def sizes (p : Point n) : ℝ :=
  ∑ j, |p.1 j|

def predict (p : Point n) (sample : Sample n) : ℝ :=
  p.2 + p.1 ⬝ᵥ sample.features

end Point

namespace Family

noncomputable def lossAt (family : Family) (p y : ℝ) : ℝ :=
  match family with
  | gaussian => (y - p) ^ 2 / 2
  | binomial => Real.log (1 + Real.exp (if 1 / 2 < y then -p else p))

noncomputable def slopeAt (family : Family) (p y : ℝ) : ℝ :=
  match family with
  | gaussian => p - y
  | binomial => if 1 / 2 < y then -1 / (1 + Real.exp p) else 1 / (1 + Real.exp (-p))

noncomputable def totalLoss (family : Family) (samples : List (Sample n)) (p : Point n) : ℝ :=
  (samples.map fun s => family.lossAt (p.predict s) s.response).sum

noncomputable def totalGradient (family : Family) (samples : List (Sample n)) (p : Point n) :
    Point n :=
  (samples.map fun s => family.slopeAt (p.predict s) s.response • ((s.features, 1) : Point n)).sum

theorem totalLoss_nil (family : Family) (p : Point n) : family.totalLoss [] p = 0 := rfl

theorem totalLoss_singleton (family : Family) (s : Sample n) (p : Point n) :
    family.totalLoss [s] p = family.lossAt (p.predict s) s.response :=
  List.sum_singleton

theorem totalLoss_append (family : Family) (samples more : List (Sample n)) (p : Point n) :
    family.totalLoss (samples ++ more) p =
      family.totalLoss samples p + family.totalLoss more p := by
  rw [totalLoss, List.map_append, List.sum_append, totalLoss, totalLoss]

theorem totalGradient_nil (family : Family) (p : Point n) : family.totalGradient [] p = 0 := rfl

theorem totalGradient_singleton (family : Family) (s : Sample n) (p : Point n) :
    family.totalGradient [s] p =
      family.slopeAt (p.predict s) s.response • ((s.features, 1) : Point n) :=
  List.sum_singleton

theorem totalGradient_append (family : Family) (samples more : List (Sample n)) (p : Point n) :
    family.totalGradient (samples ++ more) p =
      family.totalGradient samples p + family.totalGradient more p := by
  rw [totalGradient, List.map_append, List.sum_append, totalGradient, totalGradient]

end Family

/-- What a model is fitted to, and how its point is penalised. -/
structure Problem (n : ℕ) where
  family : Family
  samples : List (Sample n)
  strength : ℝ
  mixing : ℝ

namespace Problem

variable (problem : Problem n)

def penalty : ℝ :=
  problem.strength * problem.mixing

def ridge : ℝ :=
  problem.strength * (1 - problem.mixing)

noncomputable def smooth (p : Point n) : ℝ :=
  problem.family.totalLoss problem.samples p / problem.samples.length
    + problem.ridge / 2 * p.1 ⬝ᵥ p.1

noncomputable def objective (p : Point n) : ℝ :=
  problem.smooth p + problem.penalty * p.sizes

noncomputable def gradient (p : Point n) : Point n :=
  (problem.samples.length : ℝ)⁻¹ • problem.family.totalGradient problem.samples p
    + problem.ridge • (p.1, 0)

end Problem

namespace Point

/-- The quadratic model of a step size around a point with a gradient, with an absolute penalty. -/
noncomputable def model (penalty : ℝ) (gradient center : Point n) (step : ℝ) (p : Point n) : ℝ :=
  gradient.inner (p - center) + (p - center).inner (p - center) / (2 * step) + penalty * p.sizes

end Point

noncomputable def softValue (threshold x : ℝ) : ℝ :=
  if threshold < x then x - threshold else if x < -threshold then x + threshold else 0

/-- Moving toward zero is the best answer to a pull and an absolute penalty: every other number
    loses in one what it gains in the other. -/
theorem softValue_variational {threshold : ℝ} (nonnegative : 0 ≤ threshold) (x w : ℝ) :
    0 ≤ (w - softValue threshold x) * (softValue threshold x - x)
      + threshold * (|w| - |softValue threshold x|) := by
  unfold softValue
  split
  · next above =>
    rw [abs_of_pos (sub_pos.mpr above)]
    have bound := mul_nonneg nonnegative (sub_nonneg.mpr (le_abs_self w))
    linarith
  · next within =>
    split
    · next below =>
      have negative : x + threshold < 0 := by linarith
      rw [abs_of_neg negative]
      have bound := mul_nonneg nonnegative (sub_nonneg.mpr (neg_abs_le w))
      linarith
    · next above =>
      -- between the thresholds the pull is no stronger than the penalty
      have size : |x| ≤ threshold := abs_le.mpr ⟨not_lt.mp above, not_lt.mp within⟩
      have bound : w * x ≤ threshold * |w| :=
        calc w * x ≤ |w * x| := le_abs_self _
          _ = |x| * |w| := by rw [abs_mul, mul_comm]
          _ ≤ threshold * |w| := mul_le_mul_of_nonneg_right size (abs_nonneg w)
      rw [abs_zero]
      linarith

theorem softValue_of_abs_le {threshold x : ℝ} (within : |x| ≤ threshold) :
    softValue threshold x = 0 := by
  obtain ⟨below, above⟩ := abs_le.mp within
  unfold softValue
  rw [if_neg (not_lt.mpr above), if_neg (not_lt.mpr below)]

theorem softValue_eq_zero_iff (threshold x : ℝ) :
    softValue threshold x = 0 ↔ |x| ≤ threshold := by
  refine ⟨fun zero => ?_, softValue_of_abs_le⟩
  unfold softValue at zero
  split at zero
  · next above => exact absurd zero (sub_pos.mpr above).ne'
  · next within =>
    split at zero
    · next below =>
      have negative : x + threshold < 0 := by linarith
      exact absurd zero negative.ne
    · next above => exact abs_le.mpr ⟨not_lt.mp above, not_lt.mp within⟩

theorem softValue_mul_nonneg {threshold : ℝ} (nonnegative : 0 ≤ threshold) (x : ℝ) :
    0 ≤ softValue threshold x * x := by
  unfold softValue
  split
  · next above => exact mul_nonneg (sub_nonneg.mpr above.le) (nonnegative.trans above.le)
  · split
    · next below =>
      have moved : x + threshold ≤ 0 := by linarith
      exact mul_nonneg_of_nonpos_of_nonpos moved (by linarith)
    · rw [zero_mul]

noncomputable def penalizedDistance (threshold x w : ℝ) : ℝ :=
  (w - x) ^ 2 / 2 + threshold * |w|

theorem penalizedDistance_softValue_lt {threshold x w : ℝ} (nonnegative : 0 ≤ threshold)
    (other : w ≠ softValue threshold x) :
    penalizedDistance threshold x (softValue threshold x) < penalizedDistance threshold x w := by
  have best := softValue_variational nonnegative x w
  have apart : 0 < (w - softValue threshold x) ^ 2 := sq_pos_of_ne_zero (sub_ne_zero.mpr other)
  have gap : penalizedDistance threshold x w
      - penalizedDistance threshold x (softValue threshold x) =
      (w - softValue threshold x) ^ 2 / 2
        + ((w - softValue threshold x) * (softValue threshold x - x)
          + threshold * (|w| - |softValue threshold x|)) := by
    unfold penalizedDistance
    ring
  linarith

theorem softValue_minimal {penalty step : ℝ} (nonnegative : 0 ≤ penalty) (positive : 0 < step)
    (g y w : ℝ) :
    let b := softValue (penalty * step) (y - step * g)
    g * (b - y) + (b - y) * (b - y) / (2 * step) + penalty * |b| + (w - b) * (w - b) / (2 * step) ≤
      g * (w - y) + (w - y) * (w - y) / (2 * step) + penalty * |w| := by
  intro b
  have best := softValue_variational (mul_nonneg nonnegative positive.le) (y - step * g) w
  change 0 ≤ (w - b) * (b - (y - step * g)) + penalty * step * (|w| - |b|) at best
  have scaled : g * (w - y) + (w - y) * (w - y) / (2 * step) + penalty * |w|
      - (g * (b - y) + (b - y) * (b - y) / (2 * step) + penalty * |b|
        + (w - b) * (w - b) / (2 * step)) =
      ((w - b) * (b - (y - step * g)) + penalty * step * (|w| - |b|)) / step := by
    field_simp
    ring
  have gap := div_nonneg best positive.le
  rw [← scaled] at gap
  linarith

namespace Point

noncomputable def proximal (penalty : ℝ) (gradient center : Point n) (step : ℝ) : Point n :=
  (fun j => softValue (penalty * step) (center.1 j - step * gradient.1 j),
    center.2 - step * gradient.2)

theorem model_eq_sum (penalty : ℝ) (gradient center : Point n) (step : ℝ) (p : Point n) :
    model penalty gradient center step p =
      (∑ j, (gradient.1 j * (p.1 j - center.1 j)
        + (p.1 j - center.1 j) * (p.1 j - center.1 j) / (2 * step) + penalty * |p.1 j|))
      + (gradient.2 * (p.2 - center.2) + (p.2 - center.2) * (p.2 - center.2) / (2 * step)) := by
  unfold model inner sizes dotProduct
  rw [Finset.sum_add_distrib, Finset.sum_add_distrib, ← Finset.sum_div, ← Finset.mul_sum]
  simp only [Prod.fst_sub, Prod.snd_sub, Pi.sub_apply]
  ring

/-- The step is the minimum of the model; any other point lies above it by its distance. -/
theorem proximal_minimal {penalty step : ℝ} (nonnegative : 0 ≤ penalty) (positive : 0 < step)
    (gradient center p : Point n) :
    let best := proximal penalty gradient center step
    model penalty gradient center step best + (p - best).inner (p - best) / (2 * step) ≤
      model penalty gradient center step p := by
  intro best
  have coefficients :
      ∑ j, (gradient.1 j * (best.1 j - center.1 j)
        + (best.1 j - center.1 j) * (best.1 j - center.1 j) / (2 * step) + penalty * |best.1 j|
        + (p.1 j - best.1 j) * (p.1 j - best.1 j) / (2 * step)) ≤
      ∑ j, (gradient.1 j * (p.1 j - center.1 j)
        + (p.1 j - center.1 j) * (p.1 j - center.1 j) / (2 * step) + penalty * |p.1 j|) :=
    Finset.sum_le_sum fun j _ =>
      softValue_minimal nonnegative positive (gradient.1 j) (center.1 j) (p.1 j)
  have intercept : gradient.2 * (best.2 - center.2)
      + (best.2 - center.2) * (best.2 - center.2) / (2 * step)
      + (p.2 - best.2) * (p.2 - best.2) / (2 * step) =
      gradient.2 * (p.2 - center.2) + (p.2 - center.2) * (p.2 - center.2) / (2 * step) := by
    have moved : best.2 = center.2 - step * gradient.2 := rfl
    rw [moved]
    field_simp
    ring
  have distance : (p - best).inner (p - best) / (2 * step) =
      (∑ j, (p.1 j - best.1 j) * (p.1 j - best.1 j) / (2 * step))
        + (p.2 - best.2) * (p.2 - best.2) / (2 * step) := by
    unfold inner dotProduct
    rw [← Finset.sum_div, ← add_div]
    rfl
  rw [model_eq_sum, model_eq_sum, distance, ← intercept]
  rw [Finset.sum_add_distrib] at coefficients
  linarith

theorem model_center (penalty : ℝ) (gradient center : Point n) (step : ℝ) :
    model penalty gradient center step center = penalty * center.sizes := by
  unfold model inner
  rw [sub_self, Prod.fst_zero, Prod.snd_zero, dotProduct_zero, dotProduct_zero]
  ring

end Point

end ElasticNet
