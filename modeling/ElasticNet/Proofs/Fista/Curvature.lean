import ElasticNet.Proofs.Fista.Objective
import Mathlib.Algebra.Order.BigOperators.Ring.Finset

namespace ElasticNet

open Matrix

variable {n : ℕ}

namespace Point

theorem inner_sq_le (p q : Point n) : p.inner q ^ 2 ≤ p.inner p * q.inner q := by
  have coefficients : (p.1 ⬝ᵥ q.1) ^ 2 ≤ (p.1 ⬝ᵥ p.1) * (q.1 ⬝ᵥ q.1) := by
    have bound := Finset.sum_mul_sq_le_sq_mul_sq Finset.univ p.1 q.1
    simpa only [dotProduct, ← sq] using bound
  have cross : 0 ≤ (q.2 • p.1 - p.2 • q.1) ⬝ᵥ (q.2 • p.1 - p.2 • q.1) :=
    Finset.sum_nonneg fun j _ => mul_self_nonneg _
  simp only [sub_dotProduct, dotProduct_sub, smul_dotProduct, dotProduct_smul, smul_eq_mul,
    dotProduct_comm q.1 p.1] at cross
  unfold inner
  nlinarith

theorem inner_comm (p q : Point n) : p.inner q = q.inner p := by
  unfold inner
  rw [dotProduct_comm, mul_comm]

theorem add_inner (p q r : Point n) : (p + q).inner r = p.inner r + q.inner r := by
  unfold inner
  rw [Prod.fst_add, Prod.snd_add, add_dotProduct]
  ring

theorem smul_inner (factor : ℝ) (p q : Point n) : (factor • p).inner q = factor * p.inner q := by
  unfold inner
  rw [Prod.smul_fst, Prod.smul_snd, smul_dotProduct, smul_eq_mul, smul_eq_mul]
  ring

end Point

def Sample.direction (s : Sample n) : Point n :=
  (s.features, 1)

theorem Point.predict_eq (p : Point n) (s : Sample n) : p.predict s = p.inner s.direction := by
  unfold predict inner Sample.direction
  ring

namespace Family

theorem lossAt_gaussian_add (p move y : ℝ) :
    gaussian.lossAt (p + move) y =
      gaussian.lossAt p y + gaussian.slopeAt p y * move + move ^ 2 / 2 := by
  unfold lossAt slopeAt
  ring

theorem totalLoss_gaussian_add (samples : List (Sample n)) (p move : Point n) :
    gaussian.totalLoss samples (p + move) =
      gaussian.totalLoss samples p + (gaussian.totalGradient samples p).inner move
        + (samples.map fun s => s.direction.inner move ^ 2).sum / 2 := by
  induction samples with
  | nil =>
    rw [totalLoss_nil, totalLoss_nil, totalGradient_nil]
    simp [Point.inner]
  | cons s rest ih =>
    have predicted : (p + move).predict s = p.predict s + s.direction.inner move := by
      rw [Point.predict_eq, Point.predict_eq, Point.add_inner, Point.inner_comm move]
    have losses (q : Point n) : gaussian.totalLoss (s :: rest) q =
        gaussian.lossAt (q.predict s) s.response + gaussian.totalLoss rest q := rfl
    have gradients : gaussian.totalGradient (s :: rest) p =
        gaussian.slopeAt (p.predict s) s.response • s.direction
          + gaussian.totalGradient rest p := rfl
    rw [losses, losses, gradients, predicted, lossAt_gaussian_add, ih, Point.add_inner,
      Point.smul_inner, List.map_cons, List.sum_cons]
    ring

end Family

namespace Problem

variable (problem : Problem n)

/-- The mean size of the rows, with one for the intercept, and the quadratic penalty. -/
noncomputable def curvature : ℝ :=
  (problem.samples.map fun s => s.features ⬝ᵥ s.features + 1).sum / problem.samples.length
    + problem.ridge

theorem curvature_pos (some : problem.samples ≠ []) (ridge : 0 ≤ problem.ridge) :
    0 < problem.curvature := by
  have sizes : 0 < (problem.samples.map fun s => s.features ⬝ᵥ s.features + 1).sum := by
    apply List.sum_pos _ _ (mt List.map_eq_nil_iff.mp some)
    intro size inside
    obtain ⟨s, _, rfl⟩ := List.mem_map.mp inside
    have square : 0 ≤ s.features ⬝ᵥ s.features := Finset.sum_nonneg fun j _ => mul_self_nonneg _
    linarith
  have count : (0 : ℝ) < problem.samples.length :=
    Nat.cast_pos.mpr (List.length_pos_iff.mpr some)
  exact add_pos_of_pos_of_nonneg (div_pos sizes count) ridge

theorem sum_direction_le (samples : List (Sample n)) (move : Point n) :
    (samples.map fun s => s.direction.inner move ^ 2).sum ≤
      (samples.map fun s => s.features ⬝ᵥ s.features + 1).sum * move.inner move := by
  rw [← List.sum_map_mul_right]
  apply List.sum_le_sum
  intro s _
  have bound := s.direction.inner_sq_le move
  have size : s.direction.inner s.direction = s.features ⬝ᵥ s.features + 1 := by
    unfold Point.inner Sample.direction
    ring
  rwa [size] at bound

theorem smooth_add_le (gaussian : problem.family = .gaussian) (ridge : 0 ≤ problem.ridge)
    (p move : Point n) :
    problem.smooth (p + move) ≤ problem.smooth p + (problem.gradient p).inner move
      + problem.curvature / 2 * move.inner move := by
  have losses := Family.totalLoss_gaussian_add problem.samples p move
  have rows := div_le_div_of_nonneg_right (sum_direction_le problem.samples move)
    (Nat.cast_nonneg problem.samples.length : (0 : ℝ) ≤ _)
  have squares : (p.1 + move.1) ⬝ᵥ (p.1 + move.1) =
      p.1 ⬝ᵥ p.1 + 2 * p.1 ⬝ᵥ move.1 + move.1 ⬝ᵥ move.1 := by
    rw [add_dotProduct, dotProduct_add, dotProduct_add, dotProduct_comm move.1 p.1]
    ring
  have penalised : problem.ridge * move.1 ⬝ᵥ move.1 ≤ problem.ridge * move.inner move := by
    apply mul_le_mul_of_nonneg_left _ ridge
    unfold Point.inner
    linarith [mul_self_nonneg move.2]
  have gradient : (problem.gradient p).inner move =
      (Family.gaussian.totalGradient problem.samples p).inner move / problem.samples.length
        + problem.ridge * p.1 ⬝ᵥ move.1 := by
    unfold Problem.gradient
    rw [Point.add_inner, Point.smul_inner, Point.smul_inner, gaussian]
    unfold Point.inner
    ring
  unfold smooth
  rw [gaussian, losses, gradient, Prod.fst_add, squares]
  unfold curvature
  rw [mul_div_right_comm] at rows
  rw [add_div, add_div, div_right_comm]
  linarith

/-- A step size below the inverse of the curvature keeps the model above the objective. -/
theorem objective_le_model (gaussian : problem.family = .gaussian) (ridge : 0 ≤ problem.ridge)
    {step : ℝ} (positive : 0 < step) (short : step * problem.curvature ≤ 1) (center p : Point n) :
    problem.objective p ≤ problem.smooth center
      + Point.model problem.penalty (problem.gradient center) center step p := by
  have around := problem.smooth_add_le gaussian ridge center (p - center)
  rw [add_sub_cancel] at around
  have square := (p - center).inner_self_nonneg
  have steep : problem.curvature / 2 * (p - center).inner (p - center) ≤
      (p - center).inner (p - center) / (2 * step) := by
    rw [le_div_iff₀ (by linarith)]
    nlinarith
  unfold objective Point.model
  linarith

end Problem

end ElasticNet
