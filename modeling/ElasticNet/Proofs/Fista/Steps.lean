import ElasticNet.Proofs.Fista.Exact

namespace ElasticNet

open Exact Matrix

theorem softThreshold_number (threshold x : ℝ) :
    softThreshold (number threshold) (number x) = number (softValue threshold x) := by
  unfold softThreshold softValue
  rw [number_neg, number_sub, number_add, zero_eq]
  simp only [number_lt, apply_ite number]

theorem Fista.inertia_number (t : ℝ) :
    0.5 * (1 + Scalar.sqrt (1 + 4.0 * number t * number t)) =
      number ((1 + Real.sqrt (1 + 4 * t * t)) / 2) := by
  have four : (4.0 : Exact) = number 4 := by
    rw [ofScientific_eq]
    norm_num
  have nonnegative : 0 ≤ 1 + 4 * t * t := by nlinarith [sq_nonneg t]
  rw [half_eq, four, one_eq, number_mul, number_mul, number_add, sqrt_number nonnegative,
    number_add, number_mul]
  congr 1
  ring

namespace Fista.Proximal

variable {n : ℕ} (p : Proximal n)

noncomputable def penalty : ℝ :=
  p.strength * p.mixing

noncomputable def ridge : ℝ :=
  p.strength * (1 - p.mixing)

noncomputable def proposed (stepSize : ℝ) : Proximal n :=
  { p with candidate := Point.proximal p.penalty p.gradient p.momentum stepSize }

noncomputable def meanGradient : Point n :=
  (p.total : ℝ)⁻¹ • p.gradient + p.ridge • ((p.momentum.1, 0) : Point n)

noncomputable def smoothValue (losses : ℝ) (point : Point n) : ℝ :=
  losses / p.total + p.ridge / 2 * point.1 ⬝ᵥ point.1

noncomputable def opened : Proximal n :=
  { { p with gradient := p.meanGradient }.proposed p.stepSize with trial := 1 }

noncomputable def valued : Proximal n :=
  { p with
    candidateValue := p.smoothValue p.candidateValue p.candidate
    momentumValue :=
      if p.trial = 1 then p.smoothValue p.momentumValue p.momentum else p.momentumValue }

noncomputable def increment : ℝ :=
  let move := p.candidate - p.momentum
  move.1 ⬝ᵥ p.gradient.1 + move.1 ⬝ᵥ move.1 / (2 * p.stepSize)
    - p.gradient.2 * p.gradient.2 * p.stepSize / 2

noncomputable def nextInertia : ℝ :=
  (1 + Real.sqrt (1 + 4 * p.inertia * p.inertia)) / 2

theorem nextInertia_pos : 0 < p.nextInertia := by
  have root := Real.sqrt_nonneg (1 + 4 * p.inertia * p.inertia)
  unfold nextInertia
  linarith

noncomputable def accept : Proximal n :=
  { p with
    inertia := p.nextInertia
    momentum := p.candidate + ((p.inertia - 1) / p.nextInertia) • (p.candidate - p.accepted)
    accepted := p.candidate
    logLikelihood := -(p.candidateValue + p.penalty * p.candidate.sizes)
    trial := 0 }

noncomputable def reject : Proximal n :=
  { { p with stepSize := p.stepSize / p.eta }.proposed (p.stepSize / p.eta) with
    trial := p.trial + 1 }

open Classical in
noncomputable def judged : Proximal n :=
  if p.candidateValue ≤ p.momentumValue + p.increment then p.accept else p.reject

noncomputable def finished : Proximal n :=
  { (if p.trial = 0 then p.opened else p.valued.judged) with status := .inProcess }

theorem propose_state (stepSize : ℝ) :
    p.state.propose (number stepSize) = (p.proposed stepSize).state := by
  have moved : List.zipWith (fun y g => softThreshold
      (number p.strength * number p.mixing * number stepSize) (y - number stepSize * g))
      (ofVector p.momentum.1) (ofVector p.gradient.1) =
      ofVector (Point.proximal p.penalty p.gradient p.momentum stepSize).1 :=
    zipWith_ofVector _ _ (g := fun y g => softValue (p.penalty * stepSize) (y - stepSize * g))
      fun _ _ => softThreshold_number _ _
  unfold State.propose proposed
  simp only [state, moved]
  rfl

theorem ridge_number : number p.strength * (1 - number p.mixing) = number p.ridge := rfl

theorem finishGradient_state (some : p.total ≠ 0) :
    p.state.finishGradient (p.total : Exact) = p.opened.state := by
  have nonzero : (p.total : ℝ) ≠ 0 := Nat.cast_ne_zero.mpr some
  have mean (g : ℝ) : number g / (p.total : Exact) = number ((p.total : ℝ)⁻¹ * g) := by
    rw [natCast_eq, number_div _ nonzero, div_eq_inv_mul]
  have gradient : List.zipWith (fun g y => if y != 0 then
      g / (p.total : Exact) + number p.ridge * y else g / (p.total : Exact))
      (ofVector p.gradient.1) (ofVector p.momentum.1) = ofVector p.meanGradient.1 := by
    refine zipWith_ofVector _ _ (g := fun g y => (p.total : ℝ)⁻¹ * g + p.ridge * y) ?_
    intro g y
    rw [mean, zero_eq, number_bne]
    -- a coefficient of zero is skipped, and would have added nothing
    split
    · rfl
    · next zero =>
      rw [decide_eq_true_eq, not_not] at zero
      rw [zero, mul_zero, add_zero]
  have intercept : number p.gradient.2 / (p.total : Exact) = number p.meanGradient.2 := by
    rw [mean]
    change _ = number (_ + p.ridge * 0)
    rw [mul_zero, add_zero]
    rfl
  have scaled : { p.state with
      gradient := List.zipWith (fun g y => if y != 0 then
        g / (p.total : Exact) + p.state.strength * (1 - p.state.mixing) * y
        else g / (p.total : Exact)) p.state.gradient p.state.momentum
      interceptGradient := p.state.interceptGradient / (p.total : Exact) } =
      state { p with gradient := p.meanGradient } := by
    simp only [state, ridge_number, gradient, intercept]
  have first : ((1 : ℕ) : Exact) = 1 := congrArg number Nat.cast_one
  refine (congrArg (fun scaled : State Exact =>
    { scaled.propose (number p.stepSize) with trial := 1 }) scaled).trans ?_
  rw [propose_state, ← first]
  rfl

theorem smoothValue_state (some : p.total ≠ 0) (losses : ℝ) (point : Point n) :
    p.state.smoothValue (p.total : Exact) (number losses) (ofVector point.1) =
      number (p.smoothValue losses point) := by
  have nonzero : (p.total : ℝ) ≠ 0 := Nat.cast_ne_zero.mpr some
  change number losses / (p.total : Exact) + 0.5 * number p.strength * (1 - number p.mixing)
    * Vector.sparseDot (ofVector point.1) (ofVector point.1) = _
  rw [natCast_eq, number_div _ nonzero, sparseDot_ofVector, half_eq]
  change number (_ + 1 / 2 * p.strength * (1 - p.mixing) * _) = _
  unfold smoothValue ridge
  congr 1
  ring

theorem modelIncrement_state (moving : p.stepSize ≠ 0) :
    p.state.modelIncrement = number p.increment := by
  have coefficients : Vector.sparseDot (Vector.sub p.state.candidate p.state.momentum)
        p.state.gradient
      + 0.5 * Vector.sparseDot (Vector.sub p.state.candidate p.state.momentum)
        (Vector.sub p.state.candidate p.state.momentum) / p.state.stepSize =
      number ((p.candidate - p.momentum).1 ⬝ᵥ p.gradient.1
        + (p.candidate - p.momentum).1 ⬝ᵥ (p.candidate - p.momentum).1 / (2 * p.stepSize)) := by
    change Vector.sparseDot (Vector.sub (ofVector _) (ofVector _)) (ofVector _) + 0.5 *
      Vector.sparseDot (Vector.sub (ofVector _) (ofVector _)) (Vector.sub (ofVector _) (ofVector _))
      / number _ = _
    rw [sub_ofVector, sparseDot_ofVector, sparseDot_ofVector, half_eq, number_mul,
      number_div _ moving, number_add, Prod.fst_sub]
    congr 2
    ring
  unfold State.modelIncrement increment
  dsimp only
  rw [coefficients]
  change (if number p.gradient.2 != 0 then _ + -0.5 * number p.gradient.2 * number p.gradient.2
    * number p.stepSize else _) = _
  rw [half_eq, zero_eq, number_bne]
  split
  · rw [number_neg, number_mul, number_mul, number_mul, number_add]
    congr 1
    ring
  · next zero =>
    rw [decide_eq_true_eq, not_not] at zero
    rw [zero, zero_mul, zero_mul, zero_div, sub_zero]

theorem nextInertia_number :
    0.5 * (1 + Scalar.sqrt (1 + 4.0 * number p.inertia * number p.inertia)) =
      number p.nextInertia :=
  inertia_number p.inertia

theorem accept_state : p.state.accept = p.accept.state := by
  have ahead (new old : ℝ) :
      number new + (number p.inertia - 1) * (number new - number old) / number p.nextInertia =
        number (new + (p.inertia - 1) / p.nextInertia * (new - old)) := by
    rw [one_eq, number_sub, number_sub, number_mul, number_div _ p.nextInertia_pos.ne', number_add,
      div_mul_eq_mul_div]
  have momentum : List.zipWith (fun new old =>
      new + (number p.inertia - 1) * (new - old) / number p.nextInertia)
      (ofVector p.candidate.1) (ofVector p.accepted.1) = ofVector p.accept.momentum.1 :=
    zipWith_ofVector _ _ (g := fun new old =>
      new + (p.inertia - 1) / p.nextInertia * (new - old)) ahead
  have sizes : Vector.sum ((ofVector p.candidate.1).map Scalar.abs) = number p.candidate.sizes := by
    rw [map_ofVector Scalar.abs abs abs_number, sum_ofVector]
    rfl
  unfold State.accept
  dsimp only [state]
  rw [nextInertia_number, momentum, ahead, sizes, ← natCast_zero]
  rfl

theorem reject_state (shrinking : p.eta ≠ 0) : p.state.reject = p.reject.state := by
  have smaller : p.state.stepSize / p.state.eta = number (p.stepSize / p.eta) :=
    number_div _ shrinking
  have shrunk : { p.state with stepSize := p.state.stepSize / p.state.eta } =
      state { p with stepSize := p.stepSize / p.eta } := by
    rw [smaller]
    rfl
  have next : ((p.trial + 1 : ℕ) : Exact) = (p.trial : Exact) + 1 := by
    rw [natCast_add]
    exact congrArg _ (congrArg number Nat.cast_one)
  refine (congrArg (fun shrunk : State Exact =>
    { shrunk.propose shrunk.stepSize with trial := p.state.trial + 1 }) shrunk).trans ?_
  change { State.propose _ (number (p.stepSize / p.eta)) with trial := (p.trial : Exact) + 1 } = _
  rw [propose_state, ← next]
  rfl

def Rejects : Prop :=
  p.trial ≠ 0 ∧ ¬p.valued.candidateValue ≤ p.valued.momentumValue + p.valued.increment

theorem finishTrial_state (some : p.total ≠ 0) (moving : p.stepSize ≠ 0) (trying : p.trial ≠ 0)
    (shrinking : p.Rejects → p.eta ≠ 0) :
    p.state.finishTrial (p.total : Exact) = p.valued.judged.state := by
  have valued : { p.state with
      candidateValue :=
        p.state.smoothValue (p.total : Exact) p.state.candidateValue p.state.candidate
      momentumValue :=
        if p.state.trials = 1 then
          p.state.smoothValue (p.total : Exact) p.state.momentumValue p.state.momentum
        else p.state.momentumValue } = p.valued.state := by
    have candidate : p.state.smoothValue (p.total : Exact) p.state.candidateValue
        p.state.candidate = number (p.smoothValue p.candidateValue p.candidate) :=
      smoothValue_state p some _ _
    have momentum : p.state.smoothValue (p.total : Exact) p.state.momentumValue
        p.state.momentum = number (p.smoothValue p.momentumValue p.momentum) :=
      smoothValue_state p some _ _
    unfold Proximal.valued
    simp only [candidate, momentum, trials_eq_one]
    simp only [state, apply_ite number]
  refine (congrArg (fun valued : State Exact =>
    if valued.candidateValue ≤ valued.momentumValue + valued.modelIncrement then valued.accept
    else valued.reject) valued).trans ?_
  rw [modelIncrement_state p.valued moving, accept_state]
  unfold judged
  by_cases below : p.valued.candidateValue ≤ p.valued.momentumValue + p.valued.increment
  · rw [if_pos below]
    exact if_pos below
  · rw [if_neg below, ← reject_state p.valued (shrinking ⟨trying, below⟩)]
    exact if_neg below

theorem isFinite_state : p.state.isFinite = true := by
  unfold State.isFinite
  rw [Bool.and_eq_true_iff, Bool.and_eq_true_iff, Bool.and_eq_true_iff, Bool.and_eq_true_iff]
  exact ⟨⟨⟨⟨allFinite_ofVector _, allFinite_ofVector _⟩, rfl⟩, rfl⟩, rfl⟩

theorem finalize_state (rows : p.rows ≠ 0) (some : p.total ≠ 0) (few : p.total < UInt64.size)
    (moving : p.stepSize ≠ 0) (shrinking : p.Rejects → p.eta ≠ 0) :
    p.state.finalize = p.finished.state := by
  have total : Scalar.ofCount (Scalar.toUInt64 p.state.totalRows) = (p.total : Exact) :=
    ofCount_toUInt64 few
  have taken : ¬Scalar.toUInt64 p.state.rows = 0 := (toUInt64_eq_zero p.rows).not.mpr rows
  have ended : (if p.state.trials = 0 then p.state.finishGradient (p.total : Exact)
      else p.state.finishTrial (p.total : Exact)) =
      (if p.trial = 0 then p.opened else p.valued.judged).state := by
    simp only [trials_eq_zero]
    by_cases gathers : p.trial = 0
    · rw [if_pos gathers, if_pos gathers, finishGradient_state p some]
    · rw [if_neg gathers, if_neg gathers, finishTrial_state p some moving gathers shrinking]
  unfold State.finalize
  rw [if_neg taken, total]
  dsimp only
  rw [ended, isFinite_state]
  rfl

end Fista.Proximal

end ElasticNet
