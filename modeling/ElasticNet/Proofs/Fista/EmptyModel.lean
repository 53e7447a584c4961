import ElasticNet.Proofs.Fista.Passes
import ElasticNet.Proofs.Path.Largest

namespace ElasticNet.Fista

open Exact Matrix

variable {n : ℕ}

noncomputable def emptyModel (samples : List (Sample n)) : Point n :=
  (0, average samples Sample.response)

/-- How far a feature goes along with what the empty model leaves of the response. -/
noncomputable def pull (samples : List (Sample n)) (j : Fin n) : ℝ :=
  average samples fun s => s.features j * (average samples Sample.response - s.response)

theorem predict_emptyModel (samples : List (Sample n)) (s : Sample n) :
    (emptyModel samples).predict s = average samples Sample.response := by
  unfold Point.predict emptyModel
  rw [zero_dotProduct, add_zero]

theorem totalGradient_fst (family : Family) (samples : List (Sample n)) (p : Point n) (j : Fin n) :
    (family.totalGradient samples p).1 j =
      (samples.map fun s => s.features j * family.slopeAt (p.predict s) s.response).sum := by
  induction samples with
  | nil => rfl
  | cons s rest ih =>
    rw [List.map_cons, List.sum_cons, ← ih, mul_comm]
    rfl

theorem totalGradient_snd (family : Family) (samples : List (Sample n)) (p : Point n) :
    (family.totalGradient samples p).2 =
      (samples.map fun s => family.slopeAt (p.predict s) s.response).sum := by
  induction samples with
  | nil => rfl
  | cons s rest ih =>
    rw [List.map_cons, List.sum_cons, ← ih]
    exact congrArg (· + _) (mul_one _)

/-- At the empty model the intercept is at rest, and every coefficient is pulled by its feature. -/
theorem gradient_emptyModel {problem : Problem n} (gaussian : problem.family = .gaussian)
    (some : problem.samples ≠ []) :
    problem.gradient (emptyModel problem.samples) = (pull problem.samples, 0) := by
  unfold Problem.gradient
  rw [gaussian]
  apply Prod.ext
  · funext j
    change (problem.samples.length : ℝ)⁻¹ * (Family.gaussian.totalGradient problem.samples _).1 j
      + problem.ridge * 0 = _
    rw [totalGradient_fst, mul_zero, add_zero, ← div_eq_inv_mul]
    simp only [predict_emptyModel]
    rfl
  · change (problem.samples.length : ℝ)⁻¹ * (Family.gaussian.totalGradient problem.samples _).2
      + problem.ridge * 0 = _
    rw [totalGradient_snd, mul_zero, add_zero, ← div_eq_inv_mul]
    simp only [predict_emptyModel]
    exact average_centered some Sample.response

/-- A step from the empty model comes back to it where the penalty outweighs every pull. -/
theorem proximal_emptyModel {samples : List (Sample n)} {penalty step : ℝ} (positive : 0 < step)
    (outweighs : ∀ j, |pull samples j| ≤ penalty) :
    Point.proximal penalty (pull samples, 0) (emptyModel samples) step = emptyModel samples := by
  apply Prod.ext
  · funext j
    apply softValue_of_abs_le
    change |0 - step * pull samples j| ≤ penalty * step
    rw [zero_sub, abs_neg, abs_mul, abs_of_pos positive, mul_comm]
    exact mul_le_mul_of_nonneg_right (outweighs j) positive.le
  · change average samples Sample.response - step * 0 = _
    rw [mul_zero, sub_zero]
    rfl

structure AtEmptyModel (problem : Problem n) (p : Proximal n) : Prop where
  strength : p.strength = problem.strength
  mixing : p.mixing = problem.mixing
  total : p.total = problem.samples.length
  accepted : p.accepted = emptyModel problem.samples
  momentum : p.momentum = emptyModel problem.samples
  stepSize : 0 < p.stepSize

structure ProposesItself (problem : Problem n) (p : Proximal n) : Prop where
  rests : AtEmptyModel problem p
  trial : p.trial = 1
  candidate : p.candidate = emptyModel problem.samples
  gradient : p.gradient.2 = 0

theorem AtEmptyModel.proposes {problem : Problem n} {p : Proximal n}
    (rests : AtEmptyModel problem p) (gathers : p.trial = 0)
    (gaussian : problem.family = .gaussian) (some : problem.samples ≠ [])
    (outweighs : ∀ j, |pull problem.samples j| ≤ problem.penalty) :
    ProposesItself problem (p.gathered problem.family problem.samples).finished := by
  have gathered : p.gathered problem.family problem.samples = { p with
      gradient := problem.family.totalGradient problem.samples p.momentum
      rows := problem.samples.length
      status := .inProcess } := if_pos gathers
  have penalty : p.penalty = problem.penalty := by
    unfold Proximal.penalty
    rw [rests.strength, rests.mixing]
    rfl
  have ridge : p.ridge = problem.ridge := by
    unfold Proximal.ridge
    rw [rests.strength, rests.mixing]
    rfl
  have gradient : (p.gathered problem.family problem.samples).meanGradient =
      (pull problem.samples, 0) := by
    rw [gathered]
    change (p.total : ℝ)⁻¹ • problem.family.totalGradient problem.samples p.momentum
      + p.ridge • ((p.momentum.1, 0) : Point n) = _
    rw [rests.total, ridge, rests.momentum]
    exact gradient_emptyModel gaussian some
  have candidate : Point.proximal p.penalty (pull problem.samples, 0) p.momentum p.stepSize =
      emptyModel problem.samples := by
    rw [penalty, rests.momentum]
    exact proximal_emptyModel rests.stepSize outweighs
  unfold Proximal.finished
  rw [if_pos ((p.trial_gathered _ _).trans gathers)]
  unfold Proximal.opened
  rw [gradient, gathered]
  exact ⟨⟨rests.strength, rests.mixing, rests.total, rests.accepted, rests.momentum,
    rests.stepSize⟩, rfl, candidate, rfl⟩

theorem ProposesItself.accepts {problem : Problem n} {p : Proximal n}
    (proposes : ProposesItself problem p) :
    ¬(p.gathered problem.family problem.samples).Rejects ∧
      AtEmptyModel problem (p.gathered problem.family problem.samples).finished ∧
      (p.gathered problem.family problem.samples).finished.trial = 0 := by
  have rests := proposes.rests
  have trying : p.trial ≠ 0 := by
    rw [proposes.trial]
    exact Nat.one_ne_zero
  have same : p.candidate = p.momentum := proposes.candidate.trans rests.momentum.symm
  have evaluated := p.evaluated_eq problem.family rests.total trying
  dsimp only at evaluated
  rw [if_pos proposes.trial, same] at evaluated
  have below : (p.evaluated problem.family problem.samples).candidateValue ≤
      (p.evaluated problem.family problem.samples).momentumValue +
        (p.evaluated problem.family problem.samples).increment := by
    rw [evaluated]
    unfold Proximal.increment
    dsimp only
    rw [proposes.gradient, sub_self, Prod.fst_zero, zero_dotProduct, zero_dotProduct]
    simp
  have kept : ¬(p.gathered problem.family problem.samples).Rejects :=
    fun rejects => rejects.2 below
  refine ⟨kept, ?_⟩
  cases Proximal.passed_of_gathered problem.family rests.total with
  | opened gathers _ _ _ _ => exact absurd gathers trying
  | rejected rejects _ _ _ _ => exact absurd rejects kept
  | accepted _ next keeps stepSize _ =>
    have momentum : p.accept.momentum = emptyModel problem.samples := by
      unfold Proximal.accept
      rw [proposes.candidate, rests.accepted, sub_self, smul_zero, add_zero]
    exact ⟨⟨keeps.strength.trans rests.strength, keeps.mixing.trans rests.mixing,
      keeps.total.trans rests.total, keeps.accepted.trans proposes.candidate,
      keeps.momentum.trans momentum, stepSize ▸ rests.stepSize⟩, next⟩

theorem AtEmptyModel.resumed_eq {problem : Problem n} {p : Proximal n}
    (rests : AtEmptyModel problem p) {context : StepContext Exact}
    (strength : context.strength = number problem.strength) : p.resumed context = p := by
  apply Proximal.resumed_eq
  rw [rests.strength, strength]
  rfl

structure Rests (source : Source Exact) (share : ℝ) (p : Proximal source.dimension) : Prop where
  mixing : p.mixing = share
  total : p.total = source.samples.length
  accepted : p.accepted = emptyModel source.samples
  momentum : p.momentum = emptyModel source.samples
  trial : p.trial = 0
  stepSize : 0 < p.stepSize

section Steps

variable {source : Source Exact} {weight share : ℝ} {context : StepContext Exact}
  {p : Proximal source.dimension}

theorem Rests.resumed (rests : Rests source share p) (strength : context.strength = number weight)
    (restarts : p.strength ≠ weight → 0 < context.maxStepSize) :
    AtEmptyModel ⟨.gaussian, source.samples, weight, share⟩ (p.resumed context) ∧
      (p.resumed context).trial = 0 := by
  obtain ⟨mixing, total, accepted, momentum, trial, stepSize⟩ := rests
  unfold Proximal.resumed
  rw [strength]
  split
  · next same => exact ⟨⟨same, mixing, total, accepted, momentum, stepSize⟩, trial⟩
  · next moved =>
    obtain ⟨largest, positive, given⟩ := exists_of_pos (restarts moved)
    rw [given]
    exact ⟨⟨rfl, mixing, total, accepted, accepted, positive⟩, rfl⟩

variable (small : source.dimension < UInt32.size) (some : source.samples ≠ [])
  (few : source.samples.length < UInt64.size) (strength : context.strength = number weight)
  (mode : PassMode)
include small some few strength

theorem Rests.step (rests : Rests source share p)
    (restarts : p.strength ≠ weight → 0 < context.maxStepSize)
    (outweighs : ∀ j, |pull source.samples j| ≤ weight * share) :
    Pass.step ⟨optimizer .gaussian, mode⟩ (Option.some p.slots) context source =
        .ok (p.after context .gaussian source.samples).slots ∧
      ProposesItself ⟨.gaussian, source.samples, weight, share⟩
        (p.after context .gaussian source.samples) := by
  obtain ⟨resumed, gathers⟩ := rests.resumed strength restarts
  have proposes := resumed.proposes gathers rfl some outweighs
  refine ⟨?_, proposes⟩
  apply Proximal.step_slots small some few rests.total
  · rw [strength]
    rfl
  · rw [strength]
    exact fun moved => isNumber_of_lt (restarts moved)
  · exact resumed.stepSize.ne'
  · exact fun rejects => absurd ((Proximal.trial_gathered _ _ _).trans gathers) rejects.1

theorem ProposesItself.step
    (proposes : ProposesItself ⟨.gaussian, source.samples, weight, share⟩ p) :
    Pass.step ⟨optimizer .gaussian, mode⟩ (Option.some p.slots) context source =
        .ok (p.after context .gaussian source.samples).slots ∧
      (p.after context .gaussian source.samples).strength = weight ∧
      Rests source share (p.after context .gaussian source.samples) := by
  have unmoved := proposes.rests.resumed_eq strength
  obtain ⟨kept, accepted, trial⟩ := proposes.accepts
  have stepped : p.after context .gaussian source.samples =
      (p.gathered .gaussian source.samples).finished := by
    unfold Proximal.after
    rw [unmoved]
  constructor
  · apply Proximal.step_slots small some few proposes.rests.total
    · rw [strength]
      rfl
    · rw [strength]
      exact fun moved => absurd proposes.rests.strength moved
    · rw [unmoved]
      exact proposes.rests.stepSize.ne'
    · rw [unmoved]
      exact fun rejects => absurd rejects kept
  · rw [stepped]
    exact ⟨accepted.strength, accepted.mixing, accepted.total, accepted.accepted,
      accepted.momentum, trial, accepted.stepSize⟩

end Steps

theorem Rests.passes {source : Source Exact} (small : source.dimension < UInt32.size)
    (some : source.samples ≠ []) (few : source.samples.length < UInt64.size) {weight share : ℝ}
    {contexts : ℕ → StepContext Exact} (strength : ∀ k, (contexts k).strength = number weight)
    {start : Proximal source.dimension} (rests : Rests source share start)
    (restarts : start.strength ≠ weight → 0 < (contexts 0).maxStepSize)
    (outweighs : ∀ j, |pull source.samples j| ≤ weight * share) (k : ℕ) :
    let states := start.passes contexts .gaussian source.samples
    Rests source share (states (2 * k)) ∧
      ((states (2 * k)).strength ≠ weight → 0 < (contexts (2 * k)).maxStepSize) ∧
      ProposesItself ⟨.gaussian, source.samples, weight, share⟩ (states (2 * k + 1)) := by
  intro states
  -- on the pairs of a gradient pass and an evaluation pass
  induction k with
  | zero => exact ⟨rests, restarts, (rests.step small some few (strength 0) .single restarts
      outweighs).2⟩
  | succ k ih =>
    obtain ⟨_, kept, resting⟩ := ih.2.2.step small some few (strength (2 * k + 1)) .single
    have unmoved : (states (2 * (k + 1))).strength ≠ weight →
        0 < (contexts (2 * (k + 1))).maxStepSize := fun moved => absurd kept moved
    exact ⟨resting, unmoved, (resting.step small some few (strength _) .single unmoved
      outweighs).2⟩

/-- From the empty model on, every gradient proposes the empty model, and every evaluation accepts
    it at no distance, as long as the strength is at least the largest strength of the path. -/
theorem empty_model_rests {source : Source Exact} {scales : Scales Exact}
    (measured : Scales.ofSource source = .ok scales) (some : source.samples ≠ [])
    (few : source.samples.length < UInt64.size) {share : ℝ} (low : 1e-3 ≤ share) :
    ∃ largest, Path.largestStrength scales.meanSquares scales.responseSpread (number share) =
        .ok (number largest) ∧
      scales.responseMean = number (emptyModel source.samples).2 ∧
      ∀ (contexts : ℕ → StepContext Exact) (modes : ℕ → PassMode)
        (start : Proximal source.dimension) (weight : ℝ), largest ≤ weight →
        (∀ k, (contexts k).strength = number weight) → Rests source share start →
        (start.strength ≠ weight → 0 < (contexts 0).maxStepSize) →
        ∃ states : ℕ → Proximal source.dimension, states 0 = start ∧
          (∀ k, Pass.step ⟨optimizer .gaussian, modes k⟩ (Option.some (states k).slots)
            (contexts k) source = .ok (states (k + 1)).slots) ∧
          (∀ k, (states k).accepted = emptyModel source.samples ∧
            (states k).momentum = emptyModel source.samples) ∧
          ∀ k, (states (2 * k)).trial = 0 ∧ (states (2 * k + 1)).trial = 1 ∧
            (states (2 * k + 1)).candidate = emptyModel source.samples ∧
            (optimizer .gaussian).distance (states (2 * k + 1)).slots
              (states (2 * k + 2)).slots = .ok 0 := by
  obtain ⟨features, counted, rfl⟩ := Scales.ofSource_eq_ok measured
  have small : source.dimension + 1 < UInt32.size := by
    unfold Scales.sumCount at counted
    omega
  have within : source.dimension < UInt32.size := by omega
  obtain ⟨largest, given, most⟩ := Path.largestStrength_outweighs features some low
  refine ⟨largest, given, (Scales.ofSamples_measure some).responseMean, ?_⟩
  intro contexts modes start weight above strength rests restarts
  have outweighs : ∀ j, |pull source.samples j| ≤ weight * share := by
    intro j
    have positive : (0 : ℝ) < 1e-3 := by norm_num
    exact (most j).trans (mul_le_mul_of_nonneg_right above (by linarith))
  have beat := rests.passes within some few strength restarts outweighs
  have still (k : ℕ) : Rests source share
      (start.passes contexts .gaussian source.samples (2 * k + 2)) := (beat (k + 1)).1
  refine ⟨start.passes contexts .gaussian source.samples, rfl, ?_, ?_, ?_⟩
  · intro i
    obtain ⟨k, rfl | rfl⟩ := Nat.even_or_odd' i
    · obtain ⟨resting, unmoved, _⟩ := beat k
      exact (resting.step within some few (strength _) (modes _) unmoved outweighs).1
    · exact ((beat k).2.2.step within some few (strength _) (modes _)).1
  · intro i
    obtain ⟨k, rfl | rfl⟩ := Nat.even_or_odd' i
    · exact ⟨(beat k).1.accepted, (beat k).1.momentum⟩
    · exact ⟨(beat k).2.2.rests.accepted, (beat k).2.2.rests.momentum⟩
  · intro k
    obtain ⟨resting, _, proposes⟩ := beat k
    refine ⟨resting.trial, proposes.trial, proposes.candidate, ?_⟩
    rw [distance_of_accepted small .gaussian _ (still k).trial, proposes.rests.accepted,
      (still k).accepted]
    simp only [relativeMove_self, Finset.sum_const_zero, add_zero, zero_div]
    rfl

noncomputable def twoRowsEmpty : Proximal twoRows.dimension :=
  { twoRowsStart with
    accepted := emptyModel twoRows.samples
    momentum := emptyModel twoRows.samples }

theorem empty_model_rests_twoRows : ∃ largest,
    Path.largestStrength (Scales.measure twoRows).meanSquares
      (Scales.measure twoRows).responseSpread (number (1 / 2)) = .ok (number largest) ∧
    let context : StepContext Exact :=
      { StepContext.default with strength := number largest, maxStepSize := 1 }
    ∃ states : ℕ → Proximal twoRows.dimension, states 0 = twoRowsEmpty ∧
      (∀ k, Pass.step ⟨optimizer .gaussian, .parallel⟩ (some (states k).slots) context twoRows =
        .ok (states (k + 1)).slots) ∧
      ∀ k, (states k).accepted = emptyModel twoRows.samples := by
  have two : twoRows.samples.length = 2 := rfl
  have some : twoRows.samples ≠ [] := List.cons_ne_nil _ _
  have half : (0 : ℝ) < 1 / 2 := by norm_num
  have low : (1e-3 : ℝ) ≤ 1 / 2 := by norm_num
  have few : twoRows.samples.length < UInt64.size := by
    rw [two]
    decide
  have measured : Scales.ofSource twoRows = .ok (Scales.measure twoRows) := if_neg (by decide)
  obtain ⟨largest, given, _, rests⟩ := empty_model_rests measured some few low
  refine ⟨largest, given, ?_⟩
  intro context
  obtain ⟨states, first, steps, points, _⟩ := rests (fun _ => context) (fun _ => .parallel)
    twoRowsEmpty largest le_rfl (fun _ => rfl) ⟨rfl, two.symm, rfl, rfl, rfl, half⟩
    (fun _ => zero_lt_one (α := ℝ))
  exact ⟨states, first, steps, fun k => (points k).1⟩

end ElasticNet.Fista
