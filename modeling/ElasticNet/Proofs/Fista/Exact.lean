import ElasticNet.Proofs.Fista.Objective
import ElasticNet.Proofs.Fista.Unordered
import ElasticNet.Proofs.Scales.Sums

namespace ElasticNet

open Exact Matrix

variable {n : ℕ}

namespace Family

theorem label_binomial (y : ℝ) :
    binomial.label (number y) = number (if 1 / 2 < y then 1 else -1) := by
  have split : (0.5 : Exact) < number y ↔ 1 / 2 < y := by
    rw [half_eq]
    exact number_lt _ _
  by_cases high : 1 / 2 < y
  · rw [if_pos high]
    exact if_pos (split.mpr high)
  · rw [if_neg high]
    exact if_neg (split.not.mpr high)

theorem loss_number (family : Family) (p y : ℝ) :
    family.loss (number p) (family.label (number y)) = number (family.lossAt p y) := by
  cases family with
  | gaussian =>
    change 0.5 * (number y - number p) * (number y - number p) = _
    rw [half_eq, number_sub, number_mul, number_mul]
    congr 1
    change 1 / 2 * (y - p) * (y - p) = (y - p) ^ 2 / 2
    ring
  | binomial =>
    have positive (r : ℝ) : 0 < 1 + Real.exp r := by positivity
    rw [label_binomial]
    change logisticLoss (number p) (number _) = number (Real.log (1 + Real.exp _))
    unfold logisticLoss
    rw [zero_eq, one_eq, number_neg, exp_number, exp_number, number_add, number_add,
      log_number (positive _), log_number (positive _)]
    by_cases high : 1 / 2 < y
    · rw [if_pos high, if_pos high, if_pos ((number_lt 0 1).mpr one_pos)]
    · rw [if_neg high, if_neg high, if_neg ((number_lt 0 (-1)).not.mpr (by norm_num))]

theorem derivative_number (family : Family) (p y : ℝ) :
    family.derivative (number p) (family.label (number y)) = number (family.slopeAt p y) := by
  cases family with
  | gaussian => rfl
  | binomial =>
    have nonzero (r : ℝ) : 1 + Real.exp r ≠ 0 := by positivity
    rw [label_binomial]
    change logisticSlope (number p) (number _) = number (if 1 / 2 < y then _ else _)
    unfold logisticSlope
    rw [zero_eq, one_eq, number_neg, number_neg, exp_number, exp_number, number_add, number_add,
      number_div _ (nonzero _), number_div _ (nonzero _)]
    by_cases high : 1 / 2 < y
    · rw [if_pos high, if_pos high, if_pos ((number_lt 0 1).mpr one_pos)]
    · rw [if_neg high, if_neg high, if_neg ((number_lt 0 (-1)).not.mpr (by norm_num))]

end Family

namespace Fista

/-- A state of real numbers, its counts whole numbers. -/
structure Proximal (n : ℕ) where
  strength : ℝ
  mixing : ℝ
  total : ℕ
  accepted : Point n
  momentum : Point n
  inertia : ℝ
  rows : ℕ
  gradient : Point n
  maxStepSize : ℝ
  eta : ℝ
  candidateValue : ℝ
  momentumValue : ℝ
  stepSize : ℝ
  candidate : Point n
  trial : ℕ
  logLikelihood : ℝ
  status : Status

namespace Proximal

noncomputable def state (p : Proximal n) : State Exact where
  dimension := (n : Exact)
  strength := number p.strength
  mixing := number p.mixing
  totalRows := (p.total : Exact)
  intercept := number p.accepted.2
  momentumIntercept := number p.momentum.2
  coefficients := ofVector p.accepted.1
  momentum := ofVector p.momentum.1
  inertia := number p.inertia
  rows := (p.rows : Exact)
  gradient := ofVector p.gradient.1
  maxStepSize := number p.maxStepSize
  eta := number p.eta
  candidateValue := number p.candidateValue
  momentumValue := number p.momentumValue
  stepSize := number p.stepSize
  candidate := ofVector p.candidate.1
  candidateIntercept := number p.candidate.2
  interceptGradient := number p.gradient.2
  trial := (p.trial : Exact)
  logLikelihood := number p.logLikelihood
  status := p.status.slot

noncomputable def slots (p : Proximal n) : Slots Exact :=
  layout.write p.state

theorem sized (p : Proximal n) (small : n < UInt32.size) : p.state.Sized n :=
  ⟨Scalar.KeepsCounts.toUInt32_natCast n small, length_ofVector _, length_ofVector _,
    length_ofVector _, length_ofVector _⟩

theorem view?_slots (small : n < UInt32.size) (p : Proximal n) :
    layout.view? p.slots = some p.state :=
  (readsBack (p.sized small)).view?

theorem toNat_trials (p : Proximal n) : p.state.trials.toNat = min p.trial (UInt32.size - 1) :=
  toNat_toUInt32 p.trial

@[simp]
theorem trials_eq_zero (p : Proximal n) : p.state.trials = 0 ↔ p.trial = 0 :=
  toUInt32_eq_zero p.trial

@[simp]
theorem trials_eq_one (p : Proximal n) : p.state.trials = 1 ↔ p.trial = 1 := by
  rw [← UInt32.toNat_inj, toNat_trials]
  change min p.trial (2 ^ 32 - 1) = 1 ↔ _
  omega

noncomputable def resumed (p : Proximal n) (context : StepContext Exact) : Proximal n :=
  if p.strength = context.strength.value then p
  else
    { p with
      strength := context.strength.value
      momentum := p.accepted
      inertia := 1
      stepSize := context.maxStepSize.value
      trial := 0 }

noncomputable def gathered (family : Family) (p : Proximal n) (samples : List (Sample n)) :
    Proximal n :=
  if p.trial = 0 then
    { p with
      gradient := family.totalGradient samples p.momentum
      rows := samples.length
      status := .inProcess }
  else
    { p with
      candidateValue := family.totalLoss samples p.candidate
      momentumValue :=
        if p.trial = 1 then family.totalLoss samples p.momentum else p.momentumValue
      rows := samples.length
      status := .inProcess }

theorem predict_momentum (p : Proximal n) (s : Sample n) :
    p.state.momentumPredictor (ofVector s.features) = number (p.momentum.predict s) := by
  change number _ + Vector.sparseDot (ofVector _) _ = _
  rw [sparseDot_ofVector, number_add]
  rfl

theorem predict_candidate (p : Proximal n) (s : Sample n) :
    p.state.candidatePredictor (ofVector s.features) = number (p.candidate.predict s) := by
  change number _ + Vector.sparseDot (ofVector _) _ = _
  rw [sparseDot_ofVector, number_add]
  rfl

theorem resumed_state (p : Proximal n) {context : StepContext Exact}
    (known : context.strength.isNumber = true)
    (restarts : p.strength ≠ context.strength.value → context.maxStepSize.isNumber = true) :
    (if p.state.strength != context.strength then p.state.restart context else p.state) =
      (p.resumed context).state := by
  obtain ⟨strength, given⟩ := exists_number known
  have moved : (p.state.strength != context.strength) = decide (p.strength ≠ strength) := by
    rw [given]
    exact number_bne _ _
  rw [given] at restarts
  change p.strength ≠ strength → _ at restarts
  unfold resumed
  rw [moved, given]
  change _ = state (if p.strength = strength then _ else _)
  by_cases kept : p.strength = strength
  · rw [if_pos kept, if_neg (by simpa using kept)]
  · obtain ⟨stepSize, largest⟩ := exists_number (restarts kept)
    rw [if_neg kept, if_pos (by simpa using kept)]
    unfold State.restart
    rw [given, largest]
    simp only [state, natCast_zero]
    rfl

theorem begin_state (p : Proximal n) {context : StepContext Exact}
    (known : context.strength.isNumber = true)
    (restarts : p.strength ≠ context.strength.value → context.maxStepSize.isNumber = true)
    (family : Family) :
    p.state.begin context = ((p.resumed context).gathered family []).state := by
  unfold State.begin
  rw [resumed_state p known restarts]
  generalize p.resumed context = q
  unfold gathered
  dsimp only
  by_cases gathers : q.trial = 0
  · have cleared : (ofVector q.gradient.1).map (fun _ => (0 : Exact)) = ofVector 0 :=
      map_ofVector (fun _ => 0) (fun _ => 0) (fun _ => rfl) _
    simp only [trials_eq_zero, gathers, if_true]
    simp only [state, cleared, gathers, natCast_zero, Family.totalGradient_nil, List.length_nil]
    rfl
  · simp only [trials_eq_zero, trials_eq_one, gathers, if_false]
    simp only [state, natCast_zero, Family.totalLoss_nil, List.length_nil, apply_ite number]
    rfl

theorem transition_state (p : Proximal n) (family : Family) (samples : List (Sample n))
    (s : Sample n) :
    (p.gathered family samples).state.transition family (ofVector s.features) (number s.response) =
      (p.gathered family (samples ++ [s])).state := by
  have counted : ((samples ++ [s]).length : Exact) = (samples.length : Exact) + 1 := by
    rw [List.length_append, List.length_singleton, natCast_add]
    exact congrArg _ (congrArg number Nat.cast_one)
  unfold State.transition gathered
  by_cases gathers : p.trial = 0
  · have added (slope : ℝ) (g : Point n) :
        List.zipWith (fun g x => g + x * number slope) (ofVector g.1) (ofVector s.features) =
          ofVector (g + slope • ((s.features, 1) : Point n)).1 := by
      refine (zipWith_ofVector _ _ (g := fun g x => g + x * slope) fun _ _ => rfl).trans ?_
      congr 1
      funext j
      exact congrArg _ (mul_comm _ _)
    have moved (slope : ℝ) (g : Point n) : number g.2 + number slope =
        number (g + slope • ((s.features, 1) : Point n)).2 :=
      congrArg (fun step => number (g.2 + step)) (mul_one slope).symm
    simp only [trials_eq_zero, gathers, if_true, predict_momentum, Family.derivative_number]
    simp only [state, counted, Family.totalGradient_append, Family.totalGradient_singleton, added,
      moved]
  · simp only [trials_eq_zero, trials_eq_one, gathers, if_false, predict_momentum,
      predict_candidate, Family.loss_number]
    simp only [state, counted, Family.totalLoss_append, Family.totalLoss_singleton]
    by_cases first : p.trial = 1
    · simp only [first, if_true, number_add]
    · simp only [first, if_false, number_add]

theorem trial_gathered (p : Proximal n) (family : Family) (samples : List (Sample n)) :
    (p.gathered family samples).trial = p.trial := by
  unfold gathered
  split
  · rfl
  · rfl

theorem gathered_fixed (p : Proximal n) (family : Family) (samples : List (Sample n)) :
    (p.gathered family samples).rows = samples.length ∧
      (p.gathered family samples).total = p.total ∧
      (p.gathered family samples).stepSize = p.stepSize ∧
      (p.gathered family samples).eta = p.eta := by
  unfold gathered
  split
  · exact ⟨rfl, rfl, rfl, rfl⟩
  · exact ⟨rfl, rfl, rfl, rfl⟩

theorem foldRows_state (p : Proximal n) (family : Family) (taken : List (Sample n))
    {rows : List (Row Exact)}
    (known : ∀ row ∈ rows, row.isComplete = true ∧ row.features.length = n) :
    (kernel family).foldRows (p.gathered family taken).state rows =
      (p.gathered family (taken ++ rows.map (Row.sample n))).state := by
  induction rows generalizing taken with
  | nil =>
    rw [List.map_nil, List.append_nil]
    rfl
  | cons row rest ih =>
    obtain ⟨complete, fitting⟩ := known row List.mem_cons_self
    obtain ⟨features, response⟩ := Row.eq_sample complete fitting
    have moved : (kernel family).transition (p.gathered family taken).state row =
        (p.gathered family (taken ++ [row.sample n])).state := by
      change State.transition family _ row.features row.response = _
      rw [features, response, transition_state]
    have rested := ih (taken ++ [row.sample n])
      (fun other later => known other (List.mem_cons_of_mem row later))
    change (kernel family).foldRows ((kernel family).transition _ row) rest = _
    rw [moved, rested, List.map_cons, List.append_assoc, List.singleton_append]

/-- Whichever way the rows are folded, a pass gathers sums over all samples. -/
theorem gather_state {source : Source Exact} (few : source.samples.length < UInt64.size)
    (p : Proximal source.dimension) {context : StepContext Exact}
    (known : context.strength.isNumber = true)
    (restarts : p.strength ≠ context.strength.value → context.maxStepSize.isNumber = true)
    (family : Family) (mode : PassMode) :
    (kernel family).gather mode p.state context source.partitions =
      ((p.resumed context).gathered family source.samples).state := by
  have complete : ∀ row ∈ source.rows.filter Row.isComplete,
      row.isComplete = true ∧ row.features.length = source.dimension := by
    intro row kept
    obtain ⟨inside, complete⟩ := List.mem_filter.mp kept
    exact ⟨complete, source.length_features inside⟩
  rw [source.length_samples] at few
  rw [gather_eq_foldRows family p.state context few, begin_state p known restarts family,
    foldRows_state _ family [] complete, List.nil_append]
  rfl

end Proximal

end Fista

end ElasticNet
