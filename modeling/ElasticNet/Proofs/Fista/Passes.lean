import ElasticNet.Proofs.Fista.Backtracking
import ElasticNet.Proofs.Run.Loop

namespace ElasticNet.Fista

open Exact

variable {n : ℕ}

inductive Passed (family : Family) (samples : List (Sample n)) (before after : Proximal n) : Prop
  | opened (trial : before.trial = 0) (next : after.trial = 1) (keeps : before.Keeps after)
      (stepSize : after.stepSize = before.stepSize)
      (value : after.logLikelihood = before.logLikelihood)
  | accepted (trial : before.trial ≠ 0) (next : after.trial = 0) (keeps : before.accept.Keeps after)
      (stepSize : after.stepSize = before.stepSize)
      (value : after.logLikelihood =
        -Problem.objective ⟨family, samples, before.strength, before.mixing⟩ before.candidate)
  | rejected (rejects : (before.gathered family samples).Rejects)
      (next : after.trial = before.trial + 1) (keeps : before.Keeps after)
      (stepSize : after.stepSize = before.stepSize / before.eta)
      (value : after.logLikelihood = before.logLikelihood)

namespace Proximal

theorem passed_of_gathered {p : Proximal n} (family : Family) {samples : List (Sample n)}
    (total : p.total = samples.length) :
    Passed family samples p (p.gathered family samples).finished := by
  unfold finished
  rw [trial_gathered]
  by_cases gathers : p.trial = 0
  · rw [if_pos gathers]
    unfold gathered
    rw [if_pos gathers]
    exact .opened gathers rfl ⟨rfl, rfl, rfl, rfl, rfl, rfl, rfl⟩ rfl rfl
  · obtain ⟨known, evaluated⟩ : ∃ known, p.evaluated family samples = { p with
        candidateValue := Problem.smooth ⟨family, samples, p.strength, p.mixing⟩ p.candidate
        momentumValue := known
        rows := samples.length
        status := .inProcess } := ⟨_, p.evaluated_eq family total gathers⟩
    unfold Proximal.evaluated at evaluated
    rw [if_neg gathers]
    unfold judged
    split
    · rw [evaluated]
      exact .accepted gathers rfl ⟨rfl, rfl, rfl, rfl, rfl, rfl, rfl⟩ rfl rfl
    · next above =>
      have rejects : (p.gathered family samples).Rejects :=
        ⟨by rwa [trial_gathered], above⟩
      rw [evaluated]
      exact .rejected rejects rfl ⟨rfl, rfl, rfl, rfl, rfl, rfl, rfl⟩ rfl rfl

noncomputable def passes (p : Proximal n) (contexts : ℕ → StepContext Exact) (family : Family)
    (samples : List (Sample n)) : ℕ → Proximal n
  | 0 => p
  | i + 1 => (passes p contexts family samples i).after (contexts i) family samples

theorem passed_after {p : Proximal n} (context : StepContext Exact) (family : Family)
    {samples : List (Sample n)} (total : p.total = samples.length) :
    Passed family samples (p.resumed context) (p.after context family samples) :=
  passed_of_gathered family ((p.resumed_total context).trans total)

theorem strength_resumed (p : Proximal n) (context : StepContext Exact) :
    (p.resumed context).strength = context.strength.value := by
  unfold resumed
  split
  · assumption
  · rfl

end Proximal

noncomputable def relativeMove (before after : ℝ) : ℝ :=
  if |after| ≠ 0 then |before - after| / |after| else |before - after|

theorem relativeChange_number (before after : ℝ) :
    relativeChange (number before) (number after) = number (relativeMove before after) := by
  unfold relativeChange relativeMove
  dsimp only
  rw [number_sub, abs_number, abs_number, zero_eq, number_bne]
  by_cases zero : |after| = 0
  · simp [zero]
  · simp [zero, number_div _ zero]

theorem relativeMove_self (x : ℝ) : relativeMove x x = 0 := by
  unfold relativeMove
  rw [sub_self, abs_zero, zero_div, ite_self]

theorem meanChange_number (small : n + 1 < UInt32.size) (before after : Point n) :
    meanChange (Scalar.toUInt32 (n : Exact)) (ofVector before.1) (ofVector after.1)
        (number before.2) (number after.2) =
      number ((∑ j, relativeMove (before.1 j) (after.1 j) + relativeMove before.2 after.2)
        / (n + 1)) := by
  have counted : (Scalar.toUInt32 (n : Exact) + 1).toNat = n + 1 := by
    have kept : (Scalar.toUInt32 (n : Exact)).toNat = n :=
      Scalar.KeepsCounts.toUInt32_natCast n (by omega)
    rw [UInt32.toNat_add, kept]
    exact Nat.mod_eq_of_lt small
  have positive : ((n + 1 : ℕ) : ℝ) ≠ 0 := Nat.cast_ne_zero.mpr (Nat.succ_ne_zero n)
  unfold meanChange
  rw [zipWith_ofVector _ _ relativeChange_number, counted]
  dsimp only
  rw [zero_eq, foldl_ofVector, relativeChange_number, number_add, natCast_eq,
    number_div _ positive, zero_add, Nat.cast_add_one]

theorem distance_of_trying (small : n < UInt32.size) (family : Family) (p : Proximal n)
    {after : Proximal n} (trying : after.trial ≠ 0) :
    (optimizer family).distance p.slots after.slots = .ok trialDistance := by
  have tries : 0 < after.state.trials :=
    UInt32.pos_iff_ne_zero.mpr ((Proximal.trials_eq_zero after).not.mpr trying)
  have lengths : p.state.coefficients.length ≤ after.state.coefficients.length :=
    Nat.le_of_eq ((length_ofVector _).trans (length_ofVector _).symm)
  change Fista.distance p.slots after.slots = _
  unfold Fista.distance
  rw [Proximal.view?_slots small, Proximal.view?_slots small]
  dsimp only
  rw [if_pos lengths]
  exact congrArg Except.ok (if_pos tries)

theorem distance_of_accepted (small : n + 1 < UInt32.size) (family : Family) (p : Proximal n)
    {after : Proximal n} (accepted : after.trial = 0) :
    (optimizer family).distance p.slots after.slots = .ok (number
      ((∑ j, relativeMove (p.accepted.1 j) (after.accepted.1 j)
        + relativeMove p.accepted.2 after.accepted.2) / (n + 1))) := by
  have within : n < UInt32.size := by omega
  have rested : ¬0 < after.state.trials := by
    rw [(Proximal.trials_eq_zero after).mpr accepted]
    decide
  have lengths : p.state.coefficients.length ≤ after.state.coefficients.length :=
    Nat.le_of_eq ((length_ofVector _).trans (length_ofVector _).symm)
  rw [← meanChange_number small]
  change Fista.distance p.slots after.slots = _
  unfold Fista.distance
  rw [Proximal.view?_slots within, Proximal.view?_slots within]
  dsimp only
  rw [if_pos lengths]
  exact congrArg Except.ok (if_neg rested)

/-- A run of proximal steps over some samples, with settings that can be fitted with. -/
structure WellPosed (family : Family) (run : Run Exact) : Prop where
  optimizer : run.pass.optimizer = optimizer family
  dimension : run.context.dimension = run.source.dimension
  features : run.source.dimension ≠ 0
  small : slotCount run.source.dimension < UInt32.size
  rows : run.source.samples ≠ []
  few : run.source.samples.length < UInt64.size
  total : run.context.totalRows = run.source.samples.length
  mixing : 0 ≤ run.context.mixing
  share : run.context.mixing ≤ 1
  maxStepSize : 0 < run.context.maxStepSize
  eta : 1 < run.context.eta
  strengths : ∀ strength ∈ run.path.strengths, 0 ≤ strength

noncomputable def problemAt (family : Family) (run : Run Exact) (weight : ℝ) :
    Problem run.source.dimension :=
  ⟨family, run.source.samples, weight, run.context.mixing.value⟩

noncomputable def Proximal.initial (n : ℕ) (context : StepContext Exact) : Proximal n where
  strength := context.strength.value
  mixing := context.mixing.value
  total := context.totalRows
  accepted := 0
  momentum := 0
  inertia := 1
  rows := 0
  gradient := 0
  maxStepSize := context.maxStepSize.value
  eta := context.eta.value
  candidateValue := 0
  momentumValue := 0
  stepSize := context.maxStepSize.value
  candidate := 0
  trial := 0
  logLikelihood := 0
  status := .inProcess

theorem initial_slots (family : Family) {context : StepContext Exact}
    (fitting : context.dimension = n) (features : n ≠ 0) (small : slotCount n < UInt32.size)
    (strength : context.strength.isNumber = true) (mixing : context.mixing.isNumber = true)
    (maxStepSize : context.maxStepSize.isNumber = true) (eta : context.eta.isNumber = true) :
    (Fista.optimizer family).initial context = .ok (Proximal.initial n context).slots := by
  subst fitting
  have written : layout.write (initialState context) =
      (Proximal.initial context.dimension context).slots := by
    obtain ⟨weight, known⟩ := exists_number strength
    obtain ⟨share, mixed⟩ := exists_number mixing
    obtain ⟨largest, longest⟩ := exists_number maxStepSize
    obtain ⟨factor, shrinks⟩ := exists_number eta
    unfold Proximal.slots Proximal.state Proximal.initial initialState
    simp only [known, mixed, longest, shrinks, zeros_eq, natCast_zero, value]
    rfl
  rw [← written]
  exact (if_neg features).trans (if_pos small)

noncomputable def contextAlong (run : Run Exact) (positions : ℕ → ℕ) (i : ℕ) : StepContext Exact :=
  { run.context with strength := run.path.strengths.getD (positions i - 1) 0 }

theorem contextAlong_eq {run : Run Exact} {positions : ℕ → ℕ} {i : ℕ} {strength : Exact}
    (stands : run.path.strengths[positions i - 1]? = some strength) :
    contextAlong run positions i = { run.context with strength := strength } := by
  unfold contextAlong
  rw [List.getD_eq_getElem?_getD, stands, Option.getD_some]

noncomputable def trace (family : Family) (run : Run Exact) (positions : ℕ → ℕ) :
    ℕ → Proximal run.source.dimension :=
  (Proximal.initial run.source.dimension (contextAlong run positions 0)).passes
    (contextAlong run positions) family run.source.samples

structure Within (run : Run Exact) (p : Proximal run.source.dimension) : Prop where
  total : p.total = run.source.samples.length
  mixing : p.mixing = run.context.mixing.value
  eta : p.eta = run.context.eta.value
  stepSize : 0 < p.stepSize
  largest : p.stepSize ≤ run.context.maxStepSize.value

namespace WellPosed

variable {family : Family} {run : Run Exact} (posed : WellPosed family run)
include posed

theorem dimension_lt : run.source.dimension < UInt32.size :=
  lt_of_slotCount_lt posed.small

theorem maxStepSize_pos : 0 < run.context.maxStepSize.value :=
  (value_of_lt posed.maxStepSize).2

theorem one_lt_eta : 1 < run.context.eta.value :=
  (value_of_lt posed.eta).2

theorem within_resumed {p : Proximal run.source.dimension} (within : Within run p)
    {context : StepContext Exact} (same : context.maxStepSize = run.context.maxStepSize) :
    Within run (p.resumed context) := by
  unfold Proximal.resumed
  split
  · exact within
  · refine ⟨within.total, within.mixing, within.eta, ?_, ?_⟩
    · simpa only [same] using posed.maxStepSize_pos
    · simp only [same, le_refl]

theorem within_passed {before after : Proximal run.source.dimension}
    (passed : Passed family run.source.samples before after) (within : Within run before) :
    Within run after := by
  have more := posed.one_lt_eta
  cases passed with
  | opened _ _ keeps stepSize _ =>
    exact ⟨keeps.total.trans within.total, keeps.mixing.trans within.mixing,
      keeps.eta.trans within.eta, stepSize ▸ within.stepSize, stepSize ▸ within.largest⟩
  | accepted _ _ keeps stepSize _ =>
    exact ⟨keeps.total.trans within.total, keeps.mixing.trans within.mixing,
      keeps.eta.trans within.eta, stepSize ▸ within.stepSize, stepSize ▸ within.largest⟩
  | rejected _ _ keeps stepSize _ =>
    rw [within.eta] at stepSize
    refine ⟨keeps.total.trans within.total, keeps.mixing.trans within.mixing,
      keeps.eta.trans within.eta, ?_, ?_⟩
    · rw [stepSize]
      exact div_pos within.stepSize (by linarith)
    · rw [stepSize]
      exact (div_le_self within.stepSize.le more.le).trans within.largest

theorem within_trace (positions : ℕ → ℕ) (i : ℕ) : Within run (trace family run positions i) := by
  induction i with
  | zero => exact ⟨posed.total, rfl, rfl, posed.maxStepSize_pos, le_refl _⟩
  | succ i ih =>
    have resumed := posed.within_resumed ih (rfl : (contextAlong run positions i).maxStepSize = _)
    exact posed.within_passed (Proximal.passed_after _ family ih.total) resumed

theorem strength_nonneg (positions : ℕ → ℕ) (i : ℕ) :
    0 ≤ (contextAlong run positions i).strength := by
  unfold contextAlong
  rw [List.getD_eq_getElem?_getD]
  cases stands : run.path.strengths[positions i - 1]? with
  | none => exact le_refl (0 : ℝ)
  | some strength => exact posed.strengths strength (List.mem_of_getElem? stands)

theorem step_trace (positions : ℕ → ℕ) (i : ℕ) :
    run.pass.step (some (trace family run positions i).slots) (contextAlong run positions i)
      run.source = .ok (trace family run positions (i + 1)).slots := by
  have within := posed.within_trace positions i
  have resumed := posed.within_resumed within
    (rfl : (contextAlong run positions i).maxStepSize = _)
  have shrinking : ((trace family run positions i).resumed (contextAlong run positions i)).eta ≠
      0 := by
    rw [resumed.eta]
    linarith [posed.one_lt_eta]
  have stepped := Proximal.step_slots posed.dimension_lt posed.rows posed.few within.total
    (isNumber_of_le (posed.strength_nonneg positions i))
    (fun _ => isNumber_of_lt posed.maxStepSize) family run.pass.mode
    resumed.stepSize.ne' fun _ => shrinking
  rwa [← posed.optimizer] at stepped

theorem baseline_trace (positions : ℕ → ℕ) :
    run.pass.baseline (contextAlong run positions 0) =
      .ok (trace family run positions 0).slots := by
  have same : (contextAlong run positions 0).dimension = run.source.dimension := posed.dimension
  unfold Pass.baseline
  rw [posed.optimizer]
  exact initial_slots family same posed.features posed.small
    (isNumber_of_le (posed.strength_nonneg positions 0)) (isNumber_of_le posed.mixing)
    (isNumber_of_lt posed.maxStepSize) (isNumber_of_lt posed.eta)

theorem states_eq {states : ℕ → Slots Exact} {positions : ℕ → ℕ} {count : ℕ}
    (follows : run.Follows states positions count) :
    ∀ i ≤ count, states i = (trace family run positions i).slots := by
  intro i
  induction i with
  | zero =>
    intro _
    obtain ⟨strength, stands, given⟩ := follows.baseline
    have first : run.path.strengths[positions 0 - 1]? = some strength := by rwa [follows.first]
    rw [← contextAlong_eq first, posed.baseline_trace positions] at given
    exact (Except.ok.inj given).symm
  | succ i ih =>
    intro inside
    obtain ⟨strength, stands, stepped⟩ := follows.steps i inside
    rw [← contextAlong_eq stands, ih (Nat.le_of_lt inside), posed.step_trace positions i] at stepped
    exact (Except.ok.inj stepped).symm

end WellPosed

end ElasticNet.Fista
