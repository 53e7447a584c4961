import ElasticNet.Proofs.Fista.Steps

namespace ElasticNet.Fista

open Exact

variable {n : ℕ}

structure Proximal.Keeps (start p : Proximal n) : Prop where
  strength : p.strength = start.strength
  mixing : p.mixing = start.mixing
  total : p.total = start.total
  accepted : p.accepted = start.accepted
  momentum : p.momentum = start.momentum
  inertia : p.inertia = start.inertia
  eta : p.eta = start.eta

structure Starts (problem : Problem n) (start : Proximal n) : Prop where
  trial : start.trial = 0
  strength : start.strength = problem.strength
  mixing : start.mixing = problem.mixing
  total : start.total = problem.samples.length
  stepSize : 0 < start.stepSize
  eta : 0 < start.eta

/-- A search that has rejected some candidates. The current one is the minimum of the model. -/
structure Tries (problem : Problem n) (start : Proximal n) (rejections : ℕ) (p : Proximal n) :
    Prop where
  keeps : start.Keeps p
  trial : p.trial = rejections + 1
  stepSize : p.stepSize = start.stepSize / start.eta ^ rejections
  gradient : p.gradient = problem.gradient start.momentum
  candidate : p.candidate = Point.proximal problem.penalty p.gradient start.momentum p.stepSize
  minimal : ∀ w, Point.model problem.penalty p.gradient start.momentum p.stepSize p.candidate ≤
    Point.model problem.penalty p.gradient start.momentum p.stepSize w
  momentumValue : rejections ≠ 0 → p.momentumValue = problem.smooth start.momentum

def BelowModel (problem : Problem n) (start p : Proximal n) : Prop :=
  problem.objective p.candidate ≤ problem.smooth start.momentum
    + Point.model problem.penalty p.gradient start.momentum p.stepSize p.candidate

/-- A candidate that is accepted: its objective is reported, and lies below the model of every point
    by the distance of that point; at the momentum point the model is the objective there. -/
structure Descends (problem : Problem n) (start before after : Proximal n) : Prop where
  accepted : after.accepted = before.candidate
  reported : after.logLikelihood = -problem.objective after.accepted
  below : ∀ w, problem.objective after.accepted
      + (w - after.accepted).inner (w - after.accepted) / (2 * before.stepSize) ≤
    problem.smooth start.momentum
      + Point.model problem.penalty before.gradient start.momentum before.stepSize w
  descends : problem.objective after.accepted ≤ problem.objective start.momentum

/-- A pass that tries a candidate: it compares the candidate with the value at the momentum point,
    and accepts it or goes on to the next one. -/
structure EndsTrial (problem : Problem n) (start : Proximal n) (rejections : ℕ)
    (before after : Proximal n) : Prop where
  momentumValue : after.momentumValue = problem.smooth start.momentum
  accepts : after.trial = 0 ↔ BelowModel problem start before
  accepted : after.trial = 0 → Descends problem start before after
  rejected : after.trial ≠ 0 → Tries problem start (rejections + 1) after

/-- States of passes from a state, the first of which opens a search. As long as no candidate was
    accepted the next pass tries the current one. -/
structure Backtracks (problem : Problem n) (pass : ℕ → Slots Exact → Except Error (Slots Exact))
    (start first : Proximal n) (run : ℕ → Proximal n) : Prop where
  starts : pass 0 start.slots = .ok (run 0).slots
  opened : Tries problem first 0 (run 0)
  continues : ∀ k, (∀ j ≤ k, (run j).trial ≠ 0) →
    pass (k + 1) (run k).slots = .ok (run (k + 1)).slots
  trials : ∀ k, (∀ j ≤ k, (run j).trial ≠ 0) →
    EndsTrial problem first k (run k) (run (k + 1))

namespace Proximal

noncomputable def after (p : Proximal n) (context : StepContext Exact) (family : Family)
    (samples : List (Sample n)) : Proximal n :=
  ((p.resumed context).gathered family samples).finished

noncomputable def evaluated (p : Proximal n) (family : Family) (samples : List (Sample n)) :
    Proximal n :=
  (p.gathered family samples).valued

/-- A pass that tries a candidate knows the objective there less the absolute penalty; the first
    one also knows it at the momentum point. -/
theorem evaluated_eq (p : Proximal n) (family : Family) {samples : List (Sample n)}
    (total : p.total = samples.length) (trying : p.trial ≠ 0) :
    let problem : Problem n := ⟨family, samples, p.strength, p.mixing⟩
    p.evaluated family samples = { p with
      candidateValue := problem.smooth p.candidate
      momentumValue := if p.trial = 1 then problem.smooth p.momentum else p.momentumValue
      rows := samples.length
      status := .inProcess } := by
  intro problem
  have value (point : Point n) :
      p.smoothValue (family.totalLoss samples point) point = problem.smooth point := by
    unfold smoothValue Problem.smooth
    rw [total]
    rfl
  have gathered : p.gathered family samples = { p with
      candidateValue := family.totalLoss samples p.candidate
      momentumValue :=
        if p.trial = 1 then family.totalLoss samples p.momentum else p.momentumValue
      rows := samples.length
      status := .inProcess } := if_neg trying
  rw [← value, ← value]
  unfold evaluated
  rw [gathered]
  unfold valued
  by_cases first : p.trial = 1
  · simp only [first, if_true]
    rfl
  · simp only [first, if_false]
    rfl

/-- The model adds the move of the intercept as the square of its gradient. -/
theorem increment_eq {p : Proximal n} (moving : p.stepSize ≠ 0)
    (intercept : p.candidate.2 = p.momentum.2 - p.stepSize * p.gradient.2) :
    p.increment = Point.model p.penalty p.gradient p.momentum p.stepSize p.candidate
      - p.penalty * p.candidate.sizes := by
  have move : (p.candidate - p.momentum).2 = -(p.stepSize * p.gradient.2) := by
    rw [Prod.snd_sub, intercept]
    ring
  unfold increment Point.model Point.inner
  dsimp only
  rw [move, dotProduct_comm]
  field_simp
  ring

end Proximal

section Search

variable {problem : Problem n} {start : Proximal n} (starts : Starts problem start)
include starts

theorem Starts.weights {p : Proximal n} (keeps : start.Keeps p) :
    p.penalty = problem.penalty ∧ p.ridge = problem.ridge := by
  unfold Proximal.penalty Proximal.ridge
  rw [keeps.strength, keeps.mixing, starts.strength, starts.mixing]
  exact ⟨rfl, rfl⟩

theorem Tries.of_candidate (penalty : 0 ≤ problem.penalty) {p : Proximal n} {rejections : ℕ}
    (keeps : start.Keeps p) (trial : p.trial = rejections + 1)
    (stepSize : p.stepSize = start.stepSize / start.eta ^ rejections)
    (gradient : p.gradient = problem.gradient start.momentum)
    (candidate : p.candidate = Point.proximal p.penalty p.gradient p.momentum p.stepSize)
    (value : rejections ≠ 0 → p.momentumValue = problem.smooth start.momentum) :
    Tries problem start rejections p := by
  have positive : 0 < p.stepSize := by
    rw [stepSize]
    exact div_pos starts.stepSize (pow_pos starts.eta rejections)
  rw [(starts.weights keeps).1, keeps.momentum] at candidate
  refine ⟨keeps, trial, stepSize, gradient, candidate, fun w => ?_, value⟩
  have best := Point.proximal_minimal penalty positive p.gradient start.momentum w
  rw [← candidate] at best
  have distance : 0 ≤ (w - p.candidate).inner (w - p.candidate) / (2 * p.stepSize) :=
    div_nonneg (Point.inner_self_nonneg _) (by linarith)
  dsimp only at best
  linarith

theorem Starts.tries (penalty : 0 ≤ problem.penalty) : Tries problem start 0
    (start.gathered problem.family problem.samples).finished := by
  have gathered : start.gathered problem.family problem.samples = { start with
      gradient := problem.family.totalGradient problem.samples start.momentum
      rows := problem.samples.length
      status := .inProcess } := if_pos starts.trial
  have same : start.Keeps start := ⟨rfl, rfl, rfl, rfl, rfl, rfl, rfl⟩
  rw [gathered]
  unfold Proximal.finished
  rw [if_pos starts.trial]
  refine Tries.of_candidate starts penalty ⟨rfl, rfl, rfl, rfl, rfl, rfl, rfl⟩ rfl ?_ ?_ rfl
    fun some => absurd rfl some
  · rw [pow_zero, div_one]
    rfl
  · change (start.total : ℝ)⁻¹ • _ + start.ridge • _ = problem.gradient start.momentum
    rw [starts.total, (starts.weights same).2]
    rfl

theorem Tries.evaluated_eq {p : Proximal n} {rejections : ℕ}
    (tries : Tries problem start rejections p) :
    p.evaluated problem.family problem.samples = { p with
      candidateValue := problem.smooth p.candidate
      momentumValue := problem.smooth start.momentum
      rows := problem.samples.length
      status := .inProcess } := by
  have trying : p.trial ≠ 0 := by
    rw [tries.trial]
    exact Nat.succ_ne_zero _
  have same : (⟨problem.family, problem.samples, p.strength, p.mixing⟩ : Problem n) = problem := by
    rw [tries.keeps.strength, tries.keeps.mixing, starts.strength, starts.mixing]
  have momentum : (if p.trial = 1 then problem.smooth p.momentum else p.momentumValue) =
      problem.smooth start.momentum := by
    -- the first trial gathers the value, the others keep it
    split
    · rw [tries.keeps.momentum]
    · next later =>
      refine tries.momentumValue fun first => later ?_
      rw [tries.trial, first]
  have evaluated := p.evaluated_eq problem.family (tries.keeps.total.trans starts.total) trying
  dsimp only at evaluated
  rwa [same, momentum] at evaluated

theorem Tries.stepSize_pos {p : Proximal n} {rejections : ℕ}
    (tries : Tries problem start rejections p) : 0 < p.stepSize := by
  rw [tries.stepSize]
  exact div_pos starts.stepSize (pow_pos starts.eta rejections)

theorem Tries.test_iff {p : Proximal n} {rejections : ℕ}
    (tries : Tries problem start rejections p) :
    problem.smooth p.candidate ≤ problem.smooth start.momentum + p.increment ↔
      BelowModel problem start p := by
  have intercept : p.candidate.2 = p.momentum.2 - p.stepSize * p.gradient.2 := by
    rw [tries.candidate, tries.keeps.momentum]
    rfl
  rw [Proximal.increment_eq (tries.stepSize_pos starts).ne' intercept,
    (starts.weights tries.keeps).1, tries.keeps.momentum, ← add_sub_assoc, le_sub_iff_add_le]
  rfl

theorem Tries.descends {p after : Proximal n} {rejections : ℕ}
    (tries : Tries problem start rejections p) (penalty : 0 ≤ problem.penalty)
    (test : BelowModel problem start p) (accepted : after.accepted = p.candidate)
    (reported : after.logLikelihood =
      -(problem.smooth p.candidate + p.penalty * p.candidate.sizes)) :
    Descends problem start p after := by
  have positive := tries.stepSize_pos starts
  have below : ∀ w, problem.objective after.accepted
      + (w - after.accepted).inner (w - after.accepted) / (2 * p.stepSize) ≤
      problem.smooth start.momentum
        + Point.model problem.penalty p.gradient start.momentum p.stepSize w := by
    intro w
    have best := Point.proximal_minimal penalty positive p.gradient start.momentum w
    rw [← tries.candidate] at best
    rw [accepted]
    unfold BelowModel at test
    dsimp only at best
    linarith
  refine ⟨accepted, ?_, below, ?_⟩
  · rw [reported, accepted, (starts.weights tries.keeps).1]
    rfl
  · have center := below start.momentum
    rw [Point.model_center] at center
    have distance : 0 ≤ (start.momentum - after.accepted).inner (start.momentum - after.accepted)
        / (2 * p.stepSize) := div_nonneg (Point.inner_self_nonneg _) (by linarith)
    change _ ≤ problem.smooth start.momentum + problem.penalty * start.momentum.sizes
    linarith

/-- A trial accepts a candidate that descends, or goes on with the next one. -/
theorem Tries.next {p : Proximal n} {rejections : ℕ} (tries : Tries problem start rejections p)
    (penalty : 0 ≤ problem.penalty) :
    EndsTrial problem start rejections p
      (p.gathered problem.family problem.samples).finished := by
  have trying : (p.gathered problem.family problem.samples).trial ≠ 0 := by
    rw [Proximal.trial_gathered, tries.trial]
    exact Nat.succ_ne_zero _
  have ended : (p.gathered problem.family problem.samples).finished =
      { (p.evaluated problem.family problem.samples).judged with status := .inProcess } :=
    congrArg (fun last : Proximal n => { last with status := .inProcess }) (if_neg trying)
  rw [ended, tries.evaluated_eq starts]
  unfold Proximal.judged
  split
  · next test =>
    have below := (tries.test_iff starts).mp test
    exact ⟨rfl, iff_of_true rfl below, fun _ => tries.descends starts penalty below rfl rfl,
      fun again => absurd rfl again⟩
  · next test =>
    have above := (tries.test_iff starts).not.mp test
    have smaller : p.stepSize / p.eta = start.stepSize / start.eta ^ (rejections + 1) := by
      rw [tries.stepSize, tries.keeps.eta, div_div, pow_succ]
    refine ⟨rfl, iff_of_false (Nat.succ_ne_zero _) above, fun done => absurd done
      (Nat.succ_ne_zero _), fun _ => ?_⟩
    refine Tries.of_candidate starts penalty ?_ ?_ smaller tries.gradient rfl fun _ => rfl
    · exact ⟨tries.keeps.strength, tries.keeps.mixing, tries.keeps.total, tries.keeps.accepted,
        tries.keeps.momentum, tries.keeps.inertia, tries.keeps.eta⟩
    · exact congrArg (· + 1) tries.trial

end Search

namespace Proximal

theorem resumed_total (p : Proximal n) (context : StepContext Exact) :
    (p.resumed context).total = p.total := by
  unfold resumed
  split
  · rfl
  · rfl

theorem step_slots {source : Source Exact} (small : source.dimension < UInt32.size)
    (rows : source.samples ≠ []) (few : source.samples.length < UInt64.size)
    {p : Proximal source.dimension} (total : p.total = source.samples.length)
    {context : StepContext Exact} (known : context.strength.isNumber = true)
    (restarts : p.strength ≠ context.strength.value → context.maxStepSize.isNumber = true)
    (family : Family) (mode : PassMode) (moving : (p.resumed context).stepSize ≠ 0)
    (shrinking : ((p.resumed context).gathered family source.samples).Rejects →
      (p.resumed context).eta ≠ 0) :
    Pass.step ⟨optimizer family, mode⟩ (some p.slots) context source =
      .ok (p.after context family source.samples).slots := by
  obtain ⟨rowsKept, totalKept, stepSizeKept, etaKept⟩ :=
    gathered_fixed (p.resumed context) family source.samples
  have some : source.samples.length ≠ 0 := mt List.length_eq_zero_iff.mp rows
  have gathered := gather_state few p known restarts family mode
  have ended : State.finalize ((p.resumed context).gathered family source.samples).state =
      (p.after context family source.samples).state := by
    rw [resumed_total, total] at totalKept
    apply finalize_state
    · rwa [rowsKept]
    · rwa [totalKept]
    · rwa [totalKept]
    · rwa [stepSizeKept]
    · rwa [etaKept]
  have passed : (kernel family).pass mode p.state context source.partitions =
      (p.after context family source.samples).state := by
    unfold Kernel.pass
    rw [gathered]
    exact ended
  have stepped := ((carriedOut family source.dimension).step rfl (p.sized small) mode context).2
  rwa [passed] at stepped

noncomputable def run (p : Proximal n) (contexts : ℕ → StepContext Exact) (family : Family)
    (samples : List (Sample n)) : ℕ → Proximal n
  | 0 => p.after (contexts 0) family samples
  | k + 1 => (run p contexts family samples k).after (contexts (k + 1)) family samples

theorem resumed_eq {p : Proximal n} {context : StepContext Exact}
    (same : p.strength = context.strength.value) : p.resumed context = p :=
  if_pos same

end Proximal

theorem Starts.resumed {start : Proximal n} {context : StepContext Exact}
    (family : Family) {samples : List (Sample n)} (trial : start.trial = 0)
    (total : start.total = samples.length) (stepSize : 0 < start.stepSize) (eta : 0 < start.eta)
    (restarts : start.strength ≠ context.strength.value → 0 < context.maxStepSize) :
    Starts ⟨family, samples, context.strength.value, start.mixing⟩ (start.resumed context) := by
  by_cases kept : start.strength = context.strength.value
  · rw [Proximal.resumed_eq kept]
    exact ⟨trial, kept, rfl, total, stepSize, eta⟩
  · obtain ⟨largest, positive, given⟩ := exists_of_pos (restarts kept)
    unfold Proximal.resumed
    rw [if_neg kept, given]
    exact ⟨rfl, rfl, rfl, total, positive, eta⟩

section Runs

variable {problem : Problem n} {start : Proximal n} {contexts : ℕ → StepContext Exact}
  (starts : Starts problem (start.resumed (contexts 0)))
  (same : ∀ k, (contexts k).strength.value = problem.strength)
include starts same

theorem Tries.resumed {p : Proximal n} {rejections : ℕ}
    (tries : Tries problem (start.resumed (contexts 0)) rejections p) (k : ℕ) :
    p.resumed (contexts k) = p := by
  apply Proximal.resumed_eq
  rw [tries.keeps.strength, starts.strength, same]

theorem Tries.after {p : Proximal n} {rejections : ℕ}
    (tries : Tries problem (start.resumed (contexts 0)) rejections p)
    (penalty : 0 ≤ problem.penalty) (k : ℕ) :
    EndsTrial problem (start.resumed (contexts 0)) rejections p
      (p.after (contexts k) problem.family problem.samples) := by
  unfold Proximal.after
  rw [tries.resumed starts same]
  exact tries.next starts penalty

theorem Starts.tries_run (penalty : 0 ≤ problem.penalty) (k : ℕ)
    (trying : ∀ j ≤ k, (start.run contexts problem.family problem.samples j).trial ≠ 0) :
    Tries problem (start.resumed (contexts 0)) k
      (start.run contexts problem.family problem.samples k) := by
  -- on the passes: one that has rejected its candidate leaves a search
  induction k with
  | zero => exact starts.tries penalty
  | succ k ih =>
    have tries := ih fun j within => trying j (Nat.le_succ_of_le within)
    exact (tries.after starts same penalty (k + 1)).rejected (trying (k + 1) le_rfl)

end Runs

theorem Starts.backtracks {family : Family} {source : Source Exact}
    (small : source.dimension < UInt32.size) (rows : source.samples ≠ [])
    (few : source.samples.length < UInt64.size) {start : Proximal source.dimension}
    {contexts : ℕ → StepContext Exact} (modes : ℕ → PassMode)
    (starts : Starts ⟨family, source.samples, (contexts 0).strength.value, start.mixing⟩
      (start.resumed (contexts 0)))
    (total : start.total = source.samples.length) (mixing : 0 ≤ start.mixing)
    (strength : 0 ≤ (contexts 0).strength)
    (same : ∀ k, (contexts k).strength = (contexts 0).strength)
    (restarts : start.strength ≠ (contexts 0).strength.value → 0 < (contexts 0).maxStepSize) :
    Backtracks ⟨family, source.samples, (contexts 0).strength.value, start.mixing⟩
      (fun k slots => Pass.step ⟨optimizer family, modes k⟩ (some slots) (contexts k) source)
      start (start.resumed (contexts 0)) (start.run contexts family source.samples) := by
  obtain ⟨weight, nonnegative, given⟩ := exists_of_nonneg strength
  have known (k : ℕ) : (contexts k).strength.isNumber = true := by
    rw [same, given]
    rfl
  have values (k : ℕ) : (contexts k).strength.value = (contexts 0).strength.value :=
    congrArg value (same k)
  have penalty : 0 ≤ (contexts 0).strength.value * start.mixing := by
    rw [given]
    exact mul_nonneg nonnegative mixing
  have tries := starts.tries_run values penalty
  refine ⟨?_, starts.tries penalty, ?_, ?_⟩
  · refine Proximal.step_slots small rows few total (known 0) ?_ family (modes 0)
      starts.stepSize.ne' fun _ => starts.eta.ne'
    intro moved
    obtain ⟨largest, -, given⟩ := exists_of_pos (restarts moved)
    rw [given]
    rfl
  · intro k trying
    have current := tries k trying
    have unmoved := current.resumed starts values (k + 1)
    refine Proximal.step_slots small rows few (current.keeps.total.trans starts.total)
      (known (k + 1)) ?_ family (modes (k + 1)) ?_ ?_
    · intro moved
      exact absurd (current.keeps.strength.trans
        (starts.strength.trans (values (k + 1)).symm)) moved
    · rw [unmoved]
      exact (current.stepSize_pos starts).ne'
    · rw [unmoved, current.keeps.eta]
      exact fun _ => starts.eta.ne'
  · intro k trying
    exact (tries k trying).after starts values penalty (k + 1)

/-- A search by backtracking, in passes of either mode at one strength: every candidate is the
    minimum of its model, and the one that is accepted lowers the objective and reports it. -/
theorem backtracking_descends (family : Family) (contexts : ℕ → StepContext Exact)
    (modes : ℕ → PassMode) {source : Source Exact} (small : source.dimension < UInt32.size)
    (rows : source.samples ≠ []) (few : source.samples.length < UInt64.size)
    (start : Proximal source.dimension)
    (trial : start.trial = 0) (total : start.total = source.samples.length)
    (mixing : 0 ≤ start.mixing) (stepSize : 0 < start.stepSize) (eta : 1 < start.eta)
    (strength : 0 ≤ (contexts 0).strength)
    (same : ∀ k, (contexts k).strength = (contexts 0).strength)
    (restarts : start.strength ≠ (contexts 0).strength.value → 0 < (contexts 0).maxStepSize) :
    ∃ run, Backtracks ⟨family, source.samples, (contexts 0).strength.value, start.mixing⟩
      (fun k slots => Pass.step ⟨optimizer family, modes k⟩ (some slots) (contexts k) source)
      start (start.resumed (contexts 0)) run := by
  have starts := Starts.resumed family trial total stepSize (zero_lt_one.trans eta) restarts
  exact ⟨_, starts.backtracks small rows few modes total mixing strength same restarts⟩

noncomputable def twoRows : Source Exact where
  dimension := 1
  partitions := [⟨1, [⟨[1], 2, ""⟩, ⟨[3], .undefined, ""⟩], by simp⟩, ⟨1, [⟨[2], 5, ""⟩], by simp⟩]
  uniform := by simp

noncomputable def twoRowsStart : Proximal twoRows.dimension where
  strength := 2
  mixing := 1 / 2
  total := 2
  accepted := (fun _ => 1, 0)
  momentum := (fun _ => 3 / 2, 0)
  inertia := 2
  rows := 2
  gradient := 0
  maxStepSize := 1
  eta := 2
  candidateValue := 0
  momentumValue := 0
  stepSize := 1 / 2
  candidate := (fun _ => 1, 0)
  trial := 0
  logLikelihood := 0
  status := .completed

theorem twoRows_descends :
    let context : StepContext Exact := { StepContext.default with strength := 1, maxStepSize := 1 }
    twoRows.samples.length = 2 ∧ ∃ run, Backtracks ⟨.gaussian, twoRows.samples, 1, 1 / 2⟩
      (fun _ slots => Pass.step ⟨optimizer .gaussian, .parallel⟩ (some slots) context twoRows)
      twoRowsStart (twoRowsStart.resumed context) run := by
  intro context
  have two : twoRows.samples.length = 2 := rfl
  have positive : (0 : ℝ) < 1 := zero_lt_one
  have half : (0 : ℝ) < 1 / 2 := by norm_num
  have more : (1 : ℝ) < 2 := one_lt_two
  have small : twoRows.dimension < UInt32.size := by decide
  refine ⟨two, backtracking_descends .gaussian (fun _ => context) (fun _ => .parallel) small ?_ ?_
    twoRowsStart rfl two.symm half.le half more positive.le (fun _ => rfl) (fun _ => positive)⟩
  · intro none
    rw [none] at two
    cases two
  · rw [two]
    decide

end ElasticNet.Fista
