import ElasticNet.Proofs.Fista.Curvature
import ElasticNet.Proofs.Fista.Passes
import ElasticNet.Proofs.Reliable
import Mathlib.Algebra.Order.Archimedean.Basic

namespace ElasticNet.Fista

open Exact

variable {n : ℕ}

theorem Tries.belowModel {problem : Problem n} {start p : Proximal n} {rejections : ℕ}
    (tries : Tries problem start rejections p) (gaussian : problem.family = .gaussian)
    (ridge : 0 ≤ problem.ridge) (positive : 0 < p.stepSize)
    (short : p.stepSize * problem.curvature ≤ 1) : BelowModel problem start p := by
  unfold BelowModel
  rw [tries.gradient]
  exact problem.objective_le_model gaussian ridge positive short start.momentum p.candidate

def Searches (family : Family) (samples : List (Sample n)) (p : Proximal n) : Prop :=
  p.trial ≠ 0 → ∃ start rejections,
    Starts ⟨family, samples, p.strength, p.mixing⟩ start ∧
    Tries ⟨family, samples, p.strength, p.mixing⟩ start rejections p

theorem Proximal.resumed_of_trial {p : Proximal n} {context : StepContext Exact}
    (trying : (p.resumed context).trial ≠ 0) : p.resumed context = p := by
  unfold resumed at trying ⊢
  split at trying
  · next same => rw [if_pos same]
  · exact absurd rfl trying

theorem Searches.gathered {family : Family} {samples : List (Sample n)} {p : Proximal n}
    (searches : Searches family samples p) (penalty : 0 ≤ p.strength * p.mixing)
    (total : p.total = samples.length) (stepSize : 0 < p.stepSize) (eta : 0 < p.eta) :
    Searches family samples (p.gathered family samples).finished := by
  intro trying
  by_cases gathers : p.trial = 0
  · have starts : Starts ⟨family, samples, p.strength, p.mixing⟩ p :=
      ⟨gathers, rfl, rfl, total, stepSize, eta⟩
    have tries := starts.tries penalty
    rw [tries.keeps.strength, tries.keeps.mixing]
    exact ⟨p, 0, starts, tries⟩
  · obtain ⟨start, rejections, starts, tries⟩ := searches gathers
    have next := (tries.next starts penalty).rejected trying
    rw [next.keeps.strength, next.keeps.mixing, starts.strength, starts.mixing]
    exact ⟨start, rejections + 1, starts, next⟩

namespace WellPosed

variable {run : Run Exact}

theorem searches_trace {family : Family} (posed : WellPosed family run) (positions : ℕ → ℕ)
    (i : ℕ) :
    Searches family run.source.samples (trace family run positions i) := by
  induction i with
  | zero => exact fun trying => absurd rfl trying
  | succ i ih =>
    have within := posed.within_resumed (posed.within_trace positions i)
      (rfl : (contextAlong run positions i).maxStepSize = _)
    have resumed : Searches family run.source.samples
        ((trace family run positions i).resumed (contextAlong run positions i)) := by
      intro trying
      have kept := Proximal.resumed_of_trial trying
      rw [kept] at trying ⊢
      exact ih trying
    obtain ⟨weight, nonnegative, strength⟩ := exists_of_nonneg (posed.strength_nonneg positions i)
    obtain ⟨share, mixed, mixing⟩ := exists_of_nonneg posed.mixing
    refine resumed.gathered ?_ within.total within.stepSize ?_
    · rw [Proximal.strength_resumed, within.mixing, strength, mixing]
      exact mul_nonneg nonnegative mixed
    · rw [within.eta]
      linarith [posed.one_lt_eta]

variable (posed : WellPosed .gaussian run)
include posed

theorem ridge_nonneg {weight : ℝ} (nonnegative : 0 ≤ weight) :
    0 ≤ (problemAt .gaussian run weight).ridge := by
  obtain ⟨share, mixed, mixing⟩ := exists_of_nonneg posed.mixing
  have atMost := posed.share
  rw [mixing, one_eq, number_le] at atMost
  unfold Problem.ridge problemAt
  rw [mixing]
  exact mul_nonneg nonnegative (sub_nonneg.mpr atMost)

/-- A pass that rejects a candidate is one at the strength of the state, whose step size was too
    large. -/
theorem of_retried {positions : ℕ → ℕ} {i : ℕ} {p after : Proximal run.source.dimension}
    (before : trace .gaussian run positions i = p)
    (passed : trace .gaussian run positions (i + 1) = after) (trying : p.trial ≠ 0)
    (next : after.trial = p.trial + 1) :
    p.strength = (contextAlong run positions i).strength.value ∧ after.strength = p.strength ∧
      after.stepSize = p.stepSize / run.context.eta.value ∧
      1 < p.stepSize * (problemAt .gaussian run p.strength).curvature := by
  have within := posed.within_trace positions i
  have searches := posed.searches_trace positions i
  have strength := p.strength_resumed (contextAlong run positions i)
  obtain ⟨weight, nonnegative, known⟩ := exists_of_nonneg (posed.strength_nonneg positions i)
  obtain ⟨share, mixed, mixing⟩ := exists_of_nonneg posed.mixing
  rw [before] at within searches
  rw [known] at strength
  have step : p.after (contextAlong run positions i) .gaussian run.source.samples = after := by
    rw [← passed, ← before]
    rfl
  have outcome := Proximal.passed_after (contextAlong run positions i) .gaussian within.total
  rw [step] at outcome
  cases outcome with
  | opened _ opens _ _ _ => omega
  | accepted _ closes _ _ _ => omega
  | rejected rejects _ keeps stepSize _ =>
    have kept := Proximal.resumed_of_trial ((Proximal.trial_gathered _ _ _).symm.trans_ne rejects.1)
    rw [kept] at keeps stepSize strength
    refine ⟨strength.trans (congrArg value known.symm), keeps.strength, within.eta ▸ stepSize, ?_⟩
    by_contra short
    obtain ⟨start, rejections, starts, tries⟩ := searches trying
    rw [within.mixing] at starts tries
    have ridge : 0 ≤ (problemAt .gaussian run p.strength).ridge :=
      posed.ridge_nonneg (strength ▸ nonnegative)
    have penalty : 0 ≤ (problemAt .gaussian run p.strength).penalty := by
      unfold Problem.penalty problemAt
      rw [strength, mixing]
      exact mul_nonneg nonnegative mixed
    have below := tries.belowModel rfl ridge within.stepSize (not_lt.mp short)
    have accepts := (tries.next starts penalty).accepts.mpr below
    unfold Proximal.after at step
    rw [kept] at step
    rw [← step] at next
    exact absurd (next.symm.trans accepts) (Nat.succ_ne_zero _)

theorem retried_run {positions : ℕ → ℕ} {i m : ℕ}
    (retried : ∀ j < m, (trace .gaussian run positions (i + j)).trial ≠ 0 ∧
      (trace .gaussian run positions (i + j + 1)).trial =
        (trace .gaussian run positions (i + j)).trial + 1) :
    ∀ j ≤ m, (trace .gaussian run positions (i + j)).strength =
        (trace .gaussian run positions i).strength ∧
      (trace .gaussian run positions (i + j)).stepSize =
        (trace .gaussian run positions i).stepSize / run.context.eta.value ^ j := by
  intro j
  induction j with
  | zero =>
    intro _
    rw [pow_zero, div_one]
    exact ⟨rfl, rfl⟩
  | succ j ih =>
    intro inside
    obtain ⟨strength, stepSize⟩ := ih (Nat.le_of_lt inside)
    obtain ⟨trying, next⟩ := retried j inside
    obtain ⟨_, kept, divided, _⟩ := posed.of_retried rfl rfl trying next
    rw [← add_assoc, kept, divided, strength, stepSize, div_div, pow_succ]
    exact ⟨rfl, rfl⟩

/-- As many rejections in a row as bring the largest step size down to the inverse of the curvature
    are enough. -/
theorem retried_le {positions : ℕ → ℕ} {i m r : ℕ}
    (retried : ∀ j < m, (trace .gaussian run positions (i + j)).trial ≠ 0 ∧
      (trace .gaussian run positions (i + j + 1)).trial =
        (trace .gaussian run positions (i + j)).trial + 1) {weight : ℝ}
    (strength : (contextAlong run positions i).strength = number weight)
    (enough : run.context.maxStepSize.value / run.context.eta.value ^ r ≤
      1 / (problemAt .gaussian run weight).curvature) : m ≤ r := by
  by_contra more
  obtain ⟨last, rfl⟩ : ∃ last, m = last + 1 := ⟨m - 1, by omega⟩
  have growing : (1 : ℝ) ≤ run.context.eta.value := posed.one_lt_eta.le
  have nonnegative := posed.strength_nonneg positions i
  rw [strength] at nonnegative
  obtain ⟨first, firstNext⟩ := retried 0 (Nat.succ_pos _)
  have atWeight : (trace .gaussian run positions i).strength = weight :=
    (posed.of_retried rfl rfl first firstNext).1.trans (congrArg value strength)
  obtain ⟨same, divided⟩ := posed.retried_run retried last (Nat.le_succ _)
  obtain ⟨trying, next⟩ := retried last (Nat.lt_succ_self _)
  obtain ⟨_, _, _, long⟩ := posed.of_retried rfl rfl trying next
  have steep : 0 < (problemAt .gaussian run weight).curvature :=
    (problemAt .gaussian run weight).curvature_pos posed.rows (posed.ridge_nonneg nonnegative)
  have short : (trace .gaussian run positions (i + last)).stepSize ≤
      1 / (problemAt .gaussian run weight).curvature :=
    calc (trace .gaussian run positions (i + last)).stepSize
      _ = (trace .gaussian run positions i).stepSize / run.context.eta.value ^ last := divided
      _ ≤ run.context.maxStepSize.value / run.context.eta.value ^ last :=
        div_le_div_of_nonneg_right (posed.within_trace positions i).largest (by positivity)
      _ ≤ run.context.maxStepSize.value / run.context.eta.value ^ r :=
        div_le_div_of_nonneg_left posed.maxStepSize_pos.le (by positivity)
          (pow_le_pow_right₀ growing (by omega))
      _ ≤ 1 / (problemAt .gaussian run weight).curvature := enough
  rw [same, atWeight] at long
  rw [le_div_iff₀ steep] at short
  linarith

theorem exists_enough {weight : ℝ} (nonnegative : 0 ≤ weight) :
    ∃ r, IsLeast {r : ℕ | run.context.maxStepSize.value / run.context.eta.value ^ r ≤
      1 / (problemAt .gaussian run weight).curvature} r := by
  have steep : 0 < (problemAt .gaussian run weight).curvature :=
    (problemAt .gaussian run weight).curvature_pos posed.rows (posed.ridge_nonneg nonnegative)
  have positive (r : ℕ) : 0 < run.context.eta.value ^ r :=
    pow_pos (zero_lt_one.trans posed.one_lt_eta) r
  obtain ⟨enough, large⟩ := pow_unbounded_of_one_lt
    (run.context.maxStepSize.value * (problemAt .gaussian run weight).curvature) posed.one_lt_eta
  have reached : ∃ r, run.context.maxStepSize.value / run.context.eta.value ^ r ≤
      1 / (problemAt .gaussian run weight).curvature := by
    refine ⟨enough, ?_⟩
    rw [div_le_div_iff₀ (positive enough) steep, one_mul]
    exact large.le
  classical
  exact ⟨Nat.find reached, Nat.find_spec reached, fun r holds => Nat.find_min' reached holds⟩

end WellPosed

def Retries (before after : Slots Exact) : Prop :=
  ∃ earlier later : State Exact, layout.view? before = some earlier ∧
    layout.view? after = some later ∧ earlier.trial ≠ 0 ∧ later.trial = earlier.trial + 1

theorem retries_iff (small : n < UInt32.size) (p after : Proximal n) :
    Retries p.slots after.slots ↔ p.trial ≠ 0 ∧ after.trial = p.trial + 1 := by
  have zero : p.state.trial = 0 ↔ p.trial = 0 := by
    change number (p.trial : ℝ) = number 0 ↔ _
    rw [number.injEq, Nat.cast_eq_zero]
  have next : after.state.trial = p.state.trial + 1 ↔ after.trial = p.trial + 1 := by
    change number (after.trial : ℝ) = number (p.trial + 1) ↔ _
    rw [number.injEq, ← Nat.cast_add_one, Nat.cast_inj]
  unfold Retries
  rw [Proximal.view?_slots small, Proximal.view?_slots small]
  simp [zero, next]

/-- A candidate of a short enough step is accepted, whatever state the search started from; and a
    run never rejects more candidates in a row than bring its largest step size down to that. -/
theorem backtracking_stops {run : Run Exact} (posed : WellPosed .gaussian run) :
    (∀ (contexts : ℕ → StepContext Exact) (modes : ℕ → PassMode)
        (start : Proximal run.source.dimension), start.trial = 0 →
      start.total = run.source.samples.length → 0 ≤ start.mixing → start.mixing ≤ 1 →
      0 < start.stepSize → 0 < start.eta → 0 ≤ (contexts 0).strength →
      (∀ k, (contexts k).strength = (contexts 0).strength) →
      (start.strength ≠ (contexts 0).strength.value → 0 < (contexts 0).maxStepSize) →
      let problem : Problem run.source.dimension :=
        ⟨.gaussian, run.source.samples, (contexts 0).strength.value, start.mixing⟩
      ∃ states, Backtracks problem
          (fun k slots =>
            Pass.step ⟨optimizer .gaussian, modes k⟩ (some slots) (contexts k) run.source)
          start (start.resumed (contexts 0)) states ∧
        ∀ k, (∀ j ≤ k, (states j).trial ≠ 0) → (states k).stepSize * problem.curvature ≤ 1 →
          (states (k + 1)).trial = 0 ∧ (states (k + 1)).accepted = (states k).candidate) ∧
    ∀ states positions count, run.Follows states positions count → ∀ i m, i + m ≤ count →
      (∀ j < m, Retries (states (i + j)) (states (i + j + 1))) →
      ∀ weight, run.path.strengths[positions i - 1]? = some (number weight) →
      ∃ r, IsLeast {r : ℕ | run.context.maxStepSize.value / run.context.eta.value ^ r ≤
        1 / (problemAt .gaussian run weight).curvature} r ∧ m ≤ r := by
  have dimension := posed.dimension_lt
  constructor
  · intro contexts modes start trial total mixing share stepSize eta strength same restarts problem
    have starts := Starts.resumed .gaussian trial total stepSize eta restarts
    have backtracks := starts.backtracks dimension posed.rows posed.few modes total mixing
      strength same restarts
    refine ⟨_, backtracks, ?_⟩
    intro k trying short
    have values (k : ℕ) : (contexts k).strength.value = (contexts 0).strength.value :=
      congrArg value (same k)
    obtain ⟨weight, nonnegative, given⟩ := exists_of_nonneg strength
    have penalty : 0 ≤ problem.penalty := by
      unfold Problem.penalty problem
      rw [given]
      exact mul_nonneg nonnegative mixing
    have ridge : 0 ≤ problem.ridge := by
      unfold Problem.ridge problem
      rw [given]
      exact mul_nonneg nonnegative (sub_nonneg.mpr share)
    have tries := starts.tries_run values penalty k trying
    have ends := backtracks.trials k trying
    have accepted := ends.accepts.mpr
      (tries.belowModel rfl ridge (tries.stepSize_pos starts) short)
    exact ⟨accepted, (ends.accepted accepted).accepted⟩
  · intro states positions count follows i m inside retried weight stands
    have same := posed.states_eq follows
    have passes : ∀ j < m, (trace .gaussian run positions (i + j)).trial ≠ 0 ∧
        (trace .gaussian run positions (i + j + 1)).trial =
          (trace .gaussian run positions (i + j)).trial + 1 := by
      intro j before
      have again := retried j before
      rwa [same _ (by omega), same _ (by omega), retries_iff dimension] at again
    have strength : (contextAlong run positions i).strength = number weight := by
      rw [contextAlong_eq stands]
    have nonnegative := posed.strength_nonneg positions i
    rw [strength] at nonnegative
    obtain ⟨r, least⟩ := posed.exists_enough nonnegative
    exact ⟨r, least, posed.retried_le passes strength least.1⟩

noncomputable def twoRowsRun : Run Exact where
  group := none
  path := ⟨[1], by simp⟩
  pass := ⟨optimizer .gaussian, .parallel⟩
  test := ⟨optimizer .gaussian, 0, 0⟩
  context :=
    { StepContext.default with
      dimension := 1
      totalRows := 2
      means := [0]
      maxStepSize := 1
      eta := number 2 }
  source := twoRows
  budget := 10

theorem wellPosed_twoRows : WellPosed .gaussian twoRowsRun where
  optimizer := rfl
  dimension := rfl
  features := by decide
  small := by decide
  rows := List.cons_ne_nil _ _
  few := by decide
  total := rfl
  mixing := zero_le_one (α := ℝ)
  share := le_refl (1 : ℝ)
  maxStepSize := zero_lt_one (α := ℝ)
  eta := one_lt_two (α := ℝ)
  strengths := by
    intro strength inside
    cases List.mem_singleton.mp inside
    exact zero_le_one (α := ℝ)

theorem backtracking_stops_twoRows :
    let context : StepContext Exact := { StepContext.default with strength := 1, maxStepSize := 1 }
    let problem : Problem twoRows.dimension := ⟨.gaussian, twoRows.samples, 1, 1 / 2⟩
    WellPosed .gaussian twoRowsRun ∧
    (∃ states, Backtracks problem
        (fun _ slots => Pass.step ⟨optimizer .gaussian, .parallel⟩ (some slots) context twoRows)
        twoRowsStart (twoRowsStart.resumed context) states ∧
      ((states 0).trial ≠ 0 → (states 0).stepSize * problem.curvature ≤ 1 →
        (states 1).trial = 0)) ∧
    ∀ m, m ≤ twoRowsRun.updatesAlone →
      (∀ j < m, Retries (twoRowsRun.stateAfter (0 + j)) (twoRowsRun.stateAfter (0 + j + 1))) →
      ∃ r, IsLeast {r : ℕ | (1 : ℝ) / 2 ^ r ≤ 1 / (problemAt .gaussian twoRowsRun 1).curvature} r ∧
        m ≤ r := by
  intro context problem
  have posed := wellPosed_twoRows
  have sure : twoRowsRun.OnReliable 1 _ :=
    ⟨reliable .gaussian (by decide) (by decide), rfl, rfl, rfl, rfl, by decide⟩
  have positive : (0 : ℝ) < 1 := zero_lt_one
  have half : (0 : ℝ) < 1 / 2 := by norm_num
  obtain ⟨searches, bounded⟩ := backtracking_stops posed
  obtain ⟨states, backtracks, stops⟩ := searches (fun _ => context) (fun _ => .parallel)
    twoRowsStart rfl rfl half.le (by norm_num [twoRowsStart]) half (by norm_num [twoRowsStart])
    positive.le (fun _ => rfl) (fun _ => positive)
  refine ⟨posed, ⟨states, backtracks, ?_⟩, ?_⟩
  · intro trying short
    refine (stops 0 ?_ short).1
    intro j first
    rwa [Nat.le_zero.mp first]
  · intro m inside retried
    exact bounded _ _ _ sure.ended.walked.follows 0 m (by omega) retried 1 rfl

end ElasticNet.Fista
