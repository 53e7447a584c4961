import ElasticNet.Proofs.Counted
import ElasticNet.Proofs.Exact.Sums
import ElasticNet.Proofs.Fista.Positions
import ElasticNet.Proofs.Fista.Stopping

namespace ElasticNet

namespace Fista

open Exact Run

/-- A pass that a candidate was tried in, and that leaves the next one to try. -/
def Rejects {α : Type} [Scalar α] (before after : State α) : Prop :=
  before.trial ≠ 0 ∧ after.trial = before.trial + 1

open Classical in
/-- The passes of a kind since the strength of the states changed last, or since the first one. -/
noncomputable def countSince {α : Type} (kind : State α → State α → Prop) (states : ℕ → State α) :
    ℕ → ℕ
  | 0 => 0
  | i + 1 =>
    if (states (i + 1)).strength ≠ (states i).strength then 0
    else countSince kind states i + if kind (states i) (states (i + 1)) then 1 else 0

/-- The settings of a run in a state, with the step size after some rejections and the inertia after
    some acceptances. -/
structure Ledger (run : Run Exact) (rejections acceptances : ℕ) (state : State Exact) : Prop where
  trial : ∃ count : ℕ, state.trial = (count : Exact)
  eta : state.eta = run.context.eta
  totalRows : state.totalRows = (run.context.totalRows : Exact)
  stepSize : state.stepSize =
    number (run.context.maxStepSize.value / run.context.eta.value ^ rejections)
  inertia : ∃ t : ℝ, 1 + acceptances / 2 ≤ t ∧ state.inertia = number t
  still : acceptances = 0 →
    state.inertia = 1 ∧ state.momentum = state.coefficients ∧
      state.momentumIntercept = state.intercept

inductive Entry (before after : State Exact) : Prop
  | kept (neither : ¬Rejects before after) (nor : ¬Accepts before after)
      (course : after.course = before.course ∨
        after.course = { before.course with trial := 1 })
  | accepted (neither : ¬Rejects before after) (accepts : Accepts before after)
      (course : after.course = before.accept.course)
  | rejected (rejects : Rejects before after) (nor : ¬Accepts before after)
      (course : after.course =
        { before.course with
          trial := before.trial + 1, stepSize := before.stepSize / before.eta })

theorem Entry.apart {before after : State Exact} (entry : Entry before after) :
    ¬(Accepts before after ∧ Rejects before after) := by
  rintro ⟨accepts, rejects⟩
  cases entry with
  | kept neither nor _ => exact nor accepts
  | accepted neither _ _ => exact neither rejects
  | rejected _ nor _ => exact nor accepts

/-- Settings that steps can be taken with: sizes to start from and to shrink by, a count of complete
    rows, and numbers to fit along. -/
structure StepSettings (run : Run Exact) : Prop where
  maxStepSize : 0 < run.context.maxStepSize
  eta : 1 < run.context.eta
  rows : run.context.totalRows ≠ 0
  strengths : ∀ strength ∈ run.path.strengths, Scalar.isFinite strength = true

namespace StepSettings

variable {run : Run Exact} (settings : StepSettings run)
include settings

theorem maxStepSize_eq : run.context.maxStepSize = number run.context.maxStepSize.value ∧
    0 < run.context.maxStepSize.value :=
  value_of_lt settings.maxStepSize

theorem eta_eq : run.context.eta = number run.context.eta.value ∧ 1 < run.context.eta.value :=
  value_of_lt settings.eta

theorem divided_pos (rejections : ℕ) :
    0 < run.context.maxStepSize.value / run.context.eta.value ^ rejections :=
  div_pos settings.maxStepSize_eq.2 (pow_pos (zero_lt_one.trans settings.eta_eq.2) rejections)

theorem divided_le (rejections : ℕ) :
    run.context.maxStepSize.value / run.context.eta.value ^ rejections ≤
      run.context.maxStepSize.value :=
  div_le_self settings.maxStepSize_eq.2.le (one_le_pow₀ settings.eta_eq.2.le)

end StepSettings

namespace Ledger

variable {run : Run Exact} {rejections acceptances : ℕ} {state after : State Exact}

theorem of_course (ledger : Ledger run rejections acceptances state)
    (same : after.course = state.course) : Ledger run rejections acceptances after := by
  have course : Ledger run rejections acceptances state.course :=
    ⟨ledger.trial, ledger.eta, ledger.totalRows, ledger.stepSize, ledger.inertia, ledger.still⟩
  rw [← same] at course
  exact ⟨course.trial, course.eta, course.totalRows, course.stepSize, course.inertia, course.still⟩

theorem trials_eq_zero (ledger : Ledger run rejections acceptances state) :
    state.trials = 0 ↔ state.trial = 0 := by
  obtain ⟨count, given⟩ := ledger.trial
  unfold State.trials
  rw [given, toUInt32_eq_zero, natCast_eq, zero_eq, number.injEq, Nat.cast_eq_zero]

theorem opened (ledger : Ledger run rejections acceptances state) :
    Ledger run rejections acceptances { state with trial := 1 } :=
  ⟨⟨1, congrArg number Nat.cast_one.symm⟩, ledger.eta, ledger.totalRows, ledger.stepSize,
    ledger.inertia, ledger.still⟩

theorem accept (ledger : Ledger run rejections acceptances state) :
    Ledger run rejections (acceptances + 1) state.accept := by
  obtain ⟨t, atLeast, given⟩ := ledger.inertia
  refine ⟨⟨0, natCast_zero.symm⟩, ledger.eta, ledger.totalRows, ledger.stepSize, ?_, nofun⟩
  have positive : (0 : ℝ) ≤ t := le_trans (by positivity) atLeast
  -- Half of this root is what the inertia grows to, next to the half that it grows by.
  have root : 2 * t ≤ Real.sqrt (1 + 4 * t * t) := by
    apply Real.le_sqrt_of_sq_le
    linarith [sq t]
  refine ⟨(1 + Real.sqrt (1 + 4 * t * t)) / 2, ?_, ?_⟩
  · rw [Nat.cast_add_one]
    linarith
  · change 0.5 * (1 + Scalar.sqrt (1 + 4.0 * state.inertia * state.inertia)) = _
    rw [given, inertia_number]

theorem reject (ledger : Ledger run rejections acceptances state) (settings : StepSettings run) :
    Ledger run (rejections + 1) acceptances
      { state with trial := state.trial + 1, stepSize := state.stepSize / state.eta } := by
  obtain ⟨count, given⟩ := ledger.trial
  obtain ⟨factor, more⟩ := settings.eta_eq
  refine ⟨⟨count + 1, ?_⟩, ledger.eta, ledger.totalRows, ?_, ledger.inertia, ledger.still⟩
  · rw [given, natCast_add, natCast_eq 1, Nat.cast_one]
    rfl
  · change state.stepSize / state.eta = _
    rw [ledger.stepSize, ledger.eta]
    nth_rewrite 2 [factor]
    rw [number_div _ (zero_lt_one.trans more).ne', div_div, pow_succ]

variable (run) in
theorem initial (settings : StepSettings run) (strength : Exact) :
    Ledger run 0 0 (initialState { run.context with strength := strength }) := by
  refine ⟨⟨0, natCast_zero.symm⟩, rfl, rfl, ?_, ⟨1, by norm_num, rfl⟩, fun _ => ⟨rfl, rfl, rfl⟩⟩
  rw [pow_zero, div_one]
  exact settings.maxStepSize_eq.1

theorem restart (ledger : Ledger run rejections acceptances state) (settings : StepSettings run)
    (strength : Exact) :
    Ledger run 0 0 (state.restart { run.context with strength := strength }) := by
  refine ⟨⟨0, natCast_zero.symm⟩, ledger.eta, ledger.totalRows, ?_, ⟨1, by norm_num, rfl⟩,
    fun _ => ⟨rfl, rfl, rfl⟩⟩
  rw [pow_zero, div_one]
  exact settings.maxStepSize_eq.1

theorem entry (ledger : Ledger run rejections acceptances state) (outcome : Outcome state after) :
    Entry state after := by
  have trials := ledger.trials_eq_zero
  obtain ⟨count, given⟩ := ledger.trial
  have more : state.trial + 1 = number ((count + 1 : ℕ) : ℝ) := by
    rw [given, Nat.cast_add_one]
    rfl
  cases outcome with
  | idle _ _ course =>
    -- Trials that stay are not one more, nor none after some.
    have kept : after.trial = state.trial := (congrArg State.trial course :)
    refine .kept ?_ ?_ (.inl course)
    · rintro ⟨_, next⟩
      rw [kept, more, given, natCast_eq, number.injEq, Nat.cast_inj] at next
      exact Nat.succ_ne_self count next.symm
    · rintro ⟨tries, rested⟩
      exact UInt32.pos_iff_ne_zero.mp tries ((congrArg Scalar.toUInt32 kept).symm.trans rested)
  | opened gathers _ course =>
    refine .kept ?_ ?_ (.inr course)
    · exact fun rejects => rejects.1 (trials.mp gathers)
    · exact fun accepts => UInt32.pos_iff_ne_zero.mp accepts.1 gathers
  | accepted tries course =>
    have zero : after.trial = 0 := (congrArg State.trial course :)
    refine .accepted ?_ ?_ course
    · rintro ⟨_, next⟩
      rw [zero, more, zero_eq, number.injEq] at next
      exact Nat.cast_ne_zero.mpr (Nat.succ_ne_zero count) next.symm
    · exact ⟨UInt32.pos_iff_ne_zero.mpr tries, (congrArg Scalar.toUInt32 zero).trans toUInt32_zero⟩
  | rejected tries _ course =>
    have next : after.trial = state.trial + 1 := (congrArg State.trial course :)
    refine .rejected ⟨trials.not.mp tries, next⟩ ?_ course
    rintro ⟨_, rested⟩
    change Scalar.toUInt32 after.trial = 0 at rested
    rw [next, more, ← natCast_eq, toUInt32_eq_zero] at rested
    exact Nat.succ_ne_zero count rested

open Classical in
theorem passed (ledger : Ledger run rejections acceptances state) (settings : StepSettings run)
    (outcome : Outcome state after) :
    Ledger run (rejections + if Rejects state after then 1 else 0)
      (acceptances + if Accepts state after then 1 else 0) after := by
  cases ledger.entry outcome with
  | kept neither nor course =>
    rw [if_neg neither, if_neg nor]
    rcases course with same | first
    · exact ledger.of_course same
    · exact ledger.opened.of_course first
  | accepted neither accepts course =>
    rw [if_neg neither, if_pos accepts]
    exact ledger.accept.of_course course
  | rejected rejects nor course =>
    rw [if_pos rejects, if_neg nor]
    exact (ledger.reject settings).of_course course

end Ledger

theorem zipWith_eq_left {β γ : Type} {f : β → γ → β} {xs : List β} {ys : List γ}
    (enough : xs.length ≤ ys.length) (keeps : ∀ x, ∀ y ∈ ys, f x y = x) :
    List.zipWith f xs ys = xs := by
  induction xs generalizing ys with
  | nil => rfl
  | cons x xs ih =>
    cases ys with
    | nil => cases enough
    | cons y ys =>
      have rest := ih (Nat.le_of_succ_le_succ enough) fun x y later =>
        keeps x y (List.mem_cons_of_mem _ later)
      rw [List.zipWith_cons_cons, keeps x y List.mem_cons_self, rest]

theorem State.accept_still {state : State Exact} {count : ℕ} (sized : state.Sized count)
    (coefficients : Scalar.allFinite state.coefficients = true)
    (intercept : Scalar.isFinite state.intercept = true) (inertia : state.inertia = 1) :
    state.accept.momentum = state.accept.coefficients ∧
      state.accept.momentumIntercept = state.accept.intercept := by
  have nonzero : (1 + Real.sqrt (1 + 4 * 1 * 1)) / 2 ≠ 0 := by positivity
  have rests (new : Exact) {old : Exact} (finite : Scalar.isFinite old = true) :
      new + (state.inertia - 1) * (new - old) /
        (0.5 * (1 + Scalar.sqrt (1 + 4.0 * state.inertia * state.inertia))) = new := by
    have next := inertia_number 1
    rw [← one_eq] at next
    obtain ⟨s, rfl⟩ := exists_number finite
    rw [inertia, next, one_eq, number_sub]
    cases new with
    | number r =>
      rw [number_sub, number_mul, number_div _ nonzero, number_add, sub_self, zero_mul, zero_div,
        add_zero]
    | undefined => rfl
  refine ⟨?_, rests _ intercept⟩
  exact zipWith_eq_left (sized.candidate.trans sized.coefficients.symm).le
    fun new old inside => rests new (List.all_eq_true.mp coefficients old inside)

namespace State

variable {state : State Exact} {context : StepContext Exact}
  (finite : Scalar.isFinite context.strength = true)
include finite

theorem resumed_of_same (same : context.strength = state.strength) :
    state.resumed context = state :=
  if_neg fun unequal => (bne_iff_ne finite).mp unequal same.symm

theorem resumed_of_changed (changed : context.strength ≠ state.strength) :
    state.resumed context = state.restart context :=
  if_pos ((bne_iff_ne finite).mpr changed.symm)

end State

namespace Trail

variable {family : Family} {run : Run Exact} {phase : Phase} {total : ℕ}
  {states : ℕ → State Exact} {positions : ℕ → ℕ}
  (trail : Trail family run phase total states positions) (settings : StepSettings run)
include trail settings

theorem strength_eq {i : ℕ} (before : i < total) {strength : Exact}
    (stands : run.path.strengths[positions i - 1]? = some strength) :
    Scalar.isFinite strength = true ∧ (states (i + 1)).strength = strength ∧
      Outcome ((states i).resumed { run.context with strength := strength }) (states (i + 1)) := by
  have finite := settings.strengths strength (List.mem_of_getElem? stands)
  obtain ⟨_, found, next⟩ := trail.leads i before
  cases stands.symm.trans found
  have same := (atStrength family).pass run.pass.mode (states i)
    { run.context with strength := strength } run.source.partitions
  refine ⟨finite, ?_, ?_⟩
  · rw [next]
    exact eq_of_same finite same
  · rw [next]
    exact State.outcome_pass family run.pass.mode (states i) _ run.source.partitions

omit settings in
theorem finite_point {i : ℕ} (before : i < total) :
    Scalar.allFinite (states i).coefficients = true ∧
      Scalar.isFinite (states i).intercept = true := by
  cases i with
  | zero =>
    obtain ⟨strength, _, first⟩ := trail.baseline
    rw [first]
    refine ⟨?_, rfl⟩
    change Scalar.allFinite (Vector.zeros run.context.dimension) = true
    rw [zeros_eq]
    exact allFinite_ofVector 0
  | succ i =>
    have goes := trail.goes i before
    obtain ⟨strength, _, next⟩ := trail.leads i (by omega)
    rw [next] at goes ⊢
    have finite := finite_finalize goes
    exact ⟨finite.coefficients, finite.intercept⟩

theorem ledger {i : ℕ} (inside : i ≤ total) :
    Ledger run (countSince Rejects states i) (countSince Accepts states i) (states i) := by
  induction i with
  | zero =>
    obtain ⟨strength, _, first⟩ := trail.baseline
    rw [first]
    exact .initial run settings strength
  | succ i ih =>
    have before := ih (Nat.le_of_succ_le inside)
    obtain ⟨strength, stands, _⟩ := trail.leads i inside
    obtain ⟨finite, given, outcome⟩ := trail.strength_eq settings inside stands
    by_cases same : strength = (states i).strength
    · rw [State.resumed_of_same finite same] at outcome
      have kept : ¬(states (i + 1)).strength ≠ (states i).strength := not_not.mpr (given.trans same)
      rw [countSince, countSince, if_neg kept, if_neg kept]
      exact before.passed settings outcome
    · rw [State.resumed_of_changed finite same] at outcome
      have changed : (states (i + 1)).strength ≠ (states i).strength := given.trans_ne same
      have passed := (before.restart settings strength).passed settings outcome
      -- The pass starts the search anew, with a gradient, and so is counted as neither.
      have neither : ¬Rejects ((states i).restart { run.context with strength := strength })
          (states (i + 1)) := fun rejects => rejects.1 rfl
      have nor : ¬Accepts ((states i).restart { run.context with strength := strength })
          (states (i + 1)) := fun accepts =>
        UInt32.pos_iff_ne_zero.mp accepts.1 toUInt32_zero
      rw [if_neg neither, if_neg nor] at passed
      rw [countSince, countSince, if_pos changed, if_pos changed]
      exact passed

theorem ledger_resumed {i : ℕ} (before : i < total) {strength : Exact}
    (finite : Scalar.isFinite strength = true) : ∃ rejections acceptances,
      Ledger run rejections acceptances
        ((states i).resumed { run.context with strength := strength }) := by
  have ledger := trail.ledger settings (Nat.le_of_lt before)
  by_cases same : strength = (states i).strength
  · rw [State.resumed_of_same finite same]
    exact ⟨_, _, ledger⟩
  · rw [State.resumed_of_changed finite same]
    exact ⟨_, _, ledger.restart settings strength⟩

theorem still_of_accepts {i : ℕ} (before : i < total) (first : countSince Accepts states i = 0)
    (accepts : Accepts (states i) (states (i + 1))) :
    (states (i + 1)).momentum = (states (i + 1)).coefficients ∧
      (states (i + 1)).momentumIntercept = (states (i + 1)).intercept := by
  obtain ⟨strength, stands, _⟩ := trail.leads i before
  obtain ⟨finite, given, outcome⟩ := trail.strength_eq settings before stands
  by_cases same : strength = (states i).strength
  · obtain ⟨coefficients, intercept⟩ := trail.finite_point before
    have ledger := trail.ledger settings (Nat.le_of_lt before)
    obtain ⟨momentum, momentumIntercept⟩ := State.accept_still
      (trail.sized i (Nat.le_of_lt before)) coefficients intercept (ledger.still first).1
    rw [State.resumed_of_same finite same] at outcome
    cases ledger.entry outcome with
    | kept _ nor _ => exact absurd accepts nor
    | rejected _ nor _ => exact absurd accepts nor
    | accepted _ _ course =>
      have point : (states (i + 1)).coefficients = (states i).accept.coefficients :=
        (congrArg State.coefficients course :)
      have ahead : (states (i + 1)).momentum = (states i).accept.momentum :=
        (congrArg State.momentum course :)
      have shift : (states (i + 1)).intercept = (states i).accept.intercept :=
        (congrArg State.intercept course :)
      have shiftAhead : (states (i + 1)).momentumIntercept = (states i).accept.momentumIntercept :=
        (congrArg State.momentumIntercept course :)
      rw [point, ahead, shift, shiftAhead]
      exact ⟨momentum, momentumIntercept⟩
  · have changed : (states (i + 1)).strength ≠ (states i).strength := given.trans_ne same
    have none : countSince Accepts states (i + 1) = 0 := by
      rw [countSince, if_pos changed]
    exact ((trail.ledger settings before).still none).2

omit settings in
theorem rows_of_tried {i : ℕ} (before : i < total) (tried : (states i).trial ≠ 0)
    (context : StepContext Exact) :
    Scalar.toUInt64 ((kernel family).gather run.pass.mode (states i) context
      run.source.partitions).rows ≠ 0 := by
  cases i with
  | zero =>
    obtain ⟨strength, _, first⟩ := trail.baseline
    rw [first] at tried
    exact absurd rfl tried
  | succ i =>
    intro none
    have goes := trail.goes i before
    obtain ⟨strength, _, next⟩ := trail.leads i (Nat.lt_of_succ_lt before)
    rw [(counts family).rows_gather_eq run.pass.mode (states (i + 1)) (states i) context
      { run.context with strength := strength }] at none
    rw [next] at goes
    exact not_goes_of_empty ((concludes.status_eq_empty_iff statusLast).mpr none) goes

/-- A pass with a candidate to try, at the strength of the pass before, accepts it where the test of
    the pass is met, and rejects it otherwise. -/
theorem judged {i : ℕ} (before : i < total) {strength : Exact}
    (stands : run.path.strengths[positions i - 1]? = some strength)
    (same : strength = (states i).strength) (tried : (states i).trial ≠ 0) :
    let gathered := (kernel family).gather run.pass.mode (states i)
      { run.context with strength := strength } run.source.partitions
    (Accepts (states i) (states (i + 1)) ↔ gathered.Acceptable) ∧
      (Rejects (states i) (states (i + 1)) ↔ ¬gathered.Acceptable) := by
  intro gathered
  obtain ⟨finite, _, outcome⟩ := trail.strength_eq settings before stands
  have ledger := trail.ledger settings (Nat.le_of_lt before)
  have cleared : gathered.cleared = (states i).cleared := by
    have kept := State.cleared_gather family run.pass.mode (states i)
      { run.context with strength := strength } run.source.partitions
    rwa [State.resumed_of_same finite same] at kept
  rw [State.resumed_of_same finite same] at outcome
  have apart := (ledger.entry outcome).apart
  have trials : (states i).trials ≠ 0 := ledger.trials_eq_zero.not.mpr tried
  have trial : gathered.trial = (states i).trial := (congrArg State.trial cleared :)
  obtain ⟨_, found, next⟩ := trail.leads i before
  cases stands.symm.trans found
  obtain ⟨total, status, accepts, rejects⟩ := State.exists_finalize_of_tries
    (trail.rows_of_tried before tried _) (State.trials_of_cleared cleared ▸ trials)
  by_cases acceptable : gathered.Acceptable
  · have accepted : Accepts (states i) (states (i + 1)) := by
      rw [next]
      refine ⟨UInt32.pos_iff_ne_zero.mpr trials, ?_⟩
      exact (congrArg State.trials (accepts acceptable)).trans toUInt32_zero
    exact ⟨iff_of_true accepted acceptable,
      iff_of_false (fun rejected => apart ⟨accepted, rejected⟩) (not_not.mpr acceptable)⟩
  · have rejected : Rejects (states i) (states (i + 1)) := by
      rw [next]
      refine ⟨tried, ?_⟩
      exact (congrArg State.trial (rejects acceptable)).trans (congrArg (· + 1) trial)
    exact ⟨iff_of_false (fun accepted => apart ⟨accepted, rejected⟩) acceptable,
      iff_of_true rejected acceptable⟩

end Trail

/-- A state that the search starts anew from, at the point accepted last. -/
structure Restarted (run : Run Exact) (before fresh : State Exact) : Prop where
  point : before.SamePoint fresh
  stepSize : fresh.stepSize = run.context.maxStepSize
  inertia : fresh.inertia = 1
  trial : fresh.trial = 0
  momentum : fresh.momentum = before.coefficients
  momentumIntercept : fresh.momentumIntercept = before.intercept

/-- What the end of a pass divides by. -/
structure Divides (gathered : State Exact) : Prop where
  totalRows : 0 < (Scalar.ofCount (Scalar.toUInt64 gathered.totalRows) : Exact)
  stepSize : 0 < gathered.stepSize
  eta : 0 < gathered.eta
  inertia : 0 < gathered.accept.inertia

/-- The step sizes, the inertia and the trials of a run, in the states that it records and within
    its passes. -/
structure InRange (family : Family) (run : Run Exact) (total : ℕ) (states : ℕ → State Exact)
    (positions : ℕ → ℕ) : Prop where
  trial : ∀ i ≤ total, ∃ count : ℕ, (states i).trial = (count : Exact)
  stepSize : ∀ i ≤ total, (states i).stepSize =
    number (run.context.maxStepSize.value / run.context.eta.value ^ countSince Rejects states i)
  bounds : ∀ i ≤ total, 0 < (states i).stepSize ∧ (states i).stepSize ≤ run.context.maxStepSize
  inertia : ∀ i ≤ total,
    number (1 + (countSince Accepts states i : ℝ) / 2) ≤ (states i).inertia
  strength : ∀ i < total, ∀ strength, run.path.strengths[positions i - 1]? = some strength →
    (states (i + 1)).strength = strength
  restarts : ∀ i < total, ∀ strength, run.path.strengths[positions i - 1]? = some strength →
    strength ≠ (states i).strength → ∃ fresh,
      (optimizer family).begin (some (layout.write (states i)))
          { run.context with strength := strength } = .ok (layout.write fresh) ∧
        Restarted run (states i) fresh
  divides : ∀ i < total, ∀ strength, run.path.strengths[positions i - 1]? = some strength →
    ∃ gathered : State Exact,
      gathered = (kernel family).gather run.pass.mode (states i)
        { run.context with strength := strength } run.source.partitions ∧
      states (i + 1) = gathered.finalize ∧ Divides gathered
  judged : ∀ i < total, ∀ strength, run.path.strengths[positions i - 1]? = some strength →
    strength = (states i).strength → (states i).trial ≠ 0 →
    let gathered := (kernel family).gather run.pass.mode (states i)
      { run.context with strength := strength } run.source.partitions
    (Accepts (states i) (states (i + 1)) ↔ gathered.Acceptable) ∧
      (Rejects (states i) (states (i + 1)) ↔ ¬gathered.Acceptable)
  still : ∀ i < total, countSince Accepts states i = 0 → Accepts (states i) (states (i + 1)) →
    (states (i + 1)).momentum = (states (i + 1)).coefficients ∧
      (states (i + 1)).momentumIntercept = (states (i + 1)).intercept

section Runs

variable {family : Family} {run : Run Exact}

theorem Ledger.divides {rejections acceptances : ℕ} {state : State Exact}
    (ledger : Ledger run rejections acceptances state) (settings : StepSettings run) :
    Divides state := by
  obtain ⟨t, atLeast, inertia⟩ := ledger.accept.inertia
  refine ⟨?_, ?_, ?_, ?_⟩
  · have counted : (Scalar.toUInt64 state.totalRows).toNat ≠ 0 := by
      rw [ledger.totalRows, ← UInt64.toNat_zero, ne_eq, UInt64.toNat_inj, toUInt64_eq_zero]
      exact settings.rows
    have positive : (0 : ℝ) < ((Scalar.toUInt64 state.totalRows).toNat : ℝ) :=
      Nat.cast_pos.mpr (Nat.pos_of_ne_zero counted)
    exact positive
  · rw [ledger.stepSize]
    exact settings.divided_pos rejections
  · rw [ledger.eta, settings.eta_eq.1]
    exact zero_lt_one.trans settings.eta_eq.2
  · rw [inertia]
    exact lt_of_lt_of_le (by positivity) atLeast

theorem State.restarted_begin {state : State Exact} {strength : Exact}
    (finite : Scalar.isFinite strength = true) (changed : strength ≠ state.strength) :
    Restarted run state (state.begin { run.context with strength := strength }) := by
  have same := State.cleared_begin state { run.context with strength := strength }
  rw [State.resumed_of_changed finite changed] at same
  have point := State.samePoint_of_cleared same
  exact ⟨⟨point.coefficients, point.intercept, point.logLikelihood⟩,
    (congrArg State.stepSize same :), (congrArg State.inertia same :),
    (congrArg State.trial same :), (congrArg State.momentum same :),
    (congrArg State.momentumIntercept same :)⟩

theorem Trail.inRange {phase : Phase} {total : ℕ} {states : ℕ → State Exact} {positions : ℕ → ℕ}
    (trail : Trail family run phase total states positions) (settings : StepSettings run) :
    InRange family run total states positions := by
  constructor
  case trial => exact fun i inside => (trail.ledger settings inside).trial
  case stepSize => exact fun i inside => (trail.ledger settings inside).stepSize
  case bounds =>
    intro i inside
    rw [(trail.ledger settings inside).stepSize, settings.maxStepSize_eq.1]
    exact ⟨settings.divided_pos _, settings.divided_le _⟩
  case inertia =>
    intro i inside
    obtain ⟨t, atLeast, given⟩ := (trail.ledger settings inside).inertia
    rw [given]
    exact atLeast
  case strength =>
    exact fun i before strength stands => (trail.strength_eq settings before stands).2.1
  case restarts =>
    intro i before strength stands changed
    have finite := settings.strengths strength (List.mem_of_getElem? stands)
    have begun := ((carriedOut family run.source.dimension).begin
      (trail.sized i (Nat.le_of_lt before)) { run.context with strength := strength }).2
    exact ⟨_, begun, State.restarted_begin finite changed⟩
  case divides =>
    intro i before strength stands
    have finite := settings.strengths strength (List.mem_of_getElem? stands)
    obtain ⟨_, found, next⟩ := trail.leads i before
    cases stands.symm.trans found
    obtain ⟨rejections, acceptances, ledger⟩ := trail.ledger_resumed settings before finite
    have course := State.course_of_cleared (State.cleared_gather family run.pass.mode (states i)
      { run.context with strength := strength } run.source.partitions)
    exact ⟨_, rfl, next, (ledger.of_course course).divides settings⟩
  case judged =>
    exact fun i before strength stands same tried => trail.judged settings before stands same tried
  case still => exact fun i before => trail.still_of_accepts settings before

/-- In exact arithmetic a run to its end keeps its step sizes, inertia and trials in range. -/
theorem steps_in_range (sure : OnFista family run) (settings : StepSettings run)
    {store : Store (Slots Exact)} (notes : List Note) (fresh : store.history run.group = []) :
    ∃ after states positions, run.toEnd ⟨.start, store, notes⟩ = .ok () after ∧
      Recorded run after states positions ∧
      InRange family run after.progress.iterations states positions := by
  obtain ⟨after, states, positions, ends, recorded, trail⟩ := sure.toEnd notes fresh
  exact ⟨after, states, positions, ends, recorded, trail.inRange settings⟩

end Runs

noncomputable def twoStrengthsRun : Run Exact :=
  { twoRowsRun with path := ⟨[number 2, 1], List.cons_ne_nil _ _⟩ }

theorem onFista_twoStrengths : OnFista .gaussian twoStrengthsRun where
  optimizer := rfl
  tested := rfl
  dimension := rfl
  features := by decide
  small := by decide
  paid := by decide

theorem stepSettings_twoStrengths : StepSettings twoStrengthsRun where
  maxStepSize := zero_lt_one (α := ℝ)
  eta := one_lt_two (α := ℝ)
  rows := by decide
  strengths := by
    intro strength inside
    rcases List.mem_pair.mp inside with rfl | rfl
    · rfl
    · rfl

theorem steps_in_range_twoStrengths :
    OnFista .gaussian twoStrengthsRun ∧ StepSettings twoStrengthsRun ∧
    ∃ after states positions, twoStrengthsRun.toEnd .start = .ok () after ∧
      Recorded twoStrengthsRun after states positions ∧
      InRange .gaussian twoStrengthsRun after.progress.iterations states positions := by
  have fresh : (Store.empty : Store (Slots Exact)).history twoStrengthsRun.group = [] := rfl
  exact ⟨onFista_twoStrengths, stepSettings_twoStrengths,
    steps_in_range onFista_twoStrengths stepSettings_twoStrengths [] fresh⟩

end Fista

end ElasticNet
