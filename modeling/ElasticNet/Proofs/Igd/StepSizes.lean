import ElasticNet.Proofs.Igd.Averages
import ElasticNet.Proofs.Igd.Dual
import ElasticNet.Proofs.Igd.Mirror
import ElasticNet.Proofs.Igd.Schedule
import ElasticNet.Proofs.Run.States
import ElasticNet.Proofs.Vouching

namespace ElasticNet.Igd

open Exact Run

structure OnIgd {α : Type} [Scalar α] (family : Family) (run : Run α) : Prop where
  optimizer : run.pass.optimizer = Igd.optimizer family
  tested : run.test.optimizer = Igd.optimizer family
  dimension : run.context.dimension = run.source.dimension
  means : run.context.means.length = run.source.dimension
  features : 0 < run.source.dimension
  small : run.source.dimension < UInt32.size
  paid : 0 < run.budget

namespace OnIgd

variable {α : Type} [Scalar α] [Scalar.KeepsCounts α] {family : Family} {run : Run α}
  (sure : OnIgd family run)
include sure

theorem onKernel : run.OnKernel (kernel family) (initialState family) layout
    (State.Sized run.source.dimension) :=
  Igd.onKernel sure.optimizer sure.dimension sure.means rfl sure.features sure.small

theorem answers : run.Answers := by
  have reliable := Igd.reliable (α := α) family sure.features sure.small
  rw [← sure.optimizer] at reliable
  exact Run.OnReliable.answers ⟨reliable, sure.tested.trans sure.optimizer.symm, sure.dimension,
    sure.means, rfl, sure.paid⟩

end OnIgd

structure StepSettings (run : Run Exact) (stepSize decay : ℝ) : Prop where
  stepSize : run.context.stepSize = number stepSize
  decay : run.context.stepDecay = number decay
  strengths : ∀ strength ∈ run.path.strengths, Scalar.isFinite strength = true

namespace StepSettings

variable {run : Run Exact} {stepSize decay : ℝ} (settings : StepSettings run stepSize decay)
  (strength : Exact)
include settings

theorem stepSize_along :
    ({ run.context with strength := strength } : StepContext Exact).stepSize = number stepSize :=
  settings.stepSize

theorem decay_along :
    ({ run.context with strength := strength } : StepContext Exact).stepDecay = number decay :=
  settings.decay

end StepSettings

def strengthAt (run : Run Exact) (positions : ℕ → ℕ) (i : ℕ) : Option Exact :=
  run.path.strengths[positions i - 1]?

open Classical in
/-- The rows that the steps of a pass are counted on from: each pass before it at the same strength
    adds some, and a pass at another strength than the one before counts from none. -/
noncomputable def rowsBefore (run : Run Exact) (positions : ℕ → ℕ) (each : ℕ) : ℕ → ℕ
  | 0 => 0
  | i + 1 =>
    if strengthAt run positions (i + 1) = strengthAt run positions i then
      rowsBefore run positions each i + each
    else 0

def TakesWith (family : Family) (row : Row Exact) (step : ℝ) (slots : Slots Exact) : Prop :=
  ∃ state, layout.view? slots = some state ∧ state.decay.stepSize = number step ∧
    (optimizer family).transition row.features row.response slots =
      .ok () (layout.write (state.transition family row.features row.response))

/-- Every row of a run is taken in with the step size after the rows that were counted before it:
    those before the pass, and those before it in its own list. -/
def FollowsSchedule (family : Family) (run : Run Exact) (stepSize decay : ℝ) (each : ℕ)
    (slots : ℕ → Slots Exact) (positions : ℕ → ℕ) (total : ℕ) : Prop :=
  ∀ i < total, ∀ strength, strengthAt run positions i = some strength → ∃ fresh,
    (optimizer family).begin (some (slots i)) { run.context with strength := strength } =
      .ok fresh ∧
    ∀ rows ∈ run.pass.mode.lanes run.source.partitions, ∀ (r : ℕ) (inside : r < rows.length),
      ∃ before, Pass.foldRows (optimizer family) (rows.take r) fresh = .ok () before ∧
        TakesWith family rows[r]
          (scheduledStep stepSize decay (rowsBefore run positions each i + r)) before

section Runs

variable {family : Family} {run : Run Exact} {stepSize decay : ℝ} {states : ℕ → State Exact}
  {positions : ℕ → ℕ} {total : ℕ}

theorem OnSchedule.along
    (through : run.PassesThrough (kernel family) (initialState family) states positions total)
    (first : positions 0 = 1) (settings : StepSettings run stepSize decay) {i : ℕ}
    (before : i < total) {strength : Exact}
    (stands : strengthAt run positions i = some strength) :
    OnSchedule stepSize decay
      (rowsBefore run positions
        (rowsAhead stepSize decay (run.pass.mode.lanes run.source.partitions)) i)
      ((states i).begin { run.context with strength := strength }) := by
  have finite {i : ℕ} {strength : Exact} (stands : strengthAt run positions i = some strength) :
      Scalar.isFinite strength = true := settings.strengths strength (List.mem_of_getElem? stands)
  induction i generalizing strength with
  | zero =>
    obtain ⟨baseline, held, given⟩ := through.baseline
    have same : baseline = strength := by
      unfold strengthAt at stands
      rw [first] at stands
      exact Option.some.inj (held.symm.trans stands)
    have starts : OnSchedule stepSize decay 0 (states 0) := by
      rw [given]
      exact .initial (settings.stepSize_along baseline) (settings.decay_along baseline) family
    refine (starts.begin (settings.stepSize_along strength) (finite stands)).1 ?_
    rw [given]
    exact same.symm
  | succ i ih =>
    obtain ⟨last, held, next⟩ := through.passes i (Nat.lt_of_succ_lt before)
    have ends := (ih (Nat.lt_of_succ_lt before) held).pass family run.pass.mode
      run.source.partitions
    have kept : (states (i + 1)).strength = last := by
      rw [next]
      exact eq_of_same (finite held)
        ((atStrength family).pass run.pass.mode (states i) _ run.source.partitions)
    rw [← next] at ends
    have begins := ends.begin (settings.stepSize_along strength) (finite stands)
    by_cases same : strength = last
    · have stays : strengthAt run positions (i + 1) = strengthAt run positions i := by
        rw [stands, same]
        exact held.symm
      rw [rowsBefore, if_pos stays]
      exact begins.1 (same.trans kept.symm)
    · have changes : strengthAt run positions (i + 1) ≠ strengthAt run positions i := by
        rw [stands]
        exact fun stays => same (Option.some.inj (stays.trans held))
      rw [rowsBefore, if_neg changes]
      exact begins.2 fun stays => same (stays.trans kept)

theorem FollowsSchedule.of_passes
    (through : run.PassesThrough (kernel family) (initialState family) states positions total)
    (first : positions 0 = 1) (settings : StepSettings run stepSize decay)
    {slots : ℕ → Slots Exact}
    (held : ∀ i ≤ total, (states i).Sized run.source.dimension ∧
      slots i = layout.write (states i)) :
    FollowsSchedule family run stepSize decay
      (rowsAhead stepSize decay (run.pass.mode.lanes run.source.partitions)) slots positions
      total := by
  intro i before strength stands
  have carried := carriedOut (α := Exact) family run.source.dimension
  have on := OnSchedule.along through first settings before stands
  obtain ⟨sized, same⟩ := held i (Nat.le_of_lt before)
  obtain ⟨fresh, begun⟩ := carried.begin sized { run.context with strength := strength }
  rw [same]
  refine ⟨_, begun, fun rows listed r inside => ?_⟩
  have fitting : ∀ row ∈ rows, row.features.length = run.source.dimension :=
    fun row taken => PassMode.length_features listed taken
  obtain ⟨reached, folded⟩ :=
    carried.foldRows (fun row taken => fitting row (List.mem_of_mem_take taken)) fresh
  have counted := on.foldRows family (rows.take r)
  rw [List.length_take, Nat.min_eq_left (Nat.le_of_lt inside)] at counted
  exact ⟨_, folded, _, (readsBack reached).view?, counted.decayed,
    (carried.transition reached (fitting rows[r] (List.getElem_mem inside))).2⟩

theorem rowsAhead_single (source : Source Exact) :
    rowsAhead stepSize decay (PassMode.single.lanes source.partitions) = source.completeCount := by
  have all : (source.partitions.flatMap Partition.complete).length = source.completeCount :=
    congrArg List.length source.filter_rows.symm
  rw [← all]
  unfold PassMode.lanes
  dsimp only
  by_cases none : source.partitions.flatMap Partition.complete = []
  · rw [none]
    exact rowsAhead_of_none stepSize decay rfl
  · obtain ⟨row, rest, given⟩ := List.exists_cons_of_ne_nil none
    rw [given]
    exact rowsAhead_of_some stepSize decay (withoutEmpty_cons_cons row rest [])

theorem scheduledStep_of_changed {each i : ℕ}
    (changed : ∀ j, i = j + 1 → strengthAt run positions i ≠ strengthAt run positions j) :
    scheduledStep stepSize decay (rowsBefore run positions each i) = stepSize := by
  cases i with
  | zero => exact scheduledStep_zero stepSize decay
  | succ j =>
    rw [rowsBefore, if_neg (changed j rfl)]
    exact scheduledStep_zero stepSize decay

theorem TakesWith.unique {row : Row Exact} {step other : ℝ} {slots : Slots Exact}
    (takes : TakesWith family row step slots)
    (again : TakesWith family row other slots) : step = other := by
  obtain ⟨state, held, decayed, _⟩ := takes
  obtain ⟨same, reads, twice, _⟩ := again
  cases held.symm.trans reads
  exact number.inj (decayed.symm.trans twice)

/-- The first step of a second pass at one strength tells by how many rows the first pass has moved
    on. -/
theorem FollowsSchedule.unique {each other : ℕ} {slots : ℕ → Slots Exact}
    (follows : FollowsSchedule family run stepSize decay each slots positions total)
    (again : FollowsSchedule family run stepSize decay other slots positions total)
    (second : 1 < total) {strength : Exact} (first : strengthAt run positions 0 = some strength)
    (stands : strengthAt run positions 1 = some strength) {rows : List (Row Exact)}
    (listed : rows ∈ run.pass.mode.lanes run.source.partitions) (some : 0 < rows.length) :
    scheduledStep stepSize decay each = scheduledStep stepSize decay other := by
  have counted (each : ℕ) : rowsBefore run positions each 1 + 0 = each := by
    have stays : strengthAt run positions (0 + 1) = strengthAt run positions 0 :=
      stands.trans first.symm
    rw [rowsBefore, if_pos stays, rowsBefore, Nat.zero_add, Nat.add_zero]
  obtain ⟨fresh, begins, taken⟩ := follows 1 second strength stands
  obtain ⟨same, beginsToo, takenToo⟩ := again 1 second strength stands
  cases begins.symm.trans beginsToo
  obtain ⟨before, reached, takes⟩ := taken rows listed 0 some
  obtain ⟨behind, reachedToo, takesToo⟩ := takenToo rows listed 0 some
  cases reached
  cases reachedToo
  rw [counted] at takes takesToo
  exact takes.unique takesToo

end Runs

noncomputable def zeroRow : Row Exact :=
  ⟨[0], 0, ""⟩

noncomputable def zeroRows : Source Exact where
  dimension := 1
  partitions := [⟨1, [zeroRow], by simp [zeroRow]⟩, ⟨1, [zeroRow, zeroRow], by simp [zeroRow]⟩]
  uniform := by simp

noncomputable def zeroRun (stepSize : ℝ) : Run Exact where
  group := none
  path := ⟨[number 1], List.cons_ne_nil _ _⟩
  pass := ⟨optimizer .gaussian, .parallel⟩
  test := ⟨optimizer .gaussian, 0, 0⟩
  context :=
    { StepContext.default with
      dimension := 1
      totalRows := 3
      means := [0]
      stepSize := number stepSize
      stepDecay := 1 }
  source := zeroRows
  budget := 2

theorem onIgd_zeroRun (stepSize : ℝ) : OnIgd .gaussian (zeroRun stepSize) where
  optimizer := rfl
  tested := rfl
  dimension := rfl
  means := rfl
  features := Nat.one_pos
  small := (by decide : 1 < UInt32.size)
  paid := Nat.two_pos

theorem stepSettings_zeroRun (stepSize : ℝ) : StepSettings (zeroRun stepSize) stepSize 1 where
  stepSize := rfl
  decay := rfl
  strengths := by
    intro strength inside
    cases List.mem_singleton.mp inside
    rfl

theorem lanes_zeroRows :
    PassMode.parallel.lanes zeroRows.partitions = [[zeroRow], [zeroRow, zeroRow]] := rfl

noncomputable def zeroState (stepSize : ℝ) (rows : ℕ) : State Exact where
  dimension := (1 : ℕ)
  mixing := 1
  threshold := 1e-10
  stepDecay := 1
  exponent := number 2
  dualExponent := number 2
  totalRows := (3 : ℕ)
  means := [0]
  responseMean := 0
  strength := 1
  stepSize := number stepSize
  coefficients := [0]
  dual := [0]
  intercept := 0
  rows := rows
  logLikelihood := 0
  status := Status.inProcess.slot

theorem link_zeros : link (number 2) [0] = [0] := by
  have zeros : [(0 : Exact)] = ofVector (0 : Fin 1 → ℝ) := zeros_eq (n := 1)
  have tiny : AboveTiny (0 : Fin 1 → ℝ) := fun j nonzero => absurd rfl nonzero
  rw [zeros, link_ofVector two_pos tiny, mirror_zero]

theorem sparseDot_zeros : Vector.sparseDot [(0 : Exact)] [0] = 0 := by
  have product := sparseDot_ofVector (0 : Fin 1 → ℝ) 0
  rw [dotProduct_zero] at product
  exact product

section ZeroState

variable (stepSize : ℝ) (rows : ℕ)

theorem initialState_zeroRun :
    initialState .gaussian { (zeroRun stepSize).context with strength := number 1 } =
      zeroState (stepSize * Real.exp 1) 0 := by
  have exponent : Scalar.max (2.0 : Exact) (2.0 * Scalar.log ((1 : ℕ) : Exact)) = number 2 := by
    rw [natCast_eq, Nat.cast_one, log_number one_pos, Real.log_one, two_eq, number_mul, max_number,
      mul_zero, max_eq_left zero_le_two]
  have dualExponent : number 2 / (number 2 - 1) = number 2 := by
    rw [one_eq, number_sub, number_div _ (by norm_num)]
    norm_num
  have stored : number stepSize * Scalar.exp 1 = number (stepSize * Real.exp 1) := rfl
  have coefficients : link (number 2) (Vector.zeros 1) = [0] := link_zeros
  have cleared : ((0 : ℕ) : Exact) = 0 := natCast_zero
  unfold initialState zeroRun zeroState storedStepSize
  dsimp only
  rw [exponent, dualExponent, stored, coefficients, cleared]
  rfl

theorem decay_zeroState :
    (zeroState stepSize rows).decay = zeroState (stepSize / Real.exp 1) rows := by
  unfold State.decay zeroState
  dsimp only
  rw [one_eq, exp_number, number_div _ (Real.exp_ne_zero 1)]

theorem predictor_zeroState : (zeroState stepSize rows).predictor [0] = 0 := by
  change Vector.sparseDot [(0 : Exact)] [0] + 0 = 0
  rw [sparseDot_zeros]
  exact Exact.add_zero 0

theorem gradient_zeroState : (zeroState stepSize rows).gradient .gaussian 0 [0] = [0] := by
  change [0 * 0 + (1 - 1) * 1 * 0 - 0 * (0 : Exact)] = [0]
  rw [zero_eq, one_eq]
  simp

theorem descend_zeroState :
    (zeroState stepSize rows).descend .gaussian 0 [0] = zeroState stepSize rows := by
  have total : Scalar.ofCount (Scalar.toUInt64 ((3 : ℕ) : Exact)) = number 3 :=
    ofCount_toUInt64 (by decide)
  have three : (3 : ℝ) ≠ 0 := by norm_num
  have still (step threshold : ℝ) :
      truncateAtZero (number threshold) (0 - number step * 0) = 0 := by
    unfold truncateAtZero
    rw [zero_eq]
    simp [sign_number]
  unfold State.descend
  dsimp only
  rw [gradient_zeroState]
  unfold zeroState
  dsimp only
  rw [total, one_eq, number_mul, number_mul, number_div _ three, number_div _ three,
    List.zipWith_cons_cons, still, List.zipWith_nil_left, link_zeros]

theorem centeredIntercept_zeroState : (zeroState stepSize rows).centeredIntercept = 0 := by
  change 0 - Vector.sparseDot [(0 : Exact)] [0] = 0
  rw [sparseDot_zeros, zero_eq, number_sub, sub_zero]

theorem adjustIntercept_zeroState : (zeroState stepSize rows).adjustIntercept .gaussian 0 =
    zeroState stepSize rows := by
  change { zeroState stepSize rows with intercept := (zeroState stepSize rows).centeredIntercept } =
    zeroState stepSize rows
  rw [centeredIntercept_zeroState]
  rfl

theorem transition_zeroState :
    (zeroState stepSize rows).transition .gaussian [0] 0 =
      zeroState (stepSize / Real.exp 1) (rows + 1) := by
  have slope : Family.gaussian.derivative (0 : Exact) (Family.gaussian.label 0) = 0 := by
    change (0 : Exact) - 0 = 0
    rw [zero_eq, number_sub, sub_zero]
  have loss : Family.gaussian.loss (0 : Exact) (Family.gaussian.label 0) = 0 := by
    change (0.5 : Exact) * (0 - 0) * (0 - 0) = 0
    rw [half_eq, zero_eq]
    simp
  have counted : (rows : Exact) + 1 = ((rows + 1 : ℕ) : Exact) := by
    rw [natCast_eq, natCast_eq, one_eq, number_add, Nat.cast_add_one]
  unfold State.transition
  dsimp only
  rw [decay_zeroState, predictor_zeroState, slope, descend_zeroState, predictor_zeroState, slope,
    adjustIntercept_zeroState, predictor_zeroState, loss]
  unfold State.countRow zeroState
  dsimp only
  rw [counted, Exact.add_zero]

theorem average_zeroState (other : ℝ) {more : ℕ} (some : more ≠ 0)
    (few : rows + more < UInt64.size) :
    ∃ least, (zeroState stepSize rows).average .gaussian (zeroState other more) =
      zeroState least (rows + more) := by
  have nonzero : (more : ℝ) ≠ 0 := Nat.cast_ne_zero.mpr some
  have total : ((rows + more : ℕ) : ℝ) ≠ 0 := Nat.cast_ne_zero.mpr (by omega)
  have coefficients : Vector.scale ((more : Exact) / ((rows + more : ℕ) : Exact))
      (Vector.add (Vector.scale ((rows : Exact) / (more : Exact)) [0]) [0]) = [0] := by
    rw [natCast_eq, natCast_eq, natCast_eq, number_div _ nonzero, number_div _ total, zero_eq]
    simp [Vector.scale, Vector.add]
  rw [average_of_counts (rfl : (zeroState stepSize rows).rows = (rows : Exact))
    (rfl : (zeroState other more).rows = (more : Exact)) few]
  unfold zeroState
  dsimp only
  rw [coefficients, Exact.add_zero]
  split
  · exact ⟨other, rfl⟩
  · exact ⟨stepSize, rfl⟩

theorem status_finalize_zeroState {rows : ℕ} (some : rows ≠ 0) (few : rows < UInt64.size) :
    ((zeroState stepSize rows).finalize .gaussian).status = Status.inProcess.slot := by
  have seen : Scalar.toUInt64 (zeroState stepSize rows).rows ≠ 0 :=
    (toUInt64_eq_zero rows).not.mpr some
  have penalty : (zeroState stepSize rows).penalty = 0 := by
    unfold State.penalty zeroState
    dsimp only [List.foldl]
    rw [zero_eq, one_eq, two_eq]
    simp [number_div _ (two_ne_zero' ℝ)]
  have loss : (0 : Exact) / Scalar.ofCount (Scalar.toUInt64 (rows : Exact)) = 0 := by
    rw [ofCount_toUInt64 few, natCast_eq, zero_eq, number_div _ (Nat.cast_ne_zero.mpr some),
      zero_div]
  have logLikelihood : -((zeroState stepSize rows).logLikelihood /
      Scalar.ofCount (Scalar.toUInt64 (zeroState stepSize rows).rows) +
        (zeroState stepSize rows).penalty) = 0 := by
    rw [penalty]
    change -((0 : Exact) / Scalar.ofCount (Scalar.toUInt64 (rows : Exact)) + 0) = 0
    rw [loss, zero_eq, number_add, number_neg, add_zero, neg_zero]
  rw [finalize_of_rows .gaussian seen]
  dsimp only
  rw [logLikelihood]
  change (if Scalar.isFinite (zeroState stepSize rows).centeredIntercept && true then _
    else _ : Status).slot = _
  rw [centeredIntercept_zeroState]
  rfl

end ZeroState

theorem filled_zeroState (stepSize : ℝ) {rows : ℕ} (some : rows ≠ 0) :
    (zeroState stepSize rows).Filled :=
  ⟨rows, some, rfl⟩

theorem status_pass_zeroRows (stepSize : ℝ) {context : StepContext Exact}
    (same : context.strength = 1) :
    ((kernel .gaussian).pass .parallel (zeroState stepSize 0) context zeroRows.partitions).status =
      Status.inProcess.slot := by
  have fresh : (zeroState stepSize 0).begin context = zeroState stepSize 0 := by
    have kept : ¬((zeroState stepSize 0).strength != context.strength) = true := by
      rw [same]
      exact fun unequal => (bne_iff_ne rfl).mp unequal rfl
    have cleared : ((0 : ℕ) : Exact) = 0 := natCast_zero
    unfold State.begin
    rw [if_neg kept]
    unfold zeroState
    rw [cleared]
  have gathered : (kernel .gaussian).gather .parallel (zeroState stepSize 0) context
      zeroRows.partitions =
      (((zeroState stepSize 0).begin context).transition .gaussian [0] 0).merge .gaussian
        ((((zeroState stepSize 0).begin context).transition .gaussian [0] 0).transition
          .gaussian [0] 0) := rfl
  obtain ⟨least, averaged⟩ := average_zeroState (stepSize / Real.exp 1) 1
    (stepSize / Real.exp 1 / Real.exp 1) two_ne_zero (by decide)
  have merged : (zeroState (stepSize / Real.exp 1) (0 + 1)).merge .gaussian
      (zeroState (stepSize / Real.exp 1 / Real.exp 1) (0 + 1 + 1)) = zeroState least 3 :=
    ((filled_zeroState _ one_ne_zero).merge_eq_average (filled_zeroState _ two_ne_zero)
      .gaussian).trans averaged
  change (State.finalize .gaussian _).status = _
  rw [gathered, fresh, transition_zeroState, transition_zeroState, merged]
  exact status_finalize_zeroState least (by decide) (by decide)

theorem not_abs_lt_zero (x : Exact) : ¬Scalar.abs x < 0 := by
  cases x with
  | number r => exact not_lt.mpr (abs_nonneg r)
  | undefined => exact id

theorem second_pass_zeroRun {stepSize : ℝ} {states : ℕ → State Exact} {positions : ℕ → ℕ}
    {slots : ℕ → Slots Exact} {phase : Phase} {total : ℕ}
    (through : (zeroRun stepSize).PassesThrough (kernel .gaussian) (initialState .gaussian) states
      positions total)
    (held : ∀ i ≤ total, (states i).Sized 1 ∧ slots i = layout.write (states i))
    (first : positions 0 = 1) (positive : 1 ≤ total)
    (stops : (zeroRun stepSize).Stops slots positions (total - 1) phase) : 1 < total := by
  refine Nat.lt_of_le_of_ne positive fun alone => ?_
  subst alone
  obtain ⟨start, given⟩ := held 0 (Nat.zero_le 1)
  obtain ⟨next, passed⟩ := held 1 (Nat.le_refl 1)
  have status : (slots 1).status = .ok .inProcess := by
    obtain ⟨baseline, stands, starts⟩ := through.baseline
    obtain ⟨strength, found, follows⟩ := through.passes 0 Nat.one_pos
    rw [first] at found
    cases stands
    cases found
    rw [starts, initialState_zeroRun] at follows
    have told : (states 1).status = Status.inProcess.slot := by
      rw [follows]
      exact status_pass_zeroRows _ rfl
    rw [passed, statusLast.read_status, told]
    exact congrArg Except.ok (Status.ofSlot_slot nofun)
  cases stops with
  | diverged ended => cases status.symm.trans ended
  | nothingToFit ended => cases status.symm.trans ended
  | spent _ _ _ _ last => cases last
  | unreached _ _ last => cases last
  | converged _ _ measured below =>
    rw [given, passed] at measured
    cases (distance_write start next .gaussian).symm.trans measured
    exact not_abs_lt_zero _ below

section OneFeature

variable (decay strength : ℝ)

noncomputable def afterOnes : State Exact :=
  (initialState .gaussian (onesContext 1 decay strength)).transition .gaussian (onesRow 1).features
    (onesRow 1).response

theorem coefficients_afterOnes :
    (afterOnes decay strength).coefficients = ofVector (1 : Fin 1 → ℝ) := by
  have linked : (initialState .gaussian (onesContext 1 decay strength)).Linked (exponentFor 1) :=
    @linked_initialState .gaussian (onesContext 1 decay strength) Nat.one_pos
  have exponent : (initialState .gaussian (onesContext 1 decay strength)).exponent = number 2 := by
    rw [linked.exponent]
    exact congrArg number exponentFor_one
  have shown : AboveTiny (1 : Fin 1 → ℝ) :=
    aboveTiny_of_third_le fun _ => by norm_num
  have dual := dual_transition_ones Nat.one_pos decay strength
  change link (initialState .gaussian (onesContext 1 decay strength)).exponent
    (afterOnes decay strength).dual = _
  rw [exponent]
  unfold afterOnes
  rw [dual, link_ofVector two_pos shown, mirror_two]

theorem centeredIntercept_afterOnes :
    (afterOnes decay strength).centeredIntercept = number 0 := by
  change number 0 - Vector.sparseDot (afterOnes decay strength).coefficients
    (ofVector (0 : Fin 1 → ℝ)) = _
  rw [coefficients_afterOnes, sparseDot_ofVector, dotProduct_zero, number_sub, sub_zero]

theorem logLikelihood_afterOnes : (afterOnes decay strength).logLikelihood = number 0 := by
  change number 0 + 0.5 *
    (number 1 - (Vector.sparseDot (afterOnes decay strength).coefficients (ofVector 1) +
      (afterOnes decay strength).centeredIntercept)) *
    (number 1 - (Vector.sparseDot (afterOnes decay strength).coefficients (ofVector 1) +
      (afterOnes decay strength).centeredIntercept)) = _
  rw [centeredIntercept_afterOnes, coefficients_afterOnes, sparseDot_ofVector, half_eq, number_add,
    number_sub, number_mul, number_mul, number_add]
  simp

theorem penalty_afterOnes : (afterOnes decay strength).penalty = number (strength / 2) := by
  unfold State.penalty
  rw [coefficients_afterOnes]
  change number strength * ((1 - number 0) * (number 0 + number 1 * number 1) / 2.0 +
    number 0 * (number 0 + number |1|)) = _
  rw [one_eq, two_eq, number_sub, number_mul, number_add, number_mul, number_div _ two_ne_zero,
    number_add, number_mul, number_add, number_mul]
  norm_num
  ring

theorem finalize_afterOnes :
    ((afterOnes decay strength).finalize .gaussian).status = Status.inProcess.slot ∧
      ((afterOnes decay strength).finalize .gaussian).logLikelihood = number (-(strength / 2)) := by
  have rows : (afterOnes decay strength).rows = ((1 : ℕ) : Exact) := by
    change (0 : Exact) + 1 = _
    rw [natCast_eq, zero_eq, one_eq, number_add, zero_add, Nat.cast_one]
  have some : Scalar.toUInt64 (afterOnes decay strength).rows ≠ 0 := by
    rw [rows]
    exact (toUInt64_eq_zero 1).not.mpr one_ne_zero
  have total : Scalar.ofCount (Scalar.toUInt64 (afterOnes decay strength).rows) = number 1 := by
    rw [rows, ofCount_toUInt64 (by decide), natCast_eq, Nat.cast_one]
  rw [finalize_of_rows .gaussian some]
  dsimp only
  rw [total, logLikelihood_afterOnes, penalty_afterOnes, coefficients_afterOnes, allFinite_ofVector]
  rw [number_div _ one_ne_zero, number_add, number_neg, zero_div, zero_add]
  refine ⟨?_, rfl⟩
  change (if Scalar.isFinite (afterOnes decay strength).centeredIntercept && true then _
    else _ : Status).slot = _
  rw [centeredIntercept_afterOnes]
  rfl

theorem pass_ones : (kernel .gaussian).pass .single
    (initialState .gaussian (onesContext 1 decay strength)) (onesContext 1 decay strength)
    (onesSource 1).partitions = (afterOnes decay strength).finalize .gaussian := by
  change (((kernel .gaussian).foldRows _ _ : State Exact).finalize .gaussian) = _
  rw [complete_onesSource]
  change ((((initialState .gaussian (onesContext 1 decay strength)).begin
    (onesContext 1 decay strength)).transition .gaussian _ _).finalize .gaussian) = _
  rw [begin_initialState_ones]
  rfl

end OneFeature

noncomputable def twoStrengths : Run Exact where
  group := none
  path := ⟨[number 2, number 1], List.cons_ne_nil _ _⟩
  pass := ⟨optimizer .gaussian, .single⟩
  test := ⟨optimizer .gaussian, 0, number 2⟩
  context := onesContext 1 1 0
  source := onesSource 1
  budget := 2

theorem onIgd_twoStrengths : OnIgd .gaussian twoStrengths where
  optimizer := rfl
  tested := rfl
  dimension := rfl
  means := length_ofVector 0
  features := Nat.one_pos
  small := (by decide : 1 < UInt32.size)
  paid := Nat.two_pos

theorem stepSettings_twoStrengths : StepSettings twoStrengths 1 1 where
  stepSize := rfl
  decay := rfl
  strengths := by
    intro strength inside
    rcases List.mem_pair.mp inside with rfl | rfl
    · rfl
    · rfl

theorem first_pass_twoStrengths {slots : ℕ → Slots Exact} {positions : ℕ → ℕ} {total : ℕ}
    (follows : twoStrengths.Follows slots positions total) (positive : 0 < total) :
    (slots 1).status = .ok .inProcess ∧ positions 1 = 2 := by
  obtain ⟨states, through, held⟩ := onIgd_twoStrengths.onKernel.exists_states follows
  obtain ⟨start, given⟩ := held 0 (Nat.zero_le total)
  obtain ⟨next, passed⟩ := held 1 positive
  obtain ⟨_, stands, starts⟩ := through.baseline
  obtain ⟨_, found, stepped⟩ := through.passes 0 positive
  rw [follows.first] at found
  cases stands
  cases found
  have made : states 1 = (afterOnes 1 2).finalize .gaussian := by
    rw [stepped, starts]
    exact pass_ones 1 2
  obtain ⟨status, logLikelihood⟩ := finalize_afterOnes 1 2
  rw [← made] at status logLikelihood
  constructor
  · rw [passed, statusLast.read_status, status]
    exact congrArg Except.ok (Status.ofSlot_slot nofun)
  · obtain ⟨distance, measured, moves⟩ := follows.moves 0 positive
    rw [given, passed] at measured
    have below : distance < number 2 := by
      cases (distance_write start next .gaussian).symm.trans measured
      rw [starts, logLikelihood]
      change number |(|(0 : ℝ)| - |(-(2 / 2) : ℝ)|)| < number 2
      rw [number_lt]
      norm_num
    rw [moves, follows.first]
    exact if_pos ⟨by decide, below⟩

theorem second_pass_twoStrengths {after : RunState Exact}
    (ends : twoStrengths.toEnd .start = .ok () after) : 1 < after.progress.iterations := by
  have sure := onIgd_twoStrengths
  have fresh : (Store.empty : Store (Slots Exact)).history twoStrengths.group = [] := rfl
  obtain ⟨same, total, again, ended⟩ := twoStrengths.toEnd_ended sure.paid sure.answers [] fresh
  cases ends.symm.trans again
  obtain rfl := ended.walked.iterations
  refine Nat.lt_of_le_of_ne ended.positive fun alone => ?_
  obtain ⟨status, _⟩ := first_pass_twoStrengths ended.walked.follows ended.positive
  have stops := ended.stops
  rw [← alone] at stops
  generalize after.progress.phase = phase at stops
  cases stops with
  | diverged terminated => cases status.symm.trans terminated
  | nothingToFit empty => cases status.symm.trans empty
  | converged _ target | spent _ target => cases target
  | unreached _ _ last => cases last

/-- A run to its end takes in every row with a step size of the schedule: the one that is asked for,
    decayed once for every row before it in its own list and for the rows that the passes before at
    the same strength have moved on by. Over all rows at once these are all complete rows; over
    partitions apart, those of the longest partition as long as step sizes fall. -/
theorem steps_follow_schedule {family : Family} {run : Run Exact} {stepSize decay : ℝ}
    (sure : OnIgd family run) (settings : StepSettings run stepSize decay)
    {store : Store (Slots Exact)} (notes : List Note) (fresh : store.history run.group = []) :
    ∃ after slots positions,
      run.toEnd ⟨.start, store, notes⟩ = .ok () after ∧
      run.Follows slots positions after.progress.iterations ∧
      (∀ position iteration recorded,
        after.store.lookup (run.key position iteration) = .ok recorded ↔
          recorded = slots iteration ∧
          Commits positions after.progress.iterations after.progress.phase.position position
            iteration) ∧
      FollowsSchedule family run stepSize decay
        (rowsAhead stepSize decay (run.pass.mode.lanes run.source.partitions)) slots positions
        after.progress.iterations ∧
      (run.pass.mode = .single →
        rowsAhead stepSize decay (run.pass.mode.lanes run.source.partitions) =
          run.source.completeCount) ∧
      ∀ i, (∀ j, i = j + 1 → strengthAt run positions i ≠ strengthAt run positions j) →
        scheduledStep stepSize decay
          (rowsBefore run positions
            (rowsAhead stepSize decay (run.pass.mode.lanes run.source.partitions)) i) =
          stepSize := by
  obtain ⟨after, total, ends, ended⟩ := run.toEnd_ended sure.paid sure.answers notes fresh
  obtain rfl := ended.walked.iterations
  have follows := ended.walked.follows
  obtain ⟨states, through, held⟩ := sure.onKernel.exists_states follows
  refine ⟨after, run.stateAfter, run.positionAfter, ends, follows, ?_,
    .of_passes through rfl settings held, ?_, fun i => scheduledStep_of_changed⟩
  · intro position iteration recorded
    rw [Store.lookup_eq_ok]
    exact ended.walked.records position iteration recorded
  · intro single
    rw [single]
    exact rowsAhead_single run.source

theorem steps_follow_schedule_twoStrengths :
    OnIgd .gaussian twoStrengths ∧ StepSettings twoStrengths 1 1 ∧
    ∃ after slots positions, twoStrengths.toEnd .start = .ok () after ∧
      FollowsSchedule .gaussian twoStrengths 1 1 1 slots positions after.progress.iterations ∧
      1 < after.progress.iterations ∧
      strengthAt twoStrengths positions 0 = some (number 2) ∧
      strengthAt twoStrengths positions 1 = some (number 1) ∧
      scheduledStep 1 1 (rowsBefore twoStrengths positions 1 1) = 1 := by
  have fresh : (Store.empty : Store (Slots Exact)).history twoStrengths.group = [] := rfl
  obtain ⟨after, slots, positions, ends, follows, _, scheduled, single, restarts⟩ :=
    steps_follow_schedule onIgd_twoStrengths stepSettings_twoStrengths [] fresh
  have counted : twoStrengths.source.completeCount = 1 := by
    change ((onesSource 1).rows.filter Row.isComplete).length = 1
    rw [(onesSource 1).filter_rows, complete_onesSource]
    rfl
  rw [single rfl, counted] at scheduled restarts
  have more := second_pass_twoStrengths ends
  obtain ⟨_, second⟩ := first_pass_twoStrengths follows (Nat.lt_of_succ_lt more)
  have before : strengthAt twoStrengths positions 0 = some (number 2) := by
    unfold strengthAt
    rw [follows.first]
    rfl
  have behind : strengthAt twoStrengths positions 1 = some (number 1) := by
    unfold strengthAt
    rw [second]
    rfl
  have restarted := restarts 1 fun j next => by
    cases next
    rw [before, behind]
    norm_num
  exact ⟨onIgd_twoStrengths, stepSettings_twoStrengths, after, slots, positions, ends, scheduled,
    more, before, behind, restarted⟩

/-- Where step sizes rise the longest partition does not count: the second pass takes up the count
    of the shortest one. -/
theorem longest_partition_not_counted :
    OnIgd .gaussian (zeroRun (-1)) ∧ StepSettings (zeroRun (-1)) (-1) 1 ∧
    (zeroRun (-1)).pass.mode = .parallel ∧
    ((zeroRun (-1)).source.partitions.map fun part => part.complete.length).max? = some 2 ∧
    ∃ after slots positions, (zeroRun (-1)).toEnd .start = .ok () after ∧
      (zeroRun (-1)).Follows slots positions after.progress.iterations ∧
      ¬FollowsSchedule .gaussian (zeroRun (-1)) (-1) 1 2 slots positions
        after.progress.iterations := by
  have sure := onIgd_zeroRun (-1)
  have settings := stepSettings_zeroRun (-1)
  have fresh : (Store.empty : Store (Slots Exact)).history (zeroRun (-1)).group = [] := rfl
  obtain ⟨after, total, ends, ended⟩ := (zeroRun (-1)).toEnd_ended sure.paid sure.answers [] fresh
  obtain rfl := ended.walked.iterations
  have follows := ended.walked.follows
  obtain ⟨states, through, held⟩ := sure.onKernel.exists_states follows
  have second := second_pass_zeroRun through held rfl ended.positive ended.stops
  refine ⟨sure, settings, rfl, rfl, after, _, _, ends, follows, fun longest => ?_⟩
  have stays : (zeroRun (-1)).positionAfter 1 = 1 := by
    obtain ⟨_, _, moves⟩ := follows.moves 0 ended.positive
    exact moves.trans (if_neg fun further => Nat.lt_irrefl 1 further.1)
  have stands : strengthAt (zeroRun (-1)) (zeroRun (-1)).positionAfter 1 = some 1 := by
    unfold strengthAt
    rw [stays]
    rfl
  have shortest : rowsAhead (-1) 1 ((zeroRun (-1)).pass.mode.lanes
      (zeroRun (-1)).source.partitions) = 1 := by
    have rises : ¬(0 : ℝ) ≤ -1 * 1 := by norm_num
    change rowsAhead (-1) 1 (PassMode.parallel.lanes zeroRows.partitions) = 1
    rw [lanes_zeroRows, rowsAhead, if_neg rises]
    rfl
  have scheduled := FollowsSchedule.of_passes through rfl settings held
  rw [shortest] at scheduled
  have inside : [zeroRow] ∈ (zeroRun (-1)).pass.mode.lanes (zeroRun (-1)).source.partitions :=
    List.mem_cons_self
  have same := scheduled.unique longest second rfl stands inside Nat.one_pos
  have exponents := Real.exp_injective (mul_left_cancel₀ (neg_ne_zero.mpr one_ne_zero) same)
  norm_num at exponents

end ElasticNet.Igd
