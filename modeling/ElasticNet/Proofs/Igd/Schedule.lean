import ElasticNet.Proofs.Exact
import ElasticNet.Proofs.Shares

namespace ElasticNet

/-- The rows that a pass takes in one after the other, each list from the state it begins with. -/
def PassMode.lanes {α : Type} [Scalar α] (mode : PassMode) (partitions : List (Partition α)) :
    List (List (Row α)) :=
  match mode with
  | .single => [partitions.flatMap Partition.complete]
  | .parallel => partitions.map Partition.complete

theorem PassMode.length_features {α : Type} [Scalar α] {mode : PassMode} {source : Source α}
    {rows : List (Row α)} (inside : rows ∈ mode.lanes source.partitions) {row : Row α}
    (taken : row ∈ rows) : row.features.length = source.dimension := by
  have complete {part : Partition α} (given : part ∈ source.partitions)
      (own : row ∈ part.complete) : row.features.length = source.dimension :=
    (part.length_complete own).trans (source.uniform part given)
  cases mode with
  | single =>
    rw [List.mem_singleton.mp inside] at taken
    obtain ⟨part, given, own⟩ := List.mem_flatMap.mp taken
    exact complete given own
  | parallel =>
    obtain ⟨part, given, rfl⟩ := List.mem_map.mp inside
    exact complete given taken

/-- Where nothing is neutral, a pass folds its rows and merges the states of the lists that have
    any. -/
theorem Kernel.gather_lanes {α σ : Type} [Scalar α] {kernel : Kernel α σ} {state : σ}
    {context : StepContext α} (neutral : kernel.Neutral (kernel.begin state context))
    (mode : PassMode) (partitions : List (Partition α)) :
    kernel.gather mode state context partitions =
      ((withoutEmpty (mode.lanes partitions)).map
        (kernel.foldRows (kernel.begin state context))).foldl kernel.merge
          (kernel.begin state context) := by
  cases mode with
  | parallel => exact gather_parallel neutral partitions
  | single =>
    unfold PassMode.lanes gather
    dsimp only
    by_cases none : partitions.flatMap Partition.complete = []
    · rw [none]
      rfl
    · obtain ⟨first, rest, given⟩ := List.exists_cons_of_ne_nil none
      have taken := neutral.before none
      rw [given] at taken ⊢
      exact taken.symm

namespace Igd

open Exact

section Schedule

variable (stepSize decay : ℝ)

noncomputable def scheduledStep (count : ℕ) : ℝ :=
  stepSize * Real.exp (-(count * decay))

theorem scheduledStep_zero : scheduledStep stepSize decay 0 = stepSize := by
  rw [scheduledStep, Nat.cast_zero, zero_mul, neg_zero, Real.exp_zero, mul_one]

theorem scheduledStep_succ (count : ℕ) :
    scheduledStep stepSize decay (count + 1) * Real.exp decay =
      scheduledStep stepSize decay count := by
  rw [scheduledStep, scheduledStep, mul_assoc, ← Real.exp_add]
  congr 2
  push_cast
  ring

variable {stepSize decay}

theorem scheduledStep_antitone (falls : 0 ≤ stepSize * decay) :
    Antitone (scheduledStep stepSize decay) := by
  intro first second before
  have further : (first : ℝ) ≤ second := Nat.cast_le.mpr before
  unfold scheduledStep
  rcases mul_nonneg_iff.mp falls with ⟨positive, forward⟩ | ⟨negative, backward⟩
  · apply mul_le_mul_of_nonneg_left _ positive
    exact Real.exp_le_exp.mpr (neg_le_neg (mul_le_mul_of_nonneg_right further forward))
  · apply mul_le_mul_of_nonpos_left _ negative
    exact Real.exp_le_exp.mpr (neg_le_neg (mul_le_mul_of_nonpos_right further backward))

theorem scheduledStep_monotone (rises : stepSize * decay ≤ 0) :
    Monotone (scheduledStep stepSize decay) := by
  have falls : 0 ≤ -stepSize * decay := by linarith
  intro first second before
  have mirrored := scheduledStep_antitone falls before
  unfold scheduledStep at mirrored ⊢
  linarith

variable (stepSize decay)

/-- The one of two counts of rows that leaves the lesser step size: the greater one as long as step
    sizes fall. -/
noncomputable def furtherCount (first second : ℕ) : ℕ :=
  if 0 ≤ stepSize * decay then max first second else min first second

theorem scheduledStep_furtherCount (first second : ℕ) :
    scheduledStep stepSize decay (furtherCount stepSize decay first second) =
      min (scheduledStep stepSize decay first) (scheduledStep stepSize decay second) := by
  unfold furtherCount
  split
  · next falls => exact (scheduledStep_antitone falls).map_max
  · next rises => exact (scheduledStep_monotone (le_of_not_ge rises)).map_min

theorem furtherCount_add (count first second : ℕ) :
    furtherCount stepSize decay (count + first) (count + second) =
      count + furtherCount stepSize decay first second := by
  unfold furtherCount
  split
  · exact Nat.add_max_add_left count first second
  · exact Nat.add_min_add_left count first second

/-- By how many rows a pass moves on: as many as its longest list of rows has as long as step sizes
    fall, and as few as its shortest list that is not empty where they rise. -/
noncomputable def rowsAhead {α : Type} (lanes : List (List (Row α))) : ℕ :=
  let counts := (withoutEmpty lanes).map List.length
  (if 0 ≤ stepSize * decay then counts.max? else counts.min?).getD 0

theorem rowsAhead_of_none {α : Type} {lanes : List (List (Row α))}
    (none : withoutEmpty lanes = []) :
    rowsAhead stepSize decay lanes = 0 := by
  unfold rowsAhead
  rw [none]
  split
  · rfl
  · rfl

theorem rowsAhead_of_some {α : Type} {lanes : List (List (Row α))} {first : List (Row α)}
    {rest : List (List (Row α))} (some : withoutEmpty lanes = first :: rest) :
    rowsAhead stepSize decay lanes =
      (rest.map List.length).foldl (furtherCount stepSize decay) first.length := by
  unfold rowsAhead furtherCount
  rw [some]
  split
  · rfl
  · rfl

end Schedule

structure OnSchedule (stepSize decay : ℝ) (count : ℕ) (state : State Exact) : Prop where
  stepDecay : state.stepDecay = number decay
  stored : state.stepSize = number (scheduledStep stepSize decay count * Real.exp decay)

def State.Filled (state : State Exact) : Prop :=
  ∃ count : ℕ, count ≠ 0 ∧ state.rows = (count : Exact)

namespace OnSchedule

variable {stepSize decay : ℝ} {count : ℕ} {state : State Exact}

theorem decayed (on : OnSchedule stepSize decay count state) :
    state.decay.stepSize = number (scheduledStep stepSize decay count) := by
  unfold State.decay
  have nonzero := Real.exp_ne_zero decay
  rw [on.stored, on.stepDecay, exp_number, number_div _ nonzero, mul_div_cancel_right₀ _ nonzero]

theorem transition (on : OnSchedule stepSize decay count state) (family : Family)
    (features : List Exact) (response : Exact) :
    OnSchedule stepSize decay (count + 1) (state.transition family features response) where
  stepDecay := on.stepDecay
  stored := by
    rw [scheduledStep_succ]
    exact on.decayed

theorem foldRows (on : OnSchedule stepSize decay count state) (family : Family)
    (rows : List (Row Exact)) :
    OnSchedule stepSize decay (count + rows.length) ((kernel family).foldRows state rows) := by
  induction rows generalizing count state with
  | nil => exact on
  | cons row rest ih =>
    rw [List.length_cons, Nat.add_comm rest.length 1, ← Nat.add_assoc]
    exact ih (on.transition family row.features row.response)

theorem initial {context : StepContext Exact} (given : context.stepSize = number stepSize)
    (decays : context.stepDecay = number decay) (family : Family) :
    OnSchedule stepSize decay 0 (initialState family context) where
  stepDecay := decays
  stored := by
    change context.stepSize * Scalar.exp context.stepDecay = _
    rw [given, decays, exp_number, number_mul, scheduledStep_zero]

/-- A pass at the strength of the last one takes up the steps where that left them, and a pass at
    another strength begins them anew. -/
theorem begin (on : OnSchedule stepSize decay count state) {context : StepContext Exact}
    (given : context.stepSize = number stepSize)
    (finite : Scalar.isFinite context.strength = true) :
    (context.strength = state.strength → OnSchedule stepSize decay count (state.begin context)) ∧
    (context.strength ≠ state.strength → OnSchedule stepSize decay 0 (state.begin context)) := by
  unfold State.begin
  constructor
  · intro same
    rw [if_neg fun unequal => (bne_iff_ne finite).mp unequal same.symm]
    exact ⟨on.stepDecay, on.stored⟩
  · intro changed
    rw [if_pos ((bne_iff_ne finite).mpr (Ne.symm changed))]
    refine ⟨on.stepDecay, ?_⟩
    change context.stepSize * Scalar.exp state.stepDecay = _
    rw [given, on.stepDecay, exp_number, number_mul, scheduledStep_zero]

theorem finalize (on : OnSchedule stepSize decay count state) (family : Family) :
    OnSchedule stepSize decay count (state.finalize family) := by
  unfold State.finalize
  dsimp only
  split
  · exact ⟨on.stepDecay, on.stored⟩
  · cases family with
    | gaussian => exact ⟨on.stepDecay, on.stored⟩
    | binomial => exact ⟨on.stepDecay, on.stored⟩

theorem average {first second : ℕ} {left right : State Exact}
    (on : OnSchedule stepSize decay first left) (other : OnSchedule stepSize decay second right)
    (family : Family) :
    OnSchedule stepSize decay (furtherCount stepSize decay first second)
      (left.average family right) where
  stepDecay := on.stepDecay
  stored := by
    change (if right.stepSize < left.stepSize then right.stepSize else left.stepSize) = _
    rw [on.stored, other.stored, scheduledStep_furtherCount, min_mul_of_nonneg _ _
      (Real.exp_pos decay).le]
    split
    · next less => rw [min_eq_right (le_of_lt less)]
    · next more => rw [min_eq_left (not_lt.mp more)]

end OnSchedule

namespace State.Filled

variable {left right : State Exact}

theorem toUInt64_ne_zero (filled : left.Filled) : Scalar.toUInt64 left.rows ≠ 0 := by
  obtain ⟨count, some, rows⟩ := filled
  rw [rows]
  exact (toUInt64_eq_zero count).not.mpr some

theorem foldRows {fresh : State Exact} (cleared : fresh.rows = 0) (family : Family)
    {rows : List (Row Exact)} (some : rows ≠ []) :
    ((kernel family).foldRows fresh rows).Filled := by
  refine ⟨rows.length, mt List.eq_nil_of_length_eq_zero some, ?_⟩
  rw [Kernel.read_foldRows State.rows (fun _ _ => rfl), cleared, iterate_add_one]

theorem average (filled : left.Filled) (family : Family) : (left.average family right).Filled := by
  obtain ⟨count, some, rows⟩ := filled
  refine ⟨count + (Scalar.toUInt64 right.rows).toNat, by omega, ?_⟩
  change left.rows + Scalar.ofCount (Scalar.toUInt64 right.rows) = _
  rw [rows, natCast_add]
  rfl

theorem merge_eq_average (filled : left.Filled) (other : right.Filled) (family : Family) :
    left.merge family right = left.average family right := by
  unfold State.merge
  rw [if_neg other.toUInt64_ne_zero, if_neg filled.toUInt64_ne_zero]

end State.Filled

section Passes

variable {stepSize decay : ℝ} {count : ℕ} {fresh : State Exact} (family : Family)

theorem OnSchedule.foldl_merge (on : OnSchedule stepSize decay count fresh)
    (cleared : fresh.rows = 0) {lists : List (List (Row Exact))}
    (filled : ∀ rows ∈ lists, rows ≠ []) {taken : ℕ} {left : State Exact}
    (left_on : OnSchedule stepSize decay (count + taken) left) (left_filled : left.Filled) :
    OnSchedule stepSize decay
      (count + (lists.map List.length).foldl (furtherCount stepSize decay) taken)
      ((lists.map ((kernel family).foldRows fresh)).foldl (State.merge family) left) := by
  induction lists generalizing taken left with
  | nil => exact left_on
  | cons rows rest ih =>
    have part := on.foldRows family rows
    have part_filled := State.Filled.foldRows cleared family (filled rows List.mem_cons_self)
    have averaged := left_on.average part family
    rw [furtherCount_add] at averaged
    rw [List.map_cons, List.foldl_cons, List.map_cons, List.foldl_cons,
      left_filled.merge_eq_average part_filled]
    exact ih (fun other later => filled other (List.mem_cons_of_mem rows later)) averaged
      (left_filled.average family)

/-- A pass moves on by the rows of its longest list, or of its shortest one where steps rise. -/
theorem OnSchedule.gather {state : State Exact} {context : StepContext Exact}
    (on : OnSchedule stepSize decay count (state.begin context)) (mode : PassMode)
    (partitions : List (Partition Exact)) :
    OnSchedule stepSize decay (count + rowsAhead stepSize decay (mode.lanes partitions))
      ((kernel family).gather mode state context partitions) := by
  rw [Kernel.gather_lanes ((counts family).neutral state context)]
  have filled : ∀ rows ∈ withoutEmpty (mode.lanes partitions), rows ≠ [] :=
    fun rows => ne_nil_of_mem_withoutEmpty
  cases given : withoutEmpty (mode.lanes partitions) with
  | nil =>
    rw [rowsAhead_of_none stepSize decay given]
    exact on
  | cons first rest =>
    rw [given] at filled
    have some := filled first List.mem_cons_self
    have taken : (state.begin context).merge family
        ((kernel family).foldRows (state.begin context) first) =
        (kernel family).foldRows (state.begin context) first :=
      ((counts family).neutral state context).before some
    have cleared : (state.begin context).rows = 0 := rfl
    rw [rowsAhead_of_some stepSize decay given, List.map_cons, List.foldl_cons]
    change OnSchedule _ _ _ (List.foldl (State.merge family) ((state.begin context).merge family
      ((kernel family).foldRows (state.begin context) first)) _)
    rw [taken]
    exact on.foldl_merge family cleared
      (fun other later => filled other (List.mem_cons_of_mem first later))
      (on.foldRows family first) (.foldRows cleared family some)

theorem OnSchedule.pass {state : State Exact} {context : StepContext Exact}
    (on : OnSchedule stepSize decay count (state.begin context)) (mode : PassMode)
    (partitions : List (Partition Exact)) :
    OnSchedule stepSize decay (count + rowsAhead stepSize decay (mode.lanes partitions))
      ((kernel family).pass mode state context partitions) :=
  (on.gather family mode partitions).finalize family

end Passes

end Igd

end ElasticNet
