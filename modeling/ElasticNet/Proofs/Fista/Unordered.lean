import ElasticNet.Proofs.Exact.Samples
import ElasticNet.Proofs.Fista.Slots
import ElasticNet.Proofs.Scales.Measure

namespace ElasticNet

section Pointwise

variable {α β : Type}

theorem zipWith_right_comm {f g : α → β → α} (swaps : ∀ a b c, g (f a b) c = f (g a c) b)
    (xs : List α) (ys zs : List β) :
    List.zipWith g (List.zipWith f xs ys) zs = List.zipWith f (List.zipWith g xs zs) ys := by
  induction xs generalizing ys zs with
  | nil => rfl
  | cons x xs ih =>
    cases ys with
    | nil => cases zs with
      | nil => rfl
      | cons z zs => rfl
    | cons y ys =>
      cases zs with
      | nil => rfl
      | cons z zs =>
        simp only [List.zipWith_cons_cons, swaps, ih]

theorem zipWith_assoc {f : α → β → α} {add : α → α → α}
    (joins : ∀ a b c, add a (f b c) = f (add a b) c) (xs ys : List α) (zs : List β) :
    List.zipWith add xs (List.zipWith f ys zs) = List.zipWith f (List.zipWith add xs ys) zs := by
  induction xs generalizing ys zs with
  | nil => rfl
  | cons x xs ih =>
    cases ys with
    | nil => rfl
    | cons y ys =>
      cases zs with
      | nil => rfl
      | cons z zs => simp only [List.zipWith_cons_cons, joins, ih]

end Pointwise

theorem Source.exists_resized {α : Type} [Scalar α] {source other : Source α}
    (rows : (other.rows.filter Row.isComplete).Perm (source.rows.filter Row.isComplete)) :
    ∃ same : Source α, same.dimension = source.dimension ∧
      same.partitions.map Partition.complete = other.partitions.map Partition.complete := by
  cases some : source.rows.filter Row.isComplete with
  | nil =>
    rw [some, other.filter_rows] at rows
    refine ⟨⟨source.dimension, other.partitions.map fun _ => .empty source.dimension, ?_⟩, rfl, ?_⟩
    · intro part inside
      obtain ⟨_, _, rfl⟩ := List.mem_map.mp inside
      rfl
    · rw [List.map_map]
      apply List.map_congr_left
      intro part inside
      exact (List.flatMap_eq_nil_iff.mp rows.eq_nil part inside).symm
  | cons row rest =>
    have inside : row ∈ source.rows.filter Row.isComplete := some ▸ List.mem_cons_self
    have otherInside := rows.mem_iff.mpr inside
    exact ⟨other, dimension_of_mem (List.mem_filter.mp inside).1
      (List.mem_filter.mp otherInside).1, rfl⟩

namespace Fista

open Exact

namespace State

section Contributions

variable {α : Type} [Scalar α]

def addGradient (state : State α) (slope : α) (features : List α) : State α :=
  { state with
    gradient := List.zipWith (fun g x => g + x * slope) state.gradient features
    interceptGradient := state.interceptGradient + slope
    rows := state.rows + 1 }

def addValues (state : State α) (candidateLoss momentumLoss : α) : State α :=
  { state with
    candidateValue := state.candidateValue + candidateLoss
    momentumValue :=
      if state.trials = 1 then state.momentumValue + momentumLoss else state.momentumValue
    rows := state.rows + 1 }

theorem transition_of_gradient {state : State α} (gathers : state.trials = 0) (family : Family)
    (features : List α) (response : α) :
    state.transition family features response =
      state.addGradient (family.derivative (state.momentumPredictor features)
        (family.label response)) features := by
  unfold transition
  simp only [gathers, if_true]
  rfl

theorem transition_of_trial {state : State α} (tries : state.trials ≠ 0) (family : Family)
    (features : List α) (response : α) :
    state.transition family features response =
      state.addValues (family.loss (state.candidatePredictor features) (family.label response))
        (family.loss (state.momentumPredictor features) (family.label response)) := by
  unfold transition
  simp only [tries, if_false]
  rfl

end Contributions

theorem addGradient_right_comm (state : State Exact) (slope otherSlope : Exact)
    (features other : List Exact) :
    (state.addGradient slope features).addGradient otherSlope other =
      (state.addGradient otherSlope other).addGradient slope features := by
  unfold addGradient
  dsimp only
  rw [Exact.add_right_comm state.interceptGradient slope otherSlope,
    zipWith_right_comm fun g x y => Exact.add_right_comm g (x * slope) (y * otherSlope)]

theorem addValues_right_comm (state : State Exact) (loss momentumLoss other otherMomentum : Exact) :
    (state.addValues loss momentumLoss).addValues other otherMomentum =
      (state.addValues other otherMomentum).addValues loss momentumLoss := by
  unfold addValues trials
  dsimp only
  rw [Exact.add_right_comm state.candidateValue loss other]
  by_cases first : Scalar.toUInt32 state.trial = 1
  · simp only [first, if_true, Exact.add_right_comm state.momentumValue momentumLoss otherMomentum]
  · simp only [first, if_false]

end State

theorem transition_right_comm (family : Family) (state : State Exact) (row other : Row Exact) :
    (kernel family).transition ((kernel family).transition state row) other =
      (kernel family).transition ((kernel family).transition state other) row := by
  change (state.transition family row.features row.response).transition family _ _ =
    (state.transition family other.features other.response).transition family _ _
  by_cases gathers : state.trials = 0
  · have kept (slope : Exact) (features : List Exact) :
        (state.addGradient slope features).trials = 0 := gathers
    rw [State.transition_of_gradient gathers, State.transition_of_gradient gathers,
      State.transition_of_gradient (kept _ _), State.transition_of_gradient (kept _ _)]
    exact state.addGradient_right_comm _ _ _ _
  · have kept (loss momentumLoss : Exact) :
        (state.addValues loss momentumLoss).trials ≠ 0 := gathers
    rw [State.transition_of_trial gathers, State.transition_of_trial gathers,
      State.transition_of_trial (kept _ _), State.transition_of_trial (kept _ _)]
    exact state.addValues_right_comm _ _ _ _

theorem foldRows_perm (family : Family) (state : State Exact) {rows other : List (Row Exact)}
    (perm : rows.Perm other) :
    (kernel family).foldRows state rows = (kernel family).foldRows state other := by
  have swaps : RightCommutative (kernel family : Kernel Exact (State Exact)).transition :=
    ⟨transition_right_comm family⟩
  exact perm.foldl_eq state

namespace State

theorem natCast_succ (n : ℕ) : ((n + 1 : ℕ) : Exact) = (n : Exact) + 1 :=
  congrArg number (Nat.cast_succ n)

theorem rows_combine {right : State Exact} {count : ℕ} (counts : right.rows = (count : Exact))
    (few : count + 1 < UInt64.size) (rows : Exact) :
    rows + Scalar.ofCount (Scalar.toUInt64 (right.rows + 1)) =
      rows + Scalar.ofCount (Scalar.toUInt64 right.rows) + 1 := by
  rw [counts, ← natCast_succ, ofCount_toUInt64 few, ofCount_toUInt64 (Nat.lt_of_succ_lt few),
    natCast_succ, Exact.add_assoc]

section Combine

variable (left : State Exact) {right : State Exact} {count : ℕ}
  (counts : right.rows = (count : Exact)) (few : count + 1 < UInt64.size)
include counts few

theorem combine_addGradient (gathers : left.trials = 0) (slope : Exact) (features : List Exact) :
    left.combine (right.addGradient slope features) =
      (left.combine right).addGradient slope features := by
  unfold combine
  rw [if_pos gathers, if_pos gathers]
  unfold addGradient Vector.add
  dsimp only
  rw [rows_combine counts few,
    zipWith_assoc fun a b x => (Exact.add_assoc a b (x * slope)).symm,
    Exact.add_assoc left.interceptGradient right.interceptGradient slope]

theorem combine_addValues (tries : left.trials ≠ 0) (same : right.trials = left.trials)
    (loss momentumLoss : Exact) :
    left.combine (right.addValues loss momentumLoss) =
      (left.combine right).addValues loss momentumLoss := by
  unfold combine
  rw [if_neg tries, if_neg tries]
  unfold addValues
  rw [same]
  unfold trials
  dsimp only
  rw [rows_combine counts few, Exact.add_assoc left.candidateValue right.candidateValue loss]
  by_cases first : Scalar.toUInt32 left.trial = 1
  · simp only [first, if_true, Exact.add_assoc]
  · simp only [first, if_false]

end Combine

structure SamePoints (state other : State Exact) : Prop where
  trial : other.trial = state.trial
  momentum : other.momentum = state.momentum
  momentumIntercept : other.momentumIntercept = state.momentumIntercept
  candidate : other.candidate = state.candidate
  candidateIntercept : other.candidateIntercept = state.candidateIntercept

namespace SamePoints

theorem refl (state : State Exact) : state.SamePoints state :=
  ⟨rfl, rfl, rfl, rfl, rfl⟩

theorem of_fresh {fresh state other : State Exact} (first : fresh.SamePoints state)
    (second : fresh.SamePoints other) : state.SamePoints other :=
  ⟨second.trial.trans first.trial.symm, second.momentum.trans first.momentum.symm,
    second.momentumIntercept.trans first.momentumIntercept.symm,
    second.candidate.trans first.candidate.symm,
    second.candidateIntercept.trans first.candidateIntercept.symm⟩

variable {state other : State Exact} (same : state.SamePoints other)
include same

theorem trials : other.trials = state.trials :=
  congrArg Scalar.toUInt32 same.trial

theorem momentumPredictor (features : List Exact) :
    other.momentumPredictor features = state.momentumPredictor features := by
  unfold State.momentumPredictor
  rw [same.momentum, same.momentumIntercept]

theorem candidatePredictor (features : List Exact) :
    other.candidatePredictor features = state.candidatePredictor features := by
  unfold State.candidatePredictor
  rw [same.candidate, same.candidateIntercept]

theorem transition (family : Family) (features : List Exact) (response : Exact) :
    state.SamePoints (other.transition family features response) := by
  by_cases gathers : other.trials = 0
  · rw [transition_of_gradient gathers]
    exact ⟨same.trial, same.momentum, same.momentumIntercept, same.candidate,
      same.candidateIntercept⟩
  · rw [transition_of_trial gathers]
    exact ⟨same.trial, same.momentum, same.momentumIntercept, same.candidate,
      same.candidateIntercept⟩

theorem combine (right : State Exact) : state.SamePoints (other.combine right) := by
  unfold State.combine
  split
  · exact ⟨same.trial, same.momentum, same.momentumIntercept, same.candidate,
      same.candidateIntercept⟩
  · exact ⟨same.trial, same.momentum, same.momentumIntercept, same.candidate,
      same.candidateIntercept⟩

end SamePoints

theorem combine_transition {left right : State Exact} {count : ℕ}
    (counts : right.rows = (count : Exact)) (few : count + 1 < UInt64.size)
    (same : left.SamePoints right) (family : Family) (features : List Exact) (response : Exact) :
    left.combine (right.transition family features response) =
      (left.combine right).transition family features response := by
  have whole := (SamePoints.refl left).combine right
  by_cases gathers : left.trials = 0
  · rw [transition_of_gradient (same.trials.trans gathers),
      transition_of_gradient (whole.trials.trans gathers), same.momentumPredictor,
      whole.momentumPredictor]
    exact left.combine_addGradient counts few gathers _ _
  · have tries : right.trials ≠ 0 := same.trials.symm ▸ gathers
    have wholeTries : (left.combine right).trials ≠ 0 := whole.trials.symm ▸ gathers
    rw [transition_of_trial tries, transition_of_trial wholeTries, same.momentumPredictor,
      whole.momentumPredictor, same.candidatePredictor, whole.candidatePredictor]
    exact left.combine_addValues counts few gathers same.trials _ _

structure Fresh {α : Type} [Scalar α] (state : State α) : Prop where
  rows : state.rows = 0
  gradient : state.trials = 0 → (∀ g ∈ state.gradient, g = 0) ∧ state.interceptGradient = 0
  values : state.trials ≠ 0 →
    state.candidateValue = 0 ∧ (state.trials = 1 → state.momentumValue = 0)

theorem fresh_begin {α : Type} [Scalar α] (state : State α) (context : StepContext α) :
    (state.begin context).Fresh := by
  unfold begin
  dsimp only
  generalize (if state.strength != context.strength then state.restart context else state) = state
  by_cases gathers : state.trials = 0
  · rw [if_pos gathers]
    refine ⟨rfl, fun _ => ⟨?_, rfl⟩, fun tries => absurd gathers tries⟩
    intro g inside
    obtain ⟨_, _, rfl⟩ := List.mem_map.mp inside
    rfl
  · rw [if_neg gathers]
    exact ⟨rfl, fun none => absurd none gathers, fun _ => ⟨rfl, fun first => if_pos first⟩⟩

theorem add_of_zeros {xs zeros : List Exact} (none : ∀ z ∈ zeros, z = 0)
    (enough : xs.length ≤ zeros.length) : Vector.add xs zeros = xs := by
  induction xs generalizing zeros with
  | nil => rfl
  | cons x xs ih =>
    cases zeros with
    | nil => cases enough
    | cons z zeros =>
      obtain ⟨rfl, rest⟩ := List.forall_mem_cons.mp none
      change (x + 0) :: Vector.add xs zeros = _
      rw [Exact.add_zero, ih rest (Nat.le_of_succ_le_succ enough)]

theorem combine_fresh {left right : State Exact} (fresh : right.Fresh)
    (same : left.SamePoints right) (width : left.gradient.length ≤ right.gradient.length) :
    left.combine right = left := by
  have rows : left.rows + Scalar.ofCount (Scalar.toUInt64 right.rows) = left.rows := by
    rw [fresh.rows, ← natCast_zero, ofCount_toUInt64 (by decide), natCast_zero, Exact.add_zero]
  unfold combine
  rw [rows]
  by_cases gathers : left.trials = 0
  · obtain ⟨zeros, none⟩ := fresh.gradient (same.trials.trans gathers)
    rw [if_pos gathers, none, Exact.add_zero, add_of_zeros zeros width]
  · have tries : right.trials ≠ 0 := same.trials.symm ▸ gathers
    obtain ⟨none, first⟩ := fresh.values tries
    rw [if_neg gathers, none, Exact.add_zero]
    split
    · next once => rw [first (same.trials.trans once), Exact.add_zero]
    · rfl

end State

section Folded

variable (family : Family) {fresh : State Exact}

theorem foldRows_append (state : State Exact) (rows : List (Row Exact)) (row : Row Exact) :
    (kernel family).foldRows state (rows ++ [row]) =
      ((kernel family).foldRows state rows).transition family row.features row.response :=
  List.foldl_concat ..

theorem samePoints_foldRows (state : State Exact) (rows : List (Row Exact)) :
    state.SamePoints ((kernel family).foldRows state rows) :=
  List.foldlRecOn rows _ (State.SamePoints.refl state)
    fun _ same row _ => same.transition family row.features row.response

theorem length_gradient_foldRows (state : State Exact) (rows : List (Row Exact)) :
    ((kernel family).foldRows state rows).gradient.length ≤ state.gradient.length := by
  induction rows using List.reverseRecOn with
  | nil => exact Nat.le_refl _
  | append_singleton rows row ih =>
    rw [foldRows_append]
    refine Nat.le_trans ?_ ih
    generalize (kernel family).foldRows state rows = folded
    by_cases gathers : folded.trials = 0
    · rw [State.transition_of_gradient gathers]
      exact Nat.le_trans (Nat.le_of_eq List.length_zipWith) (Nat.min_le_left _ _)
    · rw [State.transition_of_trial gathers]
      exact Nat.le_refl _

theorem rows_foldRows (empty : fresh.Fresh) (rows : List (Row Exact)) :
    ((kernel family).foldRows fresh rows).rows = (rows.length : Exact) := by
  induction rows using List.reverseRecOn with
  | nil => exact empty.rows.trans natCast_zero.symm
  | append_singleton rows row ih =>
    rw [foldRows_append, List.length_append, List.length_singleton, State.natCast_succ, ← ih]
    by_cases gathers : ((kernel family).foldRows fresh rows).trials = 0
    · rw [State.transition_of_gradient gathers]
      rfl
    · rw [State.transition_of_trial gathers]
      rfl

theorem combine_foldRows (empty : fresh.Fresh) (rows more : List (Row Exact))
    (few : more.length < UInt64.size) :
    ((kernel family).foldRows fresh rows).combine ((kernel family).foldRows fresh more) =
      (kernel family).foldRows fresh (rows ++ more) := by
  induction more using List.reverseRecOn with
  | nil =>
    rw [List.append_nil]
    exact State.combine_fresh empty
      ((samePoints_foldRows family fresh rows).of_fresh (.refl fresh))
      (length_gradient_foldRows family fresh rows)
  | append_singleton more row ih =>
    rw [List.length_append, List.length_singleton] at few
    rw [foldRows_append, State.combine_transition (rows_foldRows family empty more) few
      ((samePoints_foldRows family fresh rows).of_fresh (samePoints_foldRows family fresh more)),
      ih (Nat.lt_of_succ_lt few), ← List.append_assoc, foldRows_append]

theorem merge_foldRows (empty : fresh.Fresh) (rows more : List (Row Exact))
    (few : more.length < UInt64.size) :
    (kernel family).merge ((kernel family).foldRows fresh rows)
        ((kernel family).foldRows fresh more) =
      (kernel family).foldRows fresh (rows ++ more) := by
  change State.merge _ _ = _
  unfold State.merge
  simp only [rows_foldRows family empty, toUInt64_eq_zero, List.length_eq_zero_iff]
  split
  · next none => rw [none, List.append_nil]
  split
  · next none => rw [none, List.nil_append]
  · exact combine_foldRows family empty rows more few

end Folded

/-- In either mode a pass gathers what all complete rows contribute. -/
theorem gather_eq_foldRows (family : Family) (state : State Exact) (context : StepContext Exact)
    {source : Source Exact} (few : source.completeCount < UInt64.size) (mode : PassMode) :
    (kernel family).gather mode state context source.partitions =
      (kernel family).foldRows (state.begin context) (source.rows.filter Row.isComplete) := by
  unfold Source.completeCount at few
  rw [source.filter_rows] at few ⊢
  refine (kernel family).gather_of_merges ?_ mode
  intro rows part inside
  refine merge_foldRows family (state.fresh_begin context) rows part.complete ?_
  refine Nat.lt_of_le_of_lt ?_ few
  rw [List.flatMap_def]
  exact (List.sublist_flatten_of_mem (List.mem_map_of_mem inside)).length_le

/-- Any two ways to lay out and to fold the same complete rows give the same state. -/
theorem step_unordered (family : Family) {source other : Source Exact}
    (rows : (other.rows.filter Row.isComplete).Perm (source.rows.filter Row.isComplete))
    (few : source.completeCount < UInt64.size) {state : State Exact}
    (sized : state.Sized source.dimension) (mode otherMode : PassMode)
    (context : StepContext Exact) :
    Pass.step ⟨optimizer family, otherMode⟩ (some (layout.write state)) context other =
      Pass.step ⟨optimizer family, mode⟩ (some (layout.write state)) context source := by
  obtain ⟨same, dimension, complete⟩ := Source.exists_resized rows
  have kept : same.rows.filter Row.isComplete = other.rows.filter Row.isComplete := by
    rw [same.filter_rows, other.filter_rows, List.flatMap_def, List.flatMap_def, complete]
  rw [← kept] at rows
  have sameFew : same.completeCount < UInt64.size := by
    unfold Source.completeCount at few ⊢
    rwa [rows.length_eq]
  rw [← Pass.step_congr _ complete,
    ((carriedOut family source.dimension).step rfl sized mode context).2,
    ((carriedOut family source.dimension).step dimension sized otherMode context).2]
  unfold Kernel.pass
  rw [gather_eq_foldRows family state context few, gather_eq_foldRows family state context sameFew,
    foldRows_perm family _ rows]

end Fista

end ElasticNet
