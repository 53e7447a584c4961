import ElasticNet.Proofs.Counted
import ElasticNet.Proofs.Fista.Outcomes
import ElasticNet.Proofs.Fista.Unordered

namespace ElasticNet

/-- A sum of some terms in their order, added up one by one or from the sums of parts. -/
inductive Summed {β : Type} (add : β → β → β) (zero : β) : List β → β → Prop
  | nothing : Summed add zero [] zero
  | term {terms sum} (x : β) (summed : Summed add zero terms sum) :
    Summed add zero (terms ++ [x]) (add sum x)
  | joined {terms others sum other} (summed : Summed add zero terms sum)
    (otherSummed : Summed add zero others other) :
    Summed add zero (terms ++ others) (add sum other)

namespace Fista

variable {α : Type} [Scalar α]

namespace State

def slope (family : Family) (state : State α) (row : Row α) : α :=
  family.derivative (state.momentumPredictor row.features) (family.label row.response)

def momentumLoss (family : Family) (state : State α) (row : Row α) : α :=
  family.loss (state.momentumPredictor row.features) (family.label row.response)

def candidateLoss (family : Family) (state : State α) (row : Row α) : α :=
  family.loss (state.candidatePredictor row.features) (family.label row.response)

def rowGradient (family : Family) (state : State α) (row : Row α) : List α :=
  row.features.map (· * state.slope family row)

def ridgeAt (state : State α) (point : List α) : α :=
  0.5 * state.strength * (1 - state.mixing) * Vector.sparseDot point point

end State

def MeanOf (rows : List (Row α)) (term : Row α → α) (mean : α) : Prop :=
  ∃ sum, Summed (· + ·) 0 (rows.map term) sum ∧ mean = sum / (rows.length : α)

/-- What a pass over some rows leaves in place of its accumulators, given the state that it begins
    with: the mean gradient of the loss, with that of the quadratic penalty, or the mean losses at
    the points that are tried, with their quadratic penalty. -/
structure Means (family : Family) (fresh after : State α) (rows : List (Row α)) : Prop where
  interceptGradient : fresh.trials = 0 → MeanOf rows (fresh.slope family) after.interceptGradient
  gradient : fresh.trials = 0 → ∃ sum,
    Summed Vector.add (Vector.zeros fresh.gradient.length) (rows.map (fresh.rowGradient family))
      sum ∧
    after.gradient = List.zipWith
      (fun mean y => if y != 0 then mean + fresh.strength * (1 - fresh.mixing) * y else mean)
      (Vector.divide sum (rows.length : α)) fresh.momentum
  candidateValue : fresh.trials ≠ 0 → ∃ mean, MeanOf rows (fresh.candidateLoss family) mean ∧
    after.candidateValue = mean + fresh.ridgeAt fresh.candidate
  momentumValue : fresh.trials = 1 → ∃ mean, MeanOf rows (fresh.momentumLoss family) mean ∧
    after.momentumValue = mean + fresh.ridgeAt fresh.momentum

structure Gathers (family : Family) (fresh : State α) (taken : List (Row α)) (state : State α) :
    Prop where
  cleared : state.cleared = fresh.cleared
  interceptGradient : fresh.trials = 0 →
    Summed (· + ·) 0 (taken.map (fresh.slope family)) state.interceptGradient
  gradient : fresh.trials = 0 →
    Summed Vector.add (Vector.zeros fresh.gradient.length) (taken.map (fresh.rowGradient family))
      state.gradient
  candidateValue : fresh.trials ≠ 0 →
    Summed (· + ·) 0 (taken.map (fresh.candidateLoss family)) state.candidateValue
  momentumValue : fresh.trials = 1 →
    Summed (· + ·) 0 (taken.map (fresh.momentumLoss family)) state.momentumValue

namespace Gathers

variable {family : Family} {fresh state : State α} {taken : List (Row α)}

theorem of_fresh (clean : fresh.Fresh) : Gathers family fresh [] fresh where
  cleared := rfl
  interceptGradient gathers := by
    rw [(clean.gradient gathers).2]
    exact .nothing
  gradient gathers := by
    have zeros : fresh.gradient = Vector.zeros fresh.gradient.length :=
      List.eq_replicate_of_mem (clean.gradient gathers).1
    rw [← zeros]
    exact .nothing
  candidateValue tries := by
    rw [(clean.values tries).1]
    exact .nothing
  momentumValue first := by
    have tries : fresh.trials ≠ 0 := by
      rw [first]
      decide
    rw [(clean.values tries).2 first]
    exact .nothing

section Same

variable (held : Gathers family fresh taken state)
include held

theorem trials : state.trials = fresh.trials :=
  State.trials_of_cleared held.cleared

theorem slope (row : Row α) : state.slope family row = fresh.slope family row :=
  (congrArg (fun state => state.slope family row) held.cleared :)

theorem momentumLoss (row : Row α) :
    state.momentumLoss family row = fresh.momentumLoss family row :=
  (congrArg (fun state => state.momentumLoss family row) held.cleared :)

theorem candidateLoss (row : Row α) :
    state.candidateLoss family row = fresh.candidateLoss family row :=
  (congrArg (fun state => state.candidateLoss family row) held.cleared :)

theorem row (row : Row α) :
    Gathers family fresh (taken ++ [row]) (state.transition family row.features row.response) := by
  have kept := (State.cleared_transition family state row.features row.response).trans held.cleared
  by_cases gathers : state.trials = 0
  · have zero : fresh.trials = 0 := held.trials.symm.trans gathers
    rw [State.transition_of_gradient gathers] at kept ⊢
    refine ⟨kept, fun _ => ?_, fun _ => ?_, fun tries => absurd zero tries, fun first => ?_⟩
    · rw [List.map_append, List.map_singleton, ← held.slope]
      exact (held.interceptGradient zero).term _
    · rw [List.map_append, List.map_singleton]
      have added : (state.addGradient (state.slope family row) row.features).gradient =
          Vector.add state.gradient (fresh.rowGradient family row) := by
        unfold State.rowGradient Vector.add
        rw [List.zipWith_map_right, ← held.slope]
        rfl
      change Summed _ _ _ (state.addGradient (state.slope family row) row.features).gradient
      rw [added]
      exact (held.gradient zero).term _
    · rw [zero] at first
      cases first
  · have tries : fresh.trials ≠ 0 := held.trials ▸ gathers
    rw [State.transition_of_trial gathers] at kept ⊢
    refine ⟨kept, fun zero => absurd zero tries, fun zero => absurd zero tries, fun _ => ?_,
      fun first => ?_⟩
    · rw [List.map_append, List.map_singleton, ← held.candidateLoss]
      exact (held.candidateValue tries).term _
    · rw [List.map_append, List.map_singleton, ← held.momentumLoss]
      have added := (held.momentumValue first).term (state.momentumLoss family row)
      unfold State.addValues
      dsimp only
      rw [if_pos (held.trials.trans first)]
      exact added

end Same

theorem combine {left right : State α} {first second : List (Row α)}
    (held : Gathers family fresh first left) (other : Gathers family fresh second right) :
    Gathers family fresh (first ++ second) (left.combine right) := by
  have kept := (State.cleared_combine left right).trans held.cleared
  refine ⟨kept, fun gathers => ?_, fun gathers => ?_, fun tries => ?_, fun once => ?_⟩
  · rw [List.map_append]
    have added := (held.interceptGradient gathers).joined (other.interceptGradient gathers)
    unfold State.combine
    rw [if_pos (held.trials.trans gathers)]
    exact added
  · rw [List.map_append]
    have added := (held.gradient gathers).joined (other.gradient gathers)
    unfold State.combine
    rw [if_pos (held.trials.trans gathers)]
    exact added
  · rw [List.map_append]
    have added := (held.candidateValue tries).joined (other.candidateValue tries)
    unfold State.combine
    rw [if_neg (held.trials ▸ tries)]
    exact added
  · rw [List.map_append]
    have added := (held.momentumValue once).joined (other.momentumValue once)
    have tries : fresh.trials ≠ 0 := by
      rw [once]
      decide
    unfold State.combine
    rw [if_neg (held.trials ▸ tries)]
    dsimp only
    rw [if_pos (held.trials.trans once)]
    exact added

end Gathers

variable [Scalar.AddsCounts α]

theorem gathers_gathered (family : Family) {fresh : State α} (clean : fresh.Fresh)
    {taken : List (Row α)} {state : State α}
    (gathered : (kernel family).Gathered fresh taken state) (few : taken.length < 2 ^ 53) :
    Gathers family fresh taken state := by
  induction gathered with
  | fresh => exact .of_fresh clean
  | row row _ ih =>
    rw [List.length_append, List.length_singleton] at few
    exact (ih (Nat.lt_of_succ_lt few)).row row
  | @merge first second left right gathered other ih otherIh =>
    rw [List.length_append] at few
    have leftFew : first.length < 2 ^ 53 := Nat.lt_of_le_of_lt (Nat.le_add_right _ _) few
    have rightFew : second.length < 2 ^ 53 := Nat.lt_of_le_of_lt (Nat.le_add_left _ _) few
    have held := ih leftFew
    have otherHeld := otherIh rightFew
    have leftRows := (counts family).rows_gathered clean.rows gathered leftFew
    have rightRows := (counts family).rows_gathered clean.rows other rightFew
    change Gathers family fresh _ (left.merge right)
    by_cases none : Scalar.toUInt64 right.rows = 0
    · have empty : second = [] := by
        rw [rightRows, Scalar.toUInt64_natCast_eq_zero rightFew] at none
        exact List.eq_nil_of_length_eq_zero none
      have same : left.merge right = left := if_pos none
      rw [empty, List.append_nil, same]
      exact held
    · by_cases nothing : Scalar.toUInt64 left.rows = 0
      · have empty : first = [] := by
          rw [leftRows, Scalar.toUInt64_natCast_eq_zero leftFew] at nothing
          exact List.eq_nil_of_length_eq_zero nothing
        have same : left.merge right = right := (if_neg none).trans (if_pos nothing)
        rw [empty, List.nil_append, same]
        exact otherHeld
      · rw [merge_of_rows none nothing]
        exact held.combine otherHeld

omit [Scalar.AddsCounts α] in
theorem values_finishTrial (state : State α) (total : α) :
    (state.finishTrial total).candidateValue =
        state.smoothValue total state.candidateValue state.candidate ∧
      (state.finishTrial total).momentumValue =
        if state.trials = 1 then state.smoothValue total state.momentumValue state.momentum
        else state.momentumValue :=
  ⟨read_judged State.candidateValue (fun _ => rfl) (fun _ => rfl) _ _,
    read_judged State.momentumValue (fun _ => rfl) (fun _ => rfl) _ _⟩

omit [Scalar.AddsCounts α] in
theorem Gathers.means {family : Family} {fresh state : State α} {rows : List (Row α)}
    (held : Gathers family fresh rows state) (some : Scalar.toUInt64 state.rows ≠ 0)
    (total : Scalar.ofCount (Scalar.toUInt64 state.totalRows) = (rows.length : α)) :
    Means family fresh state.finalize rows := by
  have strength : state.strength = fresh.strength := (congrArg State.strength held.cleared :)
  have mixing : state.mixing = fresh.mixing := (congrArg State.mixing held.cleared :)
  have momentum : state.momentum = fresh.momentum := (congrArg State.momentum held.cleared :)
  have candidate : state.candidate = fresh.candidate := (congrArg State.candidate held.cleared :)
  have ridge (point : List α) : state.ridgeAt point = fresh.ridgeAt point := by
    unfold State.ridgeAt
    rw [strength, mixing]
  unfold State.finalize
  rw [if_neg some, total]
  dsimp only
  by_cases gathers : fresh.trials = 0
  · rw [if_pos (held.trials.trans gathers)]
    refine ⟨fun _ => ⟨_, held.interceptGradient gathers, rfl⟩,
      fun _ => ⟨_, held.gradient gathers, ?_⟩, fun tries => absurd gathers tries, fun once => ?_⟩
    · rw [← strength, ← mixing, ← momentum, Vector.divide, List.zipWith_map_left]
      rfl
    · rw [gathers] at once
      cases once
  · have tries : state.trials ≠ 0 := held.trials.symm ▸ gathers
    obtain ⟨candidateValue, momentumValue⟩ := values_finishTrial state (rows.length : α)
    rw [if_neg tries]
    refine ⟨fun zero => absurd zero gathers, fun zero => absurd zero gathers, fun _ => ?_,
      fun once => ?_⟩
    · refine ⟨_, ⟨_, held.candidateValue gathers, rfl⟩, ?_⟩
      rw [← ridge, ← candidate]
      exact candidateValue
    · rw [if_pos (held.trials.trans once)] at momentumValue
      refine ⟨_, ⟨_, held.momentumValue once, rfl⟩, ?_⟩
      rw [← ridge, ← momentum]
      exact momentumValue

/-- A pass over rows makes means of its sums, if the state knows how many rows there are. -/
theorem means_pass (family : Family) (mode : PassMode) {before : State α} (context : StepContext α)
    {source : Source α} (some : source.completeCount ≠ 0) (few : source.completeCount < 2 ^ 53)
    (known : before.totalRows = (source.completeCount : α)) :
    Means family (before.begin context)
      ((kernel family).pass mode before context source.partitions)
      (source.rows.filter Row.isComplete) := by
  have gathered := (kernel family).gathered_gather mode before context source.partitions
  rw [← source.filter_rows] at gathered
  have held := gathers_gathered family (before.fresh_begin context) gathered few
  have counted : ((kernel family).gather mode before context source.partitions).rows = _ :=
    (counts family).rows_gather mode context few
  have total : ((kernel family).gather mode before context source.partitions).totalRows = _ :=
    (counts family).total_gather mode context
  refine held.means ?_ ?_
  · rw [counted, ne_eq, Scalar.toUInt64_natCast_eq_zero few]
    exact some
  · rw [total, known]
    exact Scalar.ofCount_toUInt64 few

end Fista

end ElasticNet
