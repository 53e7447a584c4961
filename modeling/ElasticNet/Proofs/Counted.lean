import ElasticNet.Proofs.Counts
import ElasticNet.Proofs.Fista.Slots
import ElasticNet.Proofs.Igd.Slots
import ElasticNet.Proofs.Scales.Measure

namespace ElasticNet

variable {α σ : Type} [Scalar α]

/-- A count in a state that is not zero when something is divided by it. -/
def Scalar.Divides (count : α) : Prop :=
  (Scalar.ofCount (Scalar.toUInt64 count) == (0 : α)) = false

theorem Scalar.divides_natCast [Scalar.AddsCounts α] {n : Nat} (positive : 0 < n)
    (small : n < 2 ^ 53) : Scalar.Divides (n : α) := by
  unfold Scalar.Divides
  rw [Scalar.ofCount_toUInt64 small]
  exact Scalar.AddsCounts.natCast_ne_zero n positive small

namespace Kernel

variable (kernel : Kernel α σ)

omit [Scalar α] in
def takings (state : σ) : List (Row α) → List (σ × Row α)
  | [] => []
  | row :: rest => (state, row) :: takings (kernel.transition state row) rest

def visits (mode : PassMode) (state : σ) (context : StepContext α)
    (partitions : List (Partition α)) : List (σ × Row α) :=
  let fresh := kernel.begin state context
  match mode with
  | .single => kernel.takings fresh (partitions.flatMap Partition.complete)
  | .parallel => partitions.flatMap fun part => kernel.takings fresh part.complete

omit [Scalar α] in
theorem map_snd_takings (state : σ) (rows : List (Row α)) :
    (kernel.takings state rows).map Prod.snd = rows := by
  induction rows generalizing state with
  | nil => rfl
  | cons row rest ih =>
    rw [takings, List.map_cons, ih]

theorem map_snd_visits (mode : PassMode) (state : σ) (context : StepContext α)
    (partitions : List (Partition α)) :
    (kernel.visits mode state context partitions).map Prod.snd =
      partitions.flatMap Partition.complete := by
  cases mode with
  | single => exact kernel.map_snd_takings _ _
  | parallel =>
    change (partitions.flatMap _).map _ = _
    rw [List.map_flatMap]
    exact List.flatMap_congr fun part _ => kernel.map_snd_takings _ part.complete

variable {kernel}

omit [Scalar α] in
theorem takings_induction (Holds : σ → Prop)
    (transition : ∀ state row, Holds state → Holds (kernel.transition state row)) {state : σ}
    (holds : Holds state) {rows : List (Row α)} :
    ∀ visit ∈ kernel.takings state rows, Holds visit.1 := by
  induction rows generalizing state with
  | nil => exact nofun
  | cons row rest ih => exact List.forall_mem_cons.mpr ⟨holds, ih (transition state row holds)⟩

theorem visits_induction (Holds : σ → Prop)
    (transition : ∀ state row, Holds state → Holds (kernel.transition state row)) {state : σ}
    {context : StepContext α} (fresh : Holds (kernel.begin state context)) (mode : PassMode)
    (partitions : List (Partition α)) :
    ∀ visit ∈ kernel.visits mode state context partitions, Holds visit.1 := by
  cases mode with
  | single => exact takings_induction Holds transition fresh
  | parallel =>
    intro visit inside
    obtain ⟨part, _, taken⟩ := List.mem_flatMap.mp inside
    exact takings_induction Holds transition fresh visit taken

/-- An optimizer that keeps the number of all rows in its states and counts those of a pass. What
    has no rows is left aside when states are merged. -/
structure Counts (kernel : Kernel α σ) (total rows : σ → α) : Prop where
  begin_total : ∀ state context, total (kernel.begin state context) = total state
  begin_rows : ∀ state context, rows (kernel.begin state context) = 0
  transition_total : ∀ state row, total (kernel.transition state row) = total state
  transition_rows : ∀ state row, rows (kernel.transition state row) = rows state + 1
  merge_none : ∀ {left right}, Scalar.toUInt64 (rows right) = 0 → kernel.merge left right = left
  merge_first : ∀ {left right}, Scalar.toUInt64 (rows right) ≠ 0 →
    Scalar.toUInt64 (rows left) = 0 → kernel.merge left right = right
  merge_total : ∀ {left right}, Scalar.toUInt64 (rows right) ≠ 0 →
    Scalar.toUInt64 (rows left) ≠ 0 → total (kernel.merge left right) = total left
  merge_rows : ∀ {left right}, Scalar.toUInt64 (rows right) ≠ 0 →
    Scalar.toUInt64 (rows left) ≠ 0 →
    rows (kernel.merge left right) = rows left + Scalar.ofCount (Scalar.toUInt64 (rows right))
  finalize_total : ∀ state, total (kernel.finalize state) = total state
  finalize_rows : ∀ state, rows (kernel.finalize state) = rows state

namespace Counts

variable {total rows : σ → α} (counts : kernel.Counts total rows)
include counts

theorem total_gathered {fresh : σ} {taken : List (Row α)} {state : σ}
    (gathered : kernel.Gathered fresh taken state) : total state = total fresh := by
  induction gathered with
  | fresh => rfl
  | row row _ kept => exact (counts.transition_total _ row).trans kept
  | @merge _ _ left right _ _ kept otherKept =>
    by_cases none : Scalar.toUInt64 (rows right) = 0
    · rw [counts.merge_none none]
      exact kept
    · by_cases first : Scalar.toUInt64 (rows left) = 0
      · rw [counts.merge_first none first]
        exact otherKept
      · rw [counts.merge_total none first]
        exact kept

/-- How many rows a pass counts does not depend on the state it starts from. -/
theorem rows_gather_eq (mode : PassMode) (state other : σ) (context along : StepContext α)
    (partitions : List (Partition α)) :
    rows (kernel.gather mode state context partitions) =
      rows (kernel.gather mode other along partitions) := by
  refine kernel.gather_related (fun left right => rows left = rows right) ?_ ?_ ?_ mode partitions
  · rw [counts.begin_rows, counts.begin_rows]
  · intro left right row same
    rw [counts.transition_rows, counts.transition_rows, same]
  · intro left right next nextRight same sameNext
    by_cases none : Scalar.toUInt64 (rows next) = 0
    · rw [counts.merge_none none, counts.merge_none (sameNext ▸ none), same]
    · by_cases first : Scalar.toUInt64 (rows left) = 0
      · rw [counts.merge_first none first, counts.merge_first (sameNext ▸ none) (same ▸ first),
          sameNext]
      · rw [counts.merge_rows none first, counts.merge_rows (sameNext ▸ none) (same ▸ first), same,
          sameNext]

variable [Scalar.AddsCounts α]

theorem rows_gathered {fresh : σ} (cleared : rows fresh = 0) {taken : List (Row α)} {state : σ}
    (gathered : kernel.Gathered fresh taken state) (few : taken.length < 2 ^ 53) :
    rows state = (taken.length : α) := by
  induction gathered with
  | fresh => exact cleared.trans Scalar.KeepsCounts.natCast_zero.symm
  | row row _ counted =>
    rw [List.length_append, List.length_singleton] at few ⊢
    rw [counts.transition_rows, counted (Nat.lt_of_succ_lt few), ← Scalar.AddsCounts.natCast_one,
      Scalar.AddsCounts.natCast_add _ _ few]
  | @merge first second left right _ _ counted otherCounted =>
    rw [List.length_append] at few ⊢
    have before := counted (Nat.lt_of_le_of_lt (Nat.le_add_right _ _) few)
    have small : second.length < 2 ^ 53 := Nat.lt_of_le_of_lt (Nat.le_add_left _ _) few
    have behind := otherCounted small
    by_cases none : Scalar.toUInt64 (rows right) = 0
    · rw [counts.merge_none none, before]
      rw [behind, Scalar.toUInt64_natCast_eq_zero small] at none
      rw [none, Nat.add_zero]
    · by_cases nothing : Scalar.toUInt64 (rows left) = 0
      · rw [counts.merge_first none nothing, behind]
        rw [before, Scalar.toUInt64_natCast_eq_zero
          (Nat.lt_of_le_of_lt (Nat.le_add_right _ _) few)] at nothing
        rw [nothing, Nat.zero_add]
      · rw [counts.merge_rows none nothing, before, behind, Scalar.ofCount_toUInt64 small,
          Scalar.AddsCounts.natCast_add _ _ few]

end Counts

/-- A pass over the complete rows of a source, from a state that knows their number. Each of them is
    taken in once, in their order, both counts of the state that it leads to are their number, and
    no count that is divided by is zero: not the number of all rows where a row is taken in, and
    neither of the two at the end, if the pass has had rows by then. -/
structure CountedPass (kernel : Kernel α σ) (total rows : σ → α) (mode : PassMode)
    (context : StepContext α) (source : Source α) (before after : σ) : Prop where
  made : after = kernel.pass mode before context source.partitions
  expected : total before = (source.completeCount : α)
  taken : (kernel.visits mode before context source.partitions).map Prod.snd =
    source.rows.filter Row.isComplete
  counted : rows after = (source.completeCount : α)
  known : total after = (source.completeCount : α)
  transition : ∀ visit ∈ kernel.visits mode before context source.partitions,
    Scalar.Divides (total visit.1)
  finalize : Scalar.toUInt64 (rows (kernel.gather mode before context source.partitions)) ≠ 0 →
    Scalar.Divides (rows (kernel.gather mode before context source.partitions)) ∧
      Scalar.Divides (total (kernel.gather mode before context source.partitions))

section Passes

variable {total rows : σ → α} (counts : kernel.Counts total rows) (mode : PassMode)
  (context : StepContext α) {source : Source α} {before : σ}
include counts

theorem Counts.total_gather : total (kernel.gather mode before context source.partitions) =
    total before :=
  (counts.total_gathered (kernel.gathered_gather mode before context source.partitions)).trans
    (counts.begin_total before context)

variable [Scalar.AddsCounts α] (few : source.completeCount < 2 ^ 53)
include few

theorem Counts.rows_gather : rows (kernel.gather mode before context source.partitions) =
    (source.completeCount : α) := by
  have gathered := kernel.gathered_gather mode before context source.partitions
  rw [← source.filter_rows] at gathered
  exact counts.rows_gathered (counts.begin_rows before context) gathered few

theorem Counts.countedPass (known : total before = (source.completeCount : α)) :
    CountedPass kernel total rows mode context source before
      (kernel.pass mode before context source.partitions) where
  made := rfl
  expected := known
  taken := (kernel.map_snd_visits mode before context source.partitions).trans
    source.filter_rows.symm
  counted := (counts.finalize_rows _).trans (counts.rows_gather mode context few)
  known := (counts.finalize_total _).trans ((counts.total_gather mode context).trans known)
  transition := by
    intro visit inside
    have kept : total visit.1 = total before :=
      visits_induction (fun state => total state = total before)
        (fun state row held => (counts.transition_total state row).trans held)
        (counts.begin_total before context) mode source.partitions visit inside
    have row := List.mem_map_of_mem (f := Prod.snd) inside
    rw [kernel.map_snd_visits, ← source.filter_rows] at row
    rw [kept, known]
    exact Scalar.divides_natCast (List.length_pos_of_mem row) few
  finalize := by
    intro some
    have counted : rows (kernel.gather mode before context source.partitions) = _ :=
      counts.rows_gather mode context few
    rw [counted, ne_eq, Scalar.toUInt64_natCast_eq_zero few] at some
    rw [counted, counts.total_gather mode context, known]
    have divides := Scalar.divides_natCast (α := α) (Nat.pos_of_ne_zero some) few
    exact ⟨divides, divides⟩

end Passes

end Kernel

namespace Igd

theorem merge_of_rows (family : Family) {left right : State α}
    (some : Scalar.toUInt64 right.rows ≠ 0) (others : Scalar.toUInt64 left.rows ≠ 0) :
    left.merge family right = left.average family right :=
  (if_neg some).trans (if_neg others)

theorem counts_finalize (family : Family) (state : State α) :
    (state.finalize family).totalRows = state.totalRows ∧
      (state.finalize family).rows = state.rows := by
  unfold State.finalize
  dsimp only
  split
  · exact ⟨rfl, rfl⟩
  · split
    · exact ⟨rfl, rfl⟩
    · exact ⟨rfl, rfl⟩

theorem counts (family : Family) :
    (kernel family : Kernel α (State α)).Counts State.totalRows State.rows where
  begin_total state context := by
    change (state.begin context).totalRows = _
    unfold State.begin
    dsimp only
    split
    · rfl
    · rfl
  begin_rows _ _ := rfl
  transition_total _ _ := rfl
  transition_rows _ _ := rfl
  merge_none none := if_pos none
  merge_first some first := (if_neg some).trans (if_pos first)
  merge_total some others := (congrArg State.totalRows (merge_of_rows family some others) :)
  merge_rows some others := congrArg State.rows (merge_of_rows family some others)
  finalize_total state := (counts_finalize family state).1
  finalize_rows state := (counts_finalize family state).2

end Igd

namespace Fista

theorem merge_of_rows {left right : State α} (some : Scalar.toUInt64 right.rows ≠ 0)
    (others : Scalar.toUInt64 left.rows ≠ 0) : left.merge right = left.combine right :=
  (if_neg some).trans (if_neg others)

theorem counts_finalize (state : State α) :
    state.finalize.totalRows = state.totalRows ∧ state.finalize.rows = state.rows := by
  unfold State.finalize
  dsimp only
  split
  · exact ⟨rfl, rfl⟩
  · split
    · exact ⟨rfl, rfl⟩
    · exact ⟨read_judged State.totalRows (fun _ => rfl) (fun _ => rfl) _ _,
        read_judged State.rows (fun _ => rfl) (fun _ => rfl) _ _⟩

theorem counts (family : Family) :
    (kernel family : Kernel α (State α)).Counts State.totalRows State.rows where
  begin_total state context := by
    change (state.begin context).totalRows = _
    unfold State.begin
    dsimp only
    split
    · split
      · rfl
      · rfl
    · split
      · rfl
      · rfl
  begin_rows _ _ := rfl
  transition_total state row := by
    change (state.transition family _ _).totalRows = _
    unfold State.transition
    dsimp only
    split
    · rfl
    · rfl
  transition_rows state row := rows_transition family state row
  merge_none none := if_pos none
  merge_first some first := (if_neg some).trans (if_pos first)
  merge_total some others := by
    refine (congrArg State.totalRows (merge_of_rows some others)).trans ?_
    unfold State.combine
    dsimp only
    split
    · rfl
    · rfl
  merge_rows some others := congrArg State.rows (merge_of_rows some others)
  finalize_total state := (counts_finalize state).1
  finalize_rows state := (counts_finalize state).2

end Fista

end ElasticNet
