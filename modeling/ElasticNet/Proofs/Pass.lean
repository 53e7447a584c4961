import ElasticNet.Pass
import ElasticNet.Proofs.Command

namespace ElasticNet

open Command

theorem Partition.length_complete {α : Type} [Scalar α] (part : Partition α) {row : Row α}
    (inside : row ∈ part.complete) : row.features.length = part.dimension :=
  part.sized row (List.mem_filter.mp inside).1

theorem Source.filter_rows {α : Type} [Scalar α] (source : Source α) :
    source.rows.filter Row.isComplete = source.partitions.flatMap Partition.complete := by
  unfold Source.rows
  rw [List.filter_flatMap]
  rfl

/-- A pass looks at the complete rows of each partition alone. -/
theorem Pass.step_congr {α : Type} [Scalar α] (pass : Pass α) {source other : Source α}
    (complete : other.partitions.map Partition.complete = source.partitions.map Partition.complete)
    (previous? : Option (Slots α)) (context : StepContext α) :
    pass.step previous? context other = pass.step previous? context source := by
  have states (previous : Slots α) (partitions : List (Partition α)) :
      partitions.mapM (partialState pass.optimizer previous context) =
        (partitions.map Partition.complete).mapM (fun rows => do
          Command.apply (foldRows pass.optimizer rows)
            (← pass.optimizer.begin (some previous) context)) := by
    rw [List.mapM_map]
    rfl
  have folds (partitions : List (Partition α)) : foldPartitions pass.optimizer partitions =
      (partitions.map Partition.complete).foldr
        (fun rows rest => do foldRows pass.optimizer rows; rest) (pure ()) := by
    induction partitions with
    | nil => rfl
    | cons part rest ih =>
      rw [foldPartitions, ih]
      rfl
  unfold step
  cases previous? with
  | none => rfl
  | some previous =>
    cases pass.mode with
    | parallel =>
      dsimp only
      unfold parallelPass
      rw [states, states, complete]
    | single =>
      dsimp only
      unfold singlePass
      rw [folds, folds, complete]

/-- What an optimizer does to its states, wherever these are kept. -/
structure Kernel (α σ : Type) where
  begin : σ → StepContext α → σ
  transition : σ → Row α → σ
  merge : σ → σ → σ
  finalize : σ → σ

namespace Kernel

variable {α σ : Type} (kernel : Kernel α σ)

def foldRows (state : σ) (rows : List (Row α)) : σ :=
  rows.foldl kernel.transition state

def gather [Scalar α] (mode : PassMode) (state : σ) (context : StepContext α)
    (partitions : List (Partition α)) : σ :=
  let fresh := kernel.begin state context
  match mode with
  | .single => kernel.foldRows fresh (partitions.flatMap Partition.complete)
  | .parallel =>
    match partitions.map fun part => kernel.foldRows fresh part.complete with
    | [] => fresh
    | first :: rest => rest.foldl kernel.merge first

def pass [Scalar α] (mode : PassMode) (state : σ) (context : StepContext α)
    (partitions : List (Partition α)) : σ :=
  kernel.finalize (kernel.gather mode state context partitions)

theorem foldl_replicate_of_idle {merge : σ → σ → σ} {state : σ} (idle : merge state state = state)
    (count : Nat) : (List.replicate count state).foldl merge state = state := by
  induction count with
  | zero => rfl
  | succ count ih =>
    rw [List.replicate_succ, List.foldl_cons, idle]
    exact ih

theorem gather_of_none [Scalar α] (mode : PassMode) (state : σ) (context : StepContext α)
    {partitions : List (Partition α)} (none : ∀ part ∈ partitions, part.complete = [])
    (idle : kernel.merge (kernel.begin state context) (kernel.begin state context) =
      kernel.begin state context) :
    kernel.gather mode state context partitions = kernel.begin state context := by
  cases mode with
  | single =>
    change kernel.foldRows _ (partitions.flatMap Partition.complete) = _
    rw [List.flatMap_eq_nil_iff.mpr none]
    rfl
  | parallel =>
    have fresh : (partitions.map fun part =>
        kernel.foldRows (kernel.begin state context) part.complete) =
        List.replicate partitions.length (kernel.begin state context) := by
      rw [← List.map_const']
      apply List.map_congr_left
      intro part inside
      rw [none part inside]
      rfl
    unfold gather
    simp only [fresh]
    cases partitions with
    | nil => rfl
    | cons first rest => exact foldl_replicate_of_idle idle rest.length

/-- The states of some rows, taken in one after the other and merged, from one to begin with. -/
inductive Gathered (fresh : σ) : List (Row α) → σ → Prop
  | fresh : Gathered fresh [] fresh
  | row {taken state} (row : Row α) (gathered : Gathered fresh taken state) :
    Gathered fresh (taken ++ [row]) (kernel.transition state row)
  | merge {first second left right} (gathered : Gathered fresh first left)
    (other : Gathered fresh second right) :
    Gathered fresh (first ++ second) (kernel.merge left right)

theorem gathered_foldRows (fresh : σ) (rows : List (Row α)) :
    kernel.Gathered fresh rows (kernel.foldRows fresh rows) := by
  have folded {taken : List (Row α)} {state : σ} (gathered : kernel.Gathered fresh taken state) :
      kernel.Gathered fresh (taken ++ rows) (kernel.foldRows state rows) := by
    induction rows generalizing taken state with
    | nil =>
      rw [List.append_nil]
      exact gathered
    | cons row rest ih =>
      rw [List.append_cons]
      exact ih (gathered.row row)
  exact folded .fresh

theorem gathered_gather [Scalar α] (mode : PassMode) (state : σ) (context : StepContext α)
    (partitions : List (Partition α)) :
    kernel.Gathered (kernel.begin state context) (partitions.flatMap Partition.complete)
      (kernel.gather mode state context partitions) := by
  have merged {rest : List (Partition α)} {taken : List (Row α)} {left : σ}
      (gathered : kernel.Gathered (kernel.begin state context) taken left) :
      kernel.Gathered (kernel.begin state context) (taken ++ rest.flatMap Partition.complete)
        ((rest.map fun part => kernel.foldRows (kernel.begin state context) part.complete).foldl
          kernel.merge left) := by
    induction rest generalizing taken left with
    | nil =>
      rw [List.flatMap_nil, List.append_nil]
      exact gathered
    | cons part rest ih =>
      rw [List.flatMap_cons, ← List.append_assoc]
      exact ih (gathered.merge (kernel.gathered_foldRows _ part.complete))
  cases mode with
  | single => exact kernel.gathered_foldRows _ _
  | parallel =>
    cases partitions with
    | nil => exact .fresh
    | cons first rest => exact merged (kernel.gathered_foldRows _ first.complete)

/-- What holds of the state that a pass begins with, and is kept by rows and by merging, holds of
    what the pass gathers. -/
theorem gather_induction [Scalar α] (Holds : σ → Prop) {state : σ} {context : StepContext α}
    (fresh : Holds (kernel.begin state context))
    (transition : ∀ state row, Holds state → Holds (kernel.transition state row))
    (merge : ∀ left right, Holds left → Holds right → Holds (kernel.merge left right))
    (mode : PassMode) (partitions : List (Partition α)) :
    Holds (kernel.gather mode state context partitions) := by
  have held {taken : List (Row α)} {last : σ}
      (gathered : kernel.Gathered (kernel.begin state context) taken last) : Holds last := by
    induction gathered with
    | fresh => exact fresh
    | row row _ holds => exact transition _ row holds
    | merge _ _ left right => exact merge _ _ left right
  exact held (kernel.gathered_gather mode state context partitions)

theorem gather_related [Scalar α] (Related : σ → σ → Prop) {state other : σ}
    {context along : StepContext α}
    (fresh : Related (kernel.begin state context) (kernel.begin other along))
    (transition : ∀ {left right} row, Related left right →
      Related (kernel.transition left row) (kernel.transition right row))
    (merge : ∀ {left right next nextRight}, Related left right → Related next nextRight →
      Related (kernel.merge left next) (kernel.merge right nextRight))
    (mode : PassMode) (partitions : List (Partition α)) :
    Related (kernel.gather mode state context partitions)
      (kernel.gather mode other along partitions) := by
  have folded {left right : σ} (related : Related left right) (rows : List (Row α)) :
      Related (kernel.foldRows left rows) (kernel.foldRows right rows) := by
    induction rows generalizing left right with
    | nil => exact related
    | cons row rest ih => exact ih (transition row related)
  have merged {left right : σ} (related : Related left right) (rest : List (Partition α)) :
      Related
        ((rest.map fun part => kernel.foldRows (kernel.begin state context) part.complete).foldl
          kernel.merge left)
        ((rest.map fun part => kernel.foldRows (kernel.begin other along) part.complete).foldl
          kernel.merge right) := by
    induction rest generalizing left right with
    | nil => exact related
    | cons part rest ih => exact ih (merge related (folded fresh part.complete))
  cases mode with
  | single => exact folded fresh _
  | parallel =>
    cases partitions with
    | nil => exact fresh
    | cons first rest => exact merged (folded fresh first.complete) rest

/-- Where states of rows merge to the state of all these rows, both modes gather the same. -/
theorem gather_of_merges [Scalar α] {state : σ} {context : StepContext α}
    {partitions : List (Partition α)}
    (merges : ∀ rows, ∀ part ∈ partitions,
      kernel.merge (kernel.foldRows (kernel.begin state context) rows)
        (kernel.foldRows (kernel.begin state context) part.complete) =
      kernel.foldRows (kernel.begin state context) (rows ++ part.complete)) (mode : PassMode) :
    kernel.gather mode state context partitions =
      kernel.foldRows (kernel.begin state context) (partitions.flatMap Partition.complete) := by
  have folded {rest : List (Partition α)} (inside : ∀ part ∈ rest, part ∈ partitions)
      (rows : List (Row α)) :
      (rest.map fun part => kernel.foldRows (kernel.begin state context) part.complete).foldl
        kernel.merge (kernel.foldRows (kernel.begin state context) rows) =
      kernel.foldRows (kernel.begin state context) (rows ++ rest.flatMap Partition.complete) := by
    induction rest generalizing rows with
    | nil => rw [List.flatMap_nil, List.append_nil, List.map_nil, List.foldl_nil]
    | cons part rest ih =>
      rw [List.map_cons, List.foldl_cons, merges rows part (inside part List.mem_cons_self),
        ih (fun other later => inside other (List.mem_cons_of_mem part later)),
        List.flatMap_cons, List.append_assoc]
  cases mode with
  | single => rfl
  | parallel =>
    cases partitions with
    | nil => rfl
    | cons first rest =>
      exact folded (fun _ later => List.mem_cons_of_mem first later) first.complete

/-- States of a kind, written to slots, on which an optimizer does what the kernel does. The rows
    have as many features as the dimension says. -/
structure CarriedOut (optimizer : Optimizer α) (write : σ → Slots α) (Sized : σ → Prop)
    (dimension : Nat) : Prop where
  begin : ∀ {state}, Sized state → ∀ context, Sized (kernel.begin state context) ∧
    optimizer.begin (some (write state)) context = .ok (write (kernel.begin state context))
  transition : ∀ {state}, Sized state → ∀ {row : Row α}, row.features.length = dimension →
    Sized (kernel.transition state row) ∧
    optimizer.transition row.features row.response (write state) =
      .ok () (write (kernel.transition state row))
  merge : ∀ {left right}, Sized left → Sized right → Sized (kernel.merge left right) ∧
    optimizer.merge (write right) (write left) = .ok () (write (kernel.merge left right))
  finalize : ∀ {state}, Sized state → Sized (kernel.finalize state) ∧
    optimizer.finalize (write state) = .ok () (write (kernel.finalize state))

namespace CarriedOut

variable {kernel} {optimizer : Optimizer α} {write : σ → Slots α} {Sized : σ → Prop}
  {dimension : Nat} (carried : kernel.CarriedOut optimizer write Sized dimension)
include carried

theorem foldRows {rows : List (Row α)} (fitting : ∀ row ∈ rows, row.features.length = dimension)
    {state : σ} (sized : Sized state) : Sized (kernel.foldRows state rows) ∧
      Pass.foldRows optimizer rows (write state) = .ok () (write (kernel.foldRows state rows)) := by
  induction rows generalizing state with
  | nil => exact ⟨sized, rfl⟩
  | cons row rest ih =>
    obtain ⟨next, taken⟩ := carried.transition sized (fitting row List.mem_cons_self)
    obtain ⟨last, folded⟩ := ih (fun other later => fitting other (List.mem_cons_of_mem row later))
      next
    exact ⟨last, (bind_of_ok taken).trans folded⟩

theorem mergeAll {others : List σ} (all : ∀ other ∈ others, Sized other) {state : σ}
    (sized : Sized state) : Sized (others.foldl kernel.merge state) ∧
      Pass.mergeAll optimizer (others.map write) (write state) =
        .ok () (write (others.foldl kernel.merge state)) := by
  induction others generalizing state with
  | nil => exact ⟨sized, rfl⟩
  | cons other rest ih =>
    obtain ⟨next, merged⟩ := carried.merge sized (all other List.mem_cons_self)
    obtain ⟨last, rested⟩ := ih (fun later inside => all later (List.mem_cons_of_mem other inside))
      next
    exact ⟨last, (bind_of_ok merged).trans rested⟩

variable [Scalar α]

theorem foldPartitions {partitions : List (Partition α)}
    (fitting : ∀ part ∈ partitions, part.dimension = dimension) {state : σ} (sized : Sized state) :
    Sized (kernel.foldRows state (partitions.flatMap Partition.complete)) ∧
      Pass.foldPartitions optimizer partitions (write state) =
        .ok () (write (kernel.foldRows state (partitions.flatMap Partition.complete))) := by
  induction partitions generalizing state with
  | nil => exact ⟨sized, rfl⟩
  | cons part rest ih =>
    obtain ⟨next, taken⟩ := carried.foldRows (fun row inside => (part.length_complete inside).trans
      (fitting part List.mem_cons_self)) sized
    obtain ⟨last, folded⟩ := ih (fun other later => fitting other (List.mem_cons_of_mem part later))
      next
    have split : kernel.foldRows state ((part :: rest).flatMap Partition.complete) =
        kernel.foldRows (kernel.foldRows state part.complete)
          (rest.flatMap Partition.complete) := by
      unfold Kernel.foldRows
      rw [List.flatMap_cons, List.foldl_append]
    rw [split]
    exact ⟨last, (bind_of_ok taken).trans folded⟩

theorem partialState {part : Partition α} (fitting : part.dimension = dimension) {state : σ}
    (sized : Sized state) (context : StepContext α) :
    Sized (kernel.foldRows (kernel.begin state context) part.complete) ∧
      Pass.partialState optimizer (write state) context part =
        .ok (write (kernel.foldRows (kernel.begin state context) part.complete)) := by
  obtain ⟨fresh, begun⟩ := carried.begin sized context
  obtain ⟨last, folded⟩ := carried.foldRows
    (fun row inside => (part.length_complete inside).trans fitting) fresh
  refine ⟨last, ?_⟩
  unfold Pass.partialState
  rw [begun]
  exact apply_of_ok folded

theorem step {source : Source α} (fitting : source.dimension = dimension) {state : σ}
    (sized : Sized state) (mode : PassMode) (context : StepContext α) :
    Sized (kernel.pass mode state context source.partitions) ∧
      Pass.step ⟨optimizer, mode⟩ (some (write state)) context source =
        .ok (write (kernel.pass mode state context source.partitions)) := by
  have uniform : ∀ part ∈ source.partitions, part.dimension = dimension :=
    fun part inside => (source.uniform part inside).trans fitting
  obtain ⟨fresh, begun⟩ := carried.begin sized context
  cases mode with
  | single =>
    obtain ⟨gathered, folded⟩ := carried.foldPartitions uniform fresh
    obtain ⟨last, ended⟩ := carried.finalize gathered
    refine ⟨last, ?_⟩
    change Pass.singlePass optimizer (write state) context source.partitions = _
    unfold Pass.singlePass
    rw [begun]
    exact apply_of_ok ((bind_of_ok folded).trans ended)
  | parallel =>
    have parts := fun part inside => carried.partialState (uniform part inside) sized context
    have all := mapM_eq_ok fun part inside => (parts part inside).2
    change Sized (kernel.finalize _) ∧
      Pass.parallelPass optimizer (write state) context source.partitions = _
    unfold Pass.parallelPass Kernel.pass Kernel.gather
    rw [all]
    cases given : source.partitions with
    | nil =>
      obtain ⟨last, ended⟩ := carried.finalize fresh
      refine ⟨last, ?_⟩
      change (do
          Command.apply optimizer.finalize (← optimizer.begin (some (write state)) context)) =
        Except.ok _
      rw [begun]
      exact apply_of_ok ended
    | cons first rest =>
      rw [given] at parts
      have others : ∀ other ∈ rest.map (fun part =>
          kernel.foldRows (kernel.begin state context) part.complete), Sized other := by
        intro other inside
        obtain ⟨part, later, rfl⟩ := List.mem_map.mp inside
        exact (parts part (List.mem_cons_of_mem first later)).1
      obtain ⟨merged, merges⟩ := carried.mergeAll others (parts first List.mem_cons_self).1
      obtain ⟨last, ended⟩ := carried.finalize merged
      refine ⟨last, ?_⟩
      rw [List.map_map] at merges
      exact apply_of_ok ((bind_of_ok merges).trans ended)

end CarriedOut

end Kernel

end ElasticNet
