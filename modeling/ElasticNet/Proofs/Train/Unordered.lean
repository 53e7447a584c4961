import ElasticNet.Proofs.Fista.Unordered
import ElasticNet.Proofs.Scales.Sums
import ElasticNet.Proofs.Train.Alike

namespace ElasticNet.Train

open Command

section Checks

variable {source other : Source Exact} (rows : other.rows.Perm source.rows)
include rows

theorem dimension_perm (some : source.completeCount ≠ 0) :
    other.dimension = source.dimension := by
  obtain ⟨row, inside⟩ := List.exists_mem_of_length_pos (Nat.pos_of_ne_zero some)
  have member := (List.mem_filter.mp inside).1
  exact Source.dimension_of_mem member (rows.mem_iff.mpr member)

theorem checkRows_perm : EndAlike Eq (checkRows source) (checkRows other) := by
  have complete : other.completeCount = source.completeCount := (rows.filter _).length_eq
  have refused {source : Source Exact} (none : source.completeCount = 0) :
      ∃ error, checkRows source = .error error ∧ error.kind = .data := by
    rw [checkRows_eq, if_pos none]
    split
    · exact ⟨_, rfl, rfl⟩
    · split
      · exact ⟨_, rfl, rfl⟩
      · exact ⟨_, rfl, rfl⟩
  have partitions {source : Source Exact} (some : source.completeCount ≠ 0) :
      source.partitions.isEmpty ≠ true := by
    intro none
    apply some
    unfold Source.completeCount Source.rows
    rw [List.isEmpty_iff.mp none]
    rfl
  by_cases none : source.completeCount = 0
  · -- whatever is missing, the error is one of the data
    obtain ⟨error, given, kind⟩ := refused none
    obtain ⟨otherError, otherGiven, otherKind⟩ := refused (complete.trans none)
    rw [given, otherGiven]
    exact .error (otherKind.trans kind.symm)
  · rw [checkRows_eq, checkRows_eq, dimension_perm rows none, complete, if_neg none, if_neg none,
      if_neg (partitions none), if_neg (partitions (complete ▸ none))]
    exact .of_eq rfl

theorem checkResponses_perm (family : Family) :
    EndAlike Eq (checkResponses family source) (checkResponses family other) :=
  checkResponses_alike fun _ => rows.any_eq

end Checks

section Rows

variable {source other : Source Exact} (dimension : other.dimension = source.dimension)
  (rows : other.rows.Perm source.rows)
include dimension rows

theorem fittedSource_perm (standardize center : Bool) :
    (fittedSource other standardize center).rows.Perm
      (fittedSource source standardize center).rows := by
  have complete : other.completeCount = source.completeCount := (rows.filter _).length_eq
  unfold fittedSource
  rw [complete, Scales.measure_perm dimension rows]
  split
  · rw [Scales.rows_standardized, Scales.rows_standardized]
    exact rows.map _
  · exact rows

theorem context_fitInput_perm (base : StepContext Exact) (standardize center : Bool) :
    (fitInput other base standardize center).context =
      (fitInput source base standardize center).context := by
  have fitted : Scales.measure (fittedSource other standardize center) =
      Scales.measure (fittedSource source standardize center) := by
    refine Scales.measure_perm ?_ (fittedSource_perm dimension rows standardize center)
    rw [dimension_fittedSource, dimension_fittedSource, dimension]
  unfold fitInput
  dsimp only
  rw [fitted, Scales.measure_perm dimension rows]

/-- Runs of proximal steps on rows in any order walk the same loop. -/
theorem sameLoop_perm {plan otherPlan : Plan Exact} (alike : plan.Alike otherPlan) {family : Family}
    (own : plan.pass.optimizer = Fista.optimizer family)
    (few : source.rowCount < UInt64.size) (sure : plan.Sure source.dimension fun slots =>
      ∃ state : Fista.State Exact, state.Sized source.dimension ∧
        slots = Fista.layout.write state) :
    (fitRun plan none source).SameLoop (fitRun otherPlan none other) := by
  have contexts : (fitRun otherPlan none other).context = (fitRun plan none source).context := by
    change (fitInput other otherPlan.base _ _).context = _
    rw [alike.base, alike.standardize, alike.center]
    exact context_fitInput_perm dimension rows _ _ _
  refine (sure.fitRun none rfl).sameLoop alike.path alike.test ?_ ?_
  · intro strength
    unfold Pass.baseline
    rw [contexts]
    exact congrArg (Optimizer.initial · _) alike.optimizer
  · rintro _ ⟨state, sized, rfl⟩ strength
    have shape : plan.pass = ⟨Fista.optimizer family, plan.pass.mode⟩ := by rw [← own]
    have otherShape : otherPlan.pass = ⟨Fista.optimizer family, otherPlan.pass.mode⟩ := by
      rw [← own, ← alike.optimizer]
    have perm := fittedSource_perm dimension rows plan.options.standardize plan.center
    have fittedFew : (fittedSource source plan.options.standardize plan.center).completeCount <
        UInt64.size := by
      refine Nat.lt_of_le_of_lt (List.length_filter_le _ _) ?_
      change (fittedSource source _ _).rowCount < _
      rwa [rowCount_fittedSource]
    rw [contexts]
    change Pass.step otherPlan.pass _ _ (fittedSource other otherPlan.options.standardize
        otherPlan.center) = Pass.step plan.pass _ _ (fittedSource source _ _)
    rw [alike.standardize, alike.center, shape, otherShape]
    refine Fista.step_unordered family (perm.filter _) fittedFew ?_ _ _ _
    rwa [dimension_fittedSource]

end Rows

theorem fista_of_laid {source : Source Exact} {options : TrainOptions Exact}
    {state told : TrainState Exact} {laidOut : Plan Exact}
    (laid : plan (some source) options state = .ok laidOut told)
    (fista : Method.ofName? options.method = some .fista)
    (fits : Fista.slotCount source.dimension < UInt32.size) :
    laidOut.source = source ∧ checkRows source = .ok () ∧
      ∃ family, laidOut.pass.optimizer = Fista.optimizer family ∧
        laidOut.Sure source.dimension fun slots => ∃ state : Fista.State Exact,
          state.Sized source.dimension ∧ slots = Fista.layout.write state := by
  obtain ⟨_, family, method, params, path, test, ⟨⟩, checked, rfl⟩ := plan_eq_ok laid
  have own := checked.fista fista
  obtain ⟨wide, _⟩ := checkRows_eq_ok checked.rowsPass
  have reliable := Fista.reliable (α := Exact) family (Nat.pos_of_ne_zero wide) fits
  rw [← own] at reliable
  exact ⟨rfl, checked.rowsPass, family, own, checked.sureOf reliable⟩

theorem trainAll_unordered {source other : Source Exact} (rows : other.rows.Perm source.rows)
    (few : source.rowCount < UInt64.size) (fits : Fista.slotCount source.dimension < UInt32.size)
    {options : TrainOptions Exact} (fista : Method.ofName? options.method = some .fista)
    {text : String} {state otherState told otherTold : TrainState Exact}
    {laidOut otherLaidOut : Plan Exact} (alike : laidOut.Alike otherLaidOut)
    (laid : plan (some source) options state = .ok laidOut told)
    (otherLaid : plan (some other) { options with params := text } otherState =
      .ok otherLaidOut otherTold) :
    FitAlike Eq told otherTold (Command.result (trainAll laidOut) told)
      (Command.result (trainAll otherLaidOut) otherTold) := by
  obtain ⟨given, passed, family, own, sure⟩ := fista_of_laid laid fista fits
  have dimension := dimension_perm rows (checkRows_eq_ok passed).2
  rw [← dimension] at fits
  obtain ⟨otherGiven, _, _, _, otherSure⟩ := fista_of_laid otherLaid fista fits
  rw [dimension] at otherSure
  have same := sameLoop_perm dimension rows alike own few sure
  have progress := lastState_sameLoop alike sure otherSure rfl dimension same
  have reports := endReport_sameLoop alike sure otherSure rfl dimension same
    (Scales.measure_perm dimension rows)
  subst given otherGiven
  refine trainAll_alike sure (dimension ▸ otherSure) alike.path
    (congrArg Progress.phase progress.1) ?_ told otherTold
  intro row otherRow found otherFound
  rw [reports] at otherFound
  exact Except.ok.inj (found.symm.trans otherFound)

/-- Where the method is that of proximal steps, a pass does not depend on how the complete rows of
    its data are laid out, nor on the mode in which they are folded. And so no training of one model
    depends on it: it fails with the same kind of error, or it answers and writes the same. Words
    can count the rows, and the slots of a state. -/
theorem rows_unordered {source other : Source Exact} (few : source.rowCount < UInt64.size) :
    ((other.rows.filter Row.isComplete).Perm (source.rows.filter Row.isComplete) →
      ∀ (family : Family) (state : Fista.State Exact), state.Sized source.dimension →
      ∀ (context : StepContext Exact) (mode otherMode : PassMode), ∃ next : Fista.State Exact,
        next.Sized source.dimension ∧
        Pass.step ⟨Fista.optimizer family, mode⟩ (some (Fista.layout.write state)) context source =
          .ok (Fista.layout.write next) ∧
        Pass.step ⟨Fista.optimizer family, otherMode⟩ (some (Fista.layout.write state)) context
          other = .ok (Fista.layout.write next)) ∧
    (other.rows.Perm source.rows → Fista.slotCount source.dimension < UInt32.size →
      ∀ (options : TrainOptions Exact) (text : String),
      Method.ofName? options.method = some .fista → options.grouped = false →
      EndAlike SameButFolding (Params.parse options.params options.method : Except _ (Params Exact))
        (Params.parse text options.method) →
      ∀ state otherState, FitAlike Eq state otherState
        (Command.result (train (some source) options) state)
        (Command.result (train (some other) { options with params := text }) otherState)) := by
  constructor
  · intro rows family state sized context mode otherMode
    have complete : source.completeCount < UInt64.size :=
      Nat.lt_of_le_of_lt (List.length_filter_le _ _) few
    obtain ⟨kept, stepped⟩ := (Fista.carriedOut family source.dimension).step rfl sized mode context
    refine ⟨_, kept, stepped, ?_⟩
    rw [Fista.step_unordered family rows complete sized mode otherMode, stepped]
  · intro rows fits options text fista single params state otherState
    have wide (passed : checkRows source = .ok ()) : other.dimension = source.dimension :=
      dimension_perm rows (checkRows_eq_ok passed).2
    have paths (passed : checkRows source = .ok ()) (params : Params Exact) :
        (layPath options params (Scales.measure other)).1 =
          (layPath options params (Scales.measure source)).1 := by
      rw [Scales.measure_perm (wide passed) rows]
    have plans := plan_alike params wide (checkRows_perm rows)
      (fun family _ => checkResponses_perm rows family) paths
    refine train_alike single (show TrainOptions.grouped { options with params := text } = false
      from single) plans ?_
    intro laidOut otherLaidOut told otherTold alike laid otherLaid
    exact trainAll_unordered rows few fits fista alike laid otherLaid

noncomputable def scattered : Source Exact where
  dimension := 1
  partitions := [⟨1, [], by simp⟩, ⟨1, [⟨[1], 2, ""⟩, ⟨[.undefined], 1, ""⟩], by simp⟩,
    ⟨1, [⟨[2], 3, ""⟩], by simp⟩]
  uniform := by simp

noncomputable def collected : Source Exact where
  dimension := 1
  partitions := [⟨1, [⟨[2], 3, ""⟩, ⟨[1], 2, ""⟩, ⟨[.undefined], 1, ""⟩], by simp⟩]
  uniform := by simp

noncomputable def scatteredContext : StepContext Exact :=
  { StepContext.default with dimension := 1 }

theorem parse_blank {α : Type} [Scalar α] :
    (Params.parse "" "fista" : Except Error (Params α)) = .ok .default := rfl

theorem parse_single {α : Type} [Scalar α] :
    (Params.parse "parallel=false" "fista" : Except Error (Params α)) =
      .ok { Params.default with parallel := false } := rfl

theorem collected_as_scattered :
    scattered.rowCount < UInt64.size ∧ collected.rows.Perm scattered.rows ∧
    Fista.slotCount scattered.dimension < UInt32.size ∧
    (∃ next : Fista.State Exact, next.Sized 1 ∧
      Pass.step ⟨Fista.optimizer .binomial, .parallel⟩
        (some (Fista.layout.write (Fista.initialState scatteredContext))) scatteredContext
        scattered = .ok (Fista.layout.write next) ∧
      Pass.step ⟨Fista.optimizer .binomial, .single⟩
        (some (Fista.layout.write (Fista.initialState scatteredContext))) scatteredContext
        collected = .ok (Fista.layout.write next)) ∧
    ∀ state otherState, FitAlike Eq state otherState
      (Command.result (train (some scattered) { defaultOptions with method := "fista" }) state)
      (Command.result (train (some collected)
        { defaultOptions with method := "fista", params := "parallel=false" }) otherState) := by
  have few : scattered.rowCount < UInt64.size := by
    change 3 < UInt64.size
    decide
  have rows : collected.rows.Perm scattered.rows := (List.perm_append_singleton _ [_, _]).symm
  have fits : Fista.slotCount scattered.dimension < UInt32.size := by decide
  have texts : EndAlike SameButFolding (Params.parse "" "fista" : Except _ (Params Exact))
      (Params.parse "parallel=false" "fista") := by
    rw [parse_blank, parse_single]
    exact .ok rfl
  have small : scatteredContext.dimension < UInt32.size := by
    change 1 < UInt32.size
    decide
  obtain ⟨steps, trainings⟩ := rows_unordered few
  exact ⟨few, rows, fits,
    steps (rows.filter _) .binomial _ (Fista.sized_initialState small) _ .parallel .single,
    trainings rows fits { defaultOptions with method := "fista" } "parallel=false"
      (by decide +kernel) rfl texts⟩

end ElasticNet.Train
