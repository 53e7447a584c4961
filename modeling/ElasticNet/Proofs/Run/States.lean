import ElasticNet.Proofs.Reliable

namespace ElasticNet

variable {α σ : Type} [Scalar α]

namespace Run

structure OnKernel (run : Run α) (kernel : Kernel α σ) (start : StepContext α → σ)
    (layout : Layout α σ) (Sized : σ → Prop) : Prop where
  baseline : ∀ strength, Sized (start { run.context with strength := strength }) ∧
    run.pass.baseline { run.context with strength := strength } =
      .ok (layout.write (start { run.context with strength := strength }))
  step : ∀ {state}, Sized state → ∀ strength,
    Sized (kernel.pass run.pass.mode state { run.context with strength := strength }
      run.source.partitions) ∧
    run.pass.step (some (layout.write state)) { run.context with strength := strength } run.source =
      .ok (layout.write (kernel.pass run.pass.mode state
        { run.context with strength := strength } run.source.partitions))
  view : ∀ {state}, Sized state → layout.view? (layout.write state) = some state

/-- States along the positions of a run: the one that the kernel starts with, and those after each
    of some passes. -/
structure PassesThrough (run : Run α) (kernel : Kernel α σ) (start : StepContext α → σ)
    (states : Nat → σ) (positions : Nat → Nat) (count : Nat) : Prop where
  baseline : ∃ strength, run.path.strengths[0]? = some strength ∧
    states 0 = start { run.context with strength := strength }
  passes : ∀ i < count, ∃ strength, run.path.strengths[positions i - 1]? = some strength ∧
    states (i + 1) = kernel.pass run.pass.mode (states i)
      { run.context with strength := strength } run.source.partitions

/-- The slots that a run walks through are written from states of the kernel. -/
theorem OnKernel.exists_states {run : Run α} {kernel : Kernel α σ} {start : StepContext α → σ}
    {layout : Layout α σ} {Sized : σ → Prop} (sure : run.OnKernel kernel start layout Sized)
    {slots : Nat → Slots α} {positions : Nat → Nat} {count : Nat}
    (follows : run.Follows slots positions count) :
    ∃ states, run.PassesThrough kernel start states positions count ∧
      ∀ i ≤ count, Sized (states i) ∧ slots i = layout.write (states i) := by
  have sound := follows.invariant (fun slots => ∃ state, Sized state ∧ slots = layout.write state)
    (by
      intro strength first given
      obtain ⟨sized, made⟩ := sure.baseline strength
      exact ⟨_, sized, Except.ok.inj (given.symm.trans made)⟩)
    (by
      rintro _ strength next ⟨state, sized, rfl⟩ stepped
      obtain ⟨kept, made⟩ := sure.step sized strength
      exact ⟨_, kept, Except.ok.inj (stepped.symm.trans made)⟩)
  -- what the slots are written from is what they are read as
  let states := fun i => (layout.view? (slots i)).getD (start run.context)
  have reads {i : Nat} {state : σ} (sized : Sized state) (same : slots i = layout.write state) :
      states i = state := by
    change (layout.view? (slots i)).getD _ = _
    rw [same, sure.view sized]
    rfl
  have held : ∀ i ≤ count, Sized (states i) ∧ slots i = layout.write (states i) := by
    intro i inside
    obtain ⟨state, sized, same⟩ := sound i inside
    rw [reads sized same]
    exact ⟨sized, same⟩
  refine ⟨states, ⟨?_, ?_⟩, held⟩
  · obtain ⟨strength, stands, given⟩ := follows.baseline
    obtain ⟨sized, made⟩ := sure.baseline strength
    exact ⟨strength, stands, reads sized (Except.ok.inj (given.symm.trans made))⟩
  · intro i before
    obtain ⟨strength, stands, stepped⟩ := follows.steps i before
    obtain ⟨sized, same⟩ := held i (Nat.le_of_lt before)
    obtain ⟨kept, made⟩ := sure.step sized strength
    rw [same] at stepped
    exact ⟨strength, stands, reads kept (Except.ok.inj (stepped.symm.trans made))⟩

end Run

variable [Scalar.KeepsCounts α] {run : Run α} {dimension : Nat} {family : Family}

theorem Igd.onKernel (own : run.pass.optimizer = optimizer family)
    (context : run.context.dimension = dimension) (means : run.context.means.length = dimension)
    (source : run.source.dimension = dimension) (positive : 0 < dimension)
    (small : dimension < UInt32.size) :
    run.OnKernel (kernel family) (initialState family) layout (State.Sized dimension) where
  baseline strength := by
    let along := { run.context with strength := strength }
    unfold Pass.baseline
    rw [own]
    subst context
    have fitting : along.dimension < UInt32.size := small
    exact ⟨sized_initialState family fitting means, if_pos ⟨positive, means⟩⟩
  step sized strength := by
    have carried := (carriedOut family dimension).step source sized run.pass.mode
      { run.context with strength := strength }
    rwa [← own] at carried
  view sized := (readsBack sized).view?

theorem Fista.onKernel (own : run.pass.optimizer = optimizer family)
    (context : run.context.dimension = dimension) (source : run.source.dimension = dimension)
    (positive : 0 < dimension) (fits : slotCount dimension < UInt32.size) :
    run.OnKernel (kernel family) initialState layout (State.Sized dimension) where
  baseline strength := by
    let along := { run.context with strength := strength }
    unfold Pass.baseline
    rw [own]
    subst context
    have small : along.dimension < UInt32.size := lt_of_slotCount_lt fits
    exact ⟨sized_initialState small, (if_neg (Nat.ne_of_gt positive)).trans (if_pos fits)⟩
  step sized strength := by
    have carried := (carriedOut family dimension).step source sized run.pass.mode
      { run.context with strength := strength }
    rwa [← own] at carried
  view sized := (readsBack sized).view?

end ElasticNet
