import ElasticNet.Predict
import ElasticNet.Proofs.Reliable

namespace ElasticNet

variable {α : Type} [Scalar α]

/-- The same number, or an equal one: the two zeros are equal. -/
def Scalar.Same (x y : α) : Prop :=
  x = y ∨ (x == y) = true

theorem Scalar.same_of_not_bne {x y : α} (same : ¬(x != y) = true) : Scalar.Same x y := by
  rw [bne, Bool.not_eq_true', Bool.not_eq_false] at same
  exact .inr same

namespace Model

structure IsFinite (model : Model α) : Prop where
  coefficients : Scalar.allFinite model.coefficients = true
  intercept : Scalar.isFinite model.intercept = true
  logLikelihood : Scalar.isFinite model.logLikelihood = true

structure Predicts (model : Model α) (features : List α) : Prop where
  gaussian : Predict.gaussian model.coefficients model.intercept features ≠ .error .nonFiniteModel
  binomial : Predict.binomial model.coefficients model.intercept features ≠ .error .nonFiniteModel
  probability :
    Predict.probability model.coefficients model.intercept features ≠ .error .nonFiniteModel
  classLoss : ∀ observed,
    Predict.classLoss model.coefficients model.intercept observed features ≠ .error .nonFiniteModel

theorem IsFinite.predicts {model : Model α} (finite : model.IsFinite) (features : List α) :
    model.Predicts features := by
  have sound : Predict.linear model.coefficients model.intercept features ≠
      .error .nonFiniteModel := by
    unfold Predict.linear
    rw [finite.coefficients, finite.intercept]
    split
    · next bad => cases bad
    split
    · exact nofun
    split
    · exact nofun
    · exact nofun
  have mapped {β : Type} (read : Option α → β) :
      (Predict.linear model.coefficients model.intercept features).map read ≠
        .error .nonFiniteModel := by
    cases given : Predict.linear model.coefficients model.intercept features with
    | ok _ => exact nofun
    | error error =>
      rintro ⟨⟩
      exact sound given
  exact ⟨sound, mapped _, mapped _, fun _ => mapped _⟩

end Model

/-- An optimizer whose models are finite and at the strength of the last pass, unless that pass gave
    the state up or had no rows. -/
def Optimizer.Vouches (optimizer : Optimizer α) (dimension : Nat) (Sound : Slots α → Prop) : Prop :=
  ∀ {slots next : Slots α}, Sound slots → ∀ {mode : PassMode} {context : StepContext α}
    {source : Source α}, source.dimension = dimension →
    Pass.step ⟨optimizer, mode⟩ (some slots) context source = .ok next → Run.Goes next →
    ∀ {spreads : List α} {tolerance : α} {model : Model α},
      optimizer.model next spreads tolerance = .ok model →
      Scalar.Same model.strength context.strength ∧ model.IsFinite

theorem Run.Goes.isFinite [Scalar.KeepsCounts α] {slots : Slots α} (goes : Run.Goes slots)
    {finite : Bool} (told : slots.status =
      .ok (.ofSlot ((if finite then Status.inProcess else Status.terminated).slot : α))) :
    finite = true := by
  cases finite with
  | true => rfl
  | false =>
    have given : Status.ofSlot ((Status.terminated).slot : α) = .terminated :=
      Status.ofSlot_slot nofun
    exact absurd goes (Run.not_goes_of_terminated (told.trans (congrArg Except.ok given)))

structure Kernel.AtStrength {σ : Type} (kernel : Kernel α σ) (strength : σ → α) : Prop where
  begin : ∀ state context, Scalar.Same (strength (kernel.begin state context)) context.strength
  transition : ∀ state row, strength (kernel.transition state row) = strength state
  merge : ∀ left right, strength (kernel.merge left right) = strength left ∨
    strength (kernel.merge left right) = strength right
  finalize : ∀ state, strength (kernel.finalize state) = strength state

theorem Kernel.AtStrength.pass {σ : Type} {kernel : Kernel α σ} {strength : σ → α}
    (kept : kernel.AtStrength strength) (mode : PassMode) (state : σ) (context : StepContext α)
    (partitions : List (Partition α)) :
    Scalar.Same (strength (kernel.pass mode state context partitions)) context.strength := by
  unfold Kernel.pass
  rw [kept.finalize]
  refine kernel.gather_induction
    (fun gathered => Scalar.Same (strength gathered) context.strength) (kept.begin state context)
    ?_ ?_ mode partitions
  · intro gathered row same
    rwa [kept.transition]
  · intro left right same other
    rcases kept.merge left right with taken | taken
    · rwa [taken]
    · rwa [taken]

namespace Igd

theorem atStrength (family : Family) :
    (kernel family : Kernel α (State α)).AtStrength State.strength where
  begin state context := by
    change Scalar.Same (state.begin context).strength context.strength
    unfold State.begin
    dsimp only
    split
    · exact .inl rfl
    · next same => exact Scalar.same_of_not_bne same
  transition _ _ := rfl
  merge left right := by
    change (left.merge family right).strength = _ ∨ (left.merge family right).strength = _
    unfold State.merge
    split
    · exact .inl rfl
    · split
      · exact .inr rfl
      · exact .inl rfl
  finalize state := by
    change (state.finalize family).strength = _
    unfold State.finalize
    dsimp only
    split
    · rfl
    · split
      · rfl
      · rfl

theorem finite_finalize [Scalar.KeepsCounts α] (family : Family) {state : State α}
    (goes : Run.Goes (layout.write (state.finalize family))) :
    Scalar.allFinite (state.finalize family).coefficients = true ∧
    Scalar.isFinite (state.finalize family).intercept = true ∧
    Scalar.isFinite (state.finalize family).logLikelihood = true := by
  have told := statusLast.read_status (state.finalize family)
  by_cases none : Scalar.toUInt64 state.rows = 0
  · have empty := ((concludes family).status_eq_empty_iff statusLast).mpr none
    exact absurd goes (Run.not_goes_of_empty empty)
  · unfold State.finalize at goes told ⊢
    simp only [if_neg none] at goes told ⊢
    have finite := goes.isFinite told
    rwa [Bool.and_eq_true, Bool.and_eq_true, and_assoc] at finite

theorem allFinite_keptCoefficients (zero : Scalar.isFinite (0 : α) = true) {state : State α}
    (finite : Scalar.allFinite state.coefficients = true) (spreads : List α) (tolerance : α) :
    Scalar.allFinite (state.keptCoefficients spreads tolerance) = true := by
  rw [Scalar.allFinite, List.all_eq_true] at finite ⊢
  intro kept inside
  unfold State.keptCoefficients at inside
  dsimp only at inside
  rw [← List.map_uncurry_zip_eq_zipWith] at inside
  obtain ⟨⟨c, size⟩, given, rfl⟩ := List.mem_map.mp inside
  change Scalar.isFinite (if _ then 0 else c) = true
  split
  · exact zero
  · exact finite c (List.of_mem_zip given).1

theorem vouches [Scalar.KeepsCounts α] (zero : Scalar.isFinite (0 : α) = true) (family : Family)
    (dimension : Nat) : (optimizer family : Optimizer α).Vouches dimension fun slots =>
      ∃ state : State α, state.Sized dimension ∧ slots = layout.write state := by
  rintro _ next ⟨state, sized, rfl⟩ mode context source fitting given goes spreads tolerance model
    own
  obtain ⟨kept, stepped⟩ := (carriedOut family dimension).step fitting sized mode context
  cases given.symm.trans stepped
  change (layout.view (layout.write _)).map _ = _ at own
  rw [(readsBack kept).view] at own
  cases own
  obtain ⟨coefficients, intercept, logLikelihood⟩ := finite_finalize family goes
  exact ⟨(atStrength family).pass mode state context source.partitions,
    allFinite_keptCoefficients zero coefficients spreads tolerance, intercept, logLikelihood⟩

end Igd

namespace Fista

theorem atStrength (family : Family) :
    (kernel family : Kernel α (State α)).AtStrength State.strength where
  begin state context := by
    have cleared (state : State α) :
        (if state.trials = 0 then
          { state with gradient := state.gradient.map fun _ => 0, interceptGradient := 0 }
        else
          { state with
            candidateValue := 0
            momentumValue := if state.trials = 1 then 0 else state.momentumValue }).strength =
          state.strength := by
      split
      · rfl
      · rfl
    change Scalar.Same (state.begin context).strength context.strength
    unfold State.begin
    dsimp only
    rw [cleared]
    split
    · exact .inl rfl
    · next same => exact Scalar.same_of_not_bne same
  transition state row := by
    change (state.transition family row.features row.response).strength = _
    unfold State.transition
    dsimp only
    split
    · rfl
    · rfl
  merge left right := by
    have combined : (left.combine right).strength = left.strength := by
      unfold State.combine
      dsimp only
      split
      · rfl
      · rfl
    change (left.merge right).strength = _ ∨ (left.merge right).strength = _
    unfold State.merge
    split
    · exact .inl rfl
    · split
      · exact .inr rfl
      · exact .inl combined
  finalize state := by
    change state.finalize.strength = _
    unfold State.finalize
    dsimp only
    split
    · rfl
    · split
      · rfl
      · exact read_judged State.strength (fun _ => rfl) (fun _ => rfl) _ _

theorem finite_finalize [Scalar.KeepsCounts α] {state : State α}
    (goes : Run.Goes (layout.write state.finalize)) : state.finalize.model.IsFinite := by
  have told := statusLast.read_status state.finalize
  by_cases none : Scalar.toUInt64 state.rows = 0
  · have empty := (concludes.status_eq_empty_iff statusLast).mpr none
    exact absurd goes (Run.not_goes_of_empty empty)
  · unfold State.finalize at goes told ⊢
    simp only [if_neg none] at goes told ⊢
    have finite := goes.isFinite told
    unfold State.isFinite at finite
    simp only [Bool.and_eq_true] at finite
    obtain ⟨⟨⟨⟨coefficients, _⟩, intercept⟩, _⟩, logLikelihood⟩ := finite
    exact ⟨coefficients, intercept, logLikelihood⟩

theorem vouches [Scalar.KeepsCounts α] (family : Family) (dimension : Nat) :
    (optimizer family : Optimizer α).Vouches dimension fun slots =>
      ∃ state : State α, state.Sized dimension ∧ slots = layout.write state := by
  rintro _ next ⟨state, sized, rfl⟩ mode context source fitting given goes spreads tolerance model
    own
  obtain ⟨kept, stepped⟩ := (carriedOut family dimension).step fitting sized mode context
  cases given.symm.trans stepped
  change (layout.view (layout.write _)).map _ = _ at own
  rw [(readsBack kept).view] at own
  cases own
  exact ⟨(atStrength family).pass mode state context source.partitions, finite_finalize goes⟩

end Fista

/-- Both methods are reliable, and vouch for their models. -/
theorem Optimizer.exists_vouching [Scalar.KeepsCounts α] (zero : Scalar.isFinite (0 : α) = true)
    (family : Family) (method : Method) {dimension : Nat} (positive : 0 < dimension)
    (fits : Fista.slotCount dimension < UInt32.size) :
    ∃ Sound, (Optimizer.ofMethod family method : Optimizer α).Reliable dimension Sound ∧
      (Optimizer.ofMethod family method : Optimizer α).Vouches dimension Sound := by
  have small := Fista.lt_of_slotCount_lt fits
  cases method with
  | igd => exact ⟨_, Igd.reliable family positive small, Igd.vouches zero family dimension⟩
  | fista => exact ⟨_, Fista.reliable family positive fits, Fista.vouches family dimension⟩

namespace Run

theorem positionAfter_le (run : Run α) (count : Nat) : run.positionAfter count ≤ count + 1 := by
  induction count with
  | zero => exact Nat.le_refl _
  | succ count ih =>
    rw [positionAfter_succ]
    split
    · exact Nat.succ_le_succ ih
    · exact Nat.le_succ_of_le ih

end Run

namespace Path

omit [Scalar α] in
theorem target_eq (path : Path α) : path.strengths[path.size - 1]? = some path.target := by
  unfold size
  rw [← List.getLast?_eq_getElem?]
  exact List.getLast?_eq_some_getLast path.nonempty

end Path

namespace Run

variable {run : Run α}

/-- A run that is through has come to the target, with at least one update for every position, and
    without convergence it has used up its budget. -/
structure Ended.Through (run : Run α) (total position : Nat) (converged : Bool) : Prop where
  target : position = run.path.size
  covers : run.path.size ≤ total
  stands : run.positionAfter (total - 1) = run.path.size
  goes : Goes (run.stateAfter total)
  spent : converged = false → total = run.budget

theorem Ended.through {origin : Store (Slots α)} {state : RunState α} {total position : Nat}
    {converged : Bool} (ended : run.Ended origin state total)
    (done : state.progress.phase = .done position converged) :
    Through run total position converged := by
  have last : total - 1 + 1 = total := Nat.sub_add_cancel ended.positive
  have within := run.positionAfter_le (total - 1)
  have stops := ended.stops
  rw [done] at stops
  cases stops with
  | converged goes target _ _ =>
    rw [last] at goes within
    exact ⟨rfl, target ▸ within, target, goes, nofun⟩
  | spent goes target _ _ used =>
    rw [last] at goes within used
    exact ⟨rfl, target ▸ within, target, goes, fun _ => used⟩

theorem OnReliable.vouched {dimension : Nat} {Sound : Slots α → Prop}
    (sure : run.OnReliable dimension Sound) (vouches : run.pass.optimizer.Vouches dimension Sound)
    {position : Nat} {converged : Bool}
    (done : (run.alone run.updatesAlone).progress.phase = .done position converged)
    {spreads : List α} {tolerance : α} {model : Model α}
    (given : run.pass.optimizer.model (run.stateAfter run.updatesAlone) spreads tolerance =
      .ok model) : Scalar.Same model.strength run.path.target ∧ model.IsFinite := by
  have ended := sure.ended
  have through := ended.through done
  have last : run.updatesAlone - 1 + 1 = run.updatesAlone := Nat.sub_add_cancel ended.positive
  obtain ⟨strength, found, stepped⟩ := ended.walked.follows.steps (run.updatesAlone - 1) (by omega)
  rw [through.stands, run.path.target_eq] at found
  cases found
  rw [last] at stepped
  exact vouches (sure.sound_stateAfter _) sure.source stepped through.goes given

end Run

end ElasticNet
