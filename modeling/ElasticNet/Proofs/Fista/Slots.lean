import ElasticNet.Fista
import ElasticNet.Proofs.Layout
import ElasticNet.Proofs.Pass

namespace ElasticNet.Fista

open Command

variable {α : Type} [Scalar α]

namespace State

structure Sized (count : Nat) (state : State α) : Prop where
  dimension : (Scalar.toUInt32 state.dimension).toNat = count
  coefficients : state.coefficients.length = count
  momentum : state.momentum.length = count
  gradient : state.gradient.length = count
  candidate : state.candidate.length = count

def merge (left right : State α) : State α :=
  if Scalar.toUInt64 right.rows = 0 then left
  else if Scalar.toUInt64 left.rows = 0 then right
  else left.combine right

end State

theorem lt_of_slotCount_lt {dimension : Nat} (fits : slotCount dimension < UInt32.size) :
    dimension < UInt32.size := by
  unfold slotCount at fits
  omega

theorem readsBack {count : Nat} {state : State α} (sized : state.Sized count) :
    layout.ReadsBack state := by
  intro rest
  obtain ⟨dimension, coefficients, momentum, gradient, candidate⟩ := sized
  change readState (writeState state ++ rest) = _
  unfold readState writeState
  simp only [List.append_assoc, List.cons_append, List.nil_append, SlotReader.one_bind, dimension,
    SlotReader.block_bind coefficients, SlotReader.block_bind momentum,
    SlotReader.block_bind gradient, SlotReader.block_bind candidate]
  rfl

theorem length_write {count : Nat} {state : State α} (sized : state.Sized count) :
    (layout.write state).length = slotCount count := by
  obtain ⟨dimension, coefficients, momentum, gradient, candidate⟩ := sized
  change (writeState state).length = _
  simp only [writeState, List.length_append, List.length_cons, List.length_nil, coefficients,
    momentum, gradient, candidate, slotCount]
  omega

theorem statusLast : (layout : Layout α (State α)).StatusLast State.status
    fun state number => { state with status := number } :=
  .of_append (fun _ => rfl) (fun _ => List.cons_ne_nil _ _) (fun _ => rfl) (fun _ _ => rfl)
    fun _ _ => rfl

namespace State.Sized

variable {count : Nat} {state : State α}

theorem restart (sized : state.Sized count) (context : StepContext α) :
    (state.restart context).Sized count :=
  ⟨sized.dimension, sized.coefficients, sized.coefficients, sized.gradient, sized.candidate⟩

theorem begin (sized : state.Sized count) (context : StepContext α) :
    (state.begin context).Sized count := by
  have fresh : ∀ state : State α, state.Sized count → State.Sized count
      { (if state.trials = 0 then
          { state with gradient := state.gradient.map fun _ => 0, interceptGradient := 0 }
        else
          { state with
            candidateValue := 0
            momentumValue := if state.trials = 1 then 0 else state.momentumValue }) with
        rows := 0, status := Status.inProcess.slot } := by
    intro state sized
    by_cases gathers : state.trials = 0
    · rw [if_pos gathers]
      exact ⟨sized.dimension, sized.coefficients, sized.momentum,
        (List.length_map _).trans sized.gradient, sized.candidate⟩
    · rw [if_neg gathers]
      exact ⟨sized.dimension, sized.coefficients, sized.momentum, sized.gradient, sized.candidate⟩
  unfold State.begin
  by_cases moved : state.strength != context.strength
  · rw [if_pos moved]
    exact fresh _ (sized.restart context)
  · rw [if_neg moved]
    exact fresh _ sized

theorem transition (sized : state.Sized count) (family : Family) {features : List α}
    (fitting : features.length = count) (response : α) :
    (state.transition family features response).Sized count := by
  unfold State.transition
  by_cases gathers : state.trials = 0
  · simp only [gathers, if_true]
    refine ⟨sized.dimension, sized.coefficients, sized.momentum, ?_, sized.candidate⟩
    rw [List.length_zipWith, sized.gradient, fitting, Nat.min_self]
  · simp only [gathers, if_false]
    exact ⟨sized.dimension, sized.coefficients, sized.momentum, sized.gradient, sized.candidate⟩

theorem combine {left right : State α} (sized : left.Sized count) (other : right.Sized count) :
    (left.combine right).Sized count := by
  unfold State.combine
  by_cases gathers : left.trials = 0
  · simp only [gathers, if_true]
    refine ⟨sized.dimension, sized.coefficients, sized.momentum, ?_, sized.candidate⟩
    rw [Vector.add, List.length_zipWith, sized.gradient, other.gradient, Nat.min_self]
  · simp only [gathers, if_false]
    exact ⟨sized.dimension, sized.coefficients, sized.momentum, sized.gradient, sized.candidate⟩

theorem merge {left right : State α} (sized : left.Sized count) (other : right.Sized count) :
    (left.merge right).Sized count := by
  unfold State.merge
  split
  · exact sized
  · split
    · exact other
    · exact sized.combine other

theorem propose (sized : state.Sized count) (stepSize : α) :
    (state.propose stepSize).Sized count := by
  refine ⟨sized.dimension, sized.coefficients, sized.momentum, sized.gradient, ?_⟩
  unfold State.propose
  rw [List.length_zipWith, sized.momentum, sized.gradient, Nat.min_self]

theorem finishGradient (sized : state.Sized count) (total : α) :
    (state.finishGradient total).Sized count := by
  have scaled : (List.zipWith (fun g y =>
      if y != 0 then g / total + state.strength * (1 - state.mixing) * y else g / total)
      state.gradient state.momentum).length = count := by
    rw [List.length_zipWith, sized.gradient, sized.momentum, Nat.min_self]
  have next : State.Sized count { state with
      gradient := List.zipWith (fun g y =>
        if y != 0 then g / total + state.strength * (1 - state.mixing) * y else g / total)
        state.gradient state.momentum
      interceptGradient := state.interceptGradient / total } :=
    ⟨sized.dimension, sized.coefficients, sized.momentum, scaled, sized.candidate⟩
  have proposed := next.propose state.stepSize
  exact ⟨proposed.dimension, proposed.coefficients, proposed.momentum, proposed.gradient,
    proposed.candidate⟩

theorem accept (sized : state.Sized count) : state.accept.Sized count := by
  refine ⟨sized.dimension, sized.candidate, ?_, sized.gradient, sized.candidate⟩
  unfold State.accept
  rw [List.length_zipWith, sized.candidate, sized.coefficients, Nat.min_self]

theorem reject (sized : state.Sized count) : state.reject.Sized count := by
  have next : State.Sized count { state with stepSize := state.stepSize / state.eta } :=
    ⟨sized.dimension, sized.coefficients, sized.momentum, sized.gradient, sized.candidate⟩
  have proposed := next.propose (state.stepSize / state.eta)
  exact ⟨proposed.dimension, proposed.coefficients, proposed.momentum, proposed.gradient,
    proposed.candidate⟩

theorem finishTrial (sized : state.Sized count) (total : α) :
    (state.finishTrial total).Sized count := by
  have judged : ∀ next : State α, next.Sized count →
      (if next.candidateValue ≤ next.momentumValue + next.modelIncrement then next.accept
        else next.reject).Sized count := by
    intro next sized
    split
    · exact sized.accept
    · exact sized.reject
  exact judged _
    ⟨sized.dimension, sized.coefficients, sized.momentum, sized.gradient, sized.candidate⟩

theorem finalize (sized : state.Sized count) : state.finalize.Sized count := by
  unfold State.finalize
  split
  · exact ⟨sized.dimension, sized.coefficients, sized.momentum, sized.gradient, sized.candidate⟩
  · dsimp only
    split
    · have last := sized.finishGradient (Scalar.ofCount (Scalar.toUInt64 state.totalRows))
      exact ⟨last.dimension, last.coefficients, last.momentum, last.gradient, last.candidate⟩
    · have last := sized.finishTrial (Scalar.ofCount (Scalar.toUInt64 state.totalRows))
      exact ⟨last.dimension, last.coefficients, last.momentum, last.gradient, last.candidate⟩

end State.Sized

theorem read_judged {β : Type} (read : State α → β)
    (accept : ∀ state, read state.accept = read state)
    (reject : ∀ state, read state.reject = read state) (state : State α) (accepted : Prop)
    [Decidable accepted] :
    read (if accepted then state.accept else state.reject) = read state := by
  split
  · exact accept state
  · exact reject state

theorem rows_transition (family : Family) (state : State α) (row : Row α) :
    (state.transition family row.features row.response).rows = state.rows + 1 := by
  unfold State.transition
  dsimp only
  split
  · rfl
  · rfl

def kernel (family : Family) : Kernel α (State α) where
  begin := State.begin
  transition state row := state.transition family row.features row.response
  merge := State.merge
  finalize := State.finalize

theorem merge_write {count : Nat} {left right : State α} (sized : left.Sized count)
    (other : right.Sized count) :
    merge (layout.write right) (layout.write left) = .ok () (layout.write (left.merge right)) := by
  have lengths : left.coefficients.length ≤ right.coefficients.length :=
    Nat.le_of_eq (sized.coefficients.trans other.coefficients.symm)
  have whole : (layout.write left).length = (layout.write right).length := by
    rw [length_write sized, length_write other]
  unfold merge State.merge
  rw [(readsBack sized).read, (readsBack other).view?]
  simp only [if_pos lengths, List.append_nil]
  split
  · rfl
  · split
    · unfold Editing.overwrite
      rw [if_pos (Nat.le_of_eq whole), whole, List.take_length]
    · rfl

theorem distance_write {count : Nat} {state other : State α} (sized : state.Sized count)
    (otherSized : other.Sized count) (family : Family) :
    (optimizer family).distance (layout.write state) (layout.write other) =
      .ok (state.distance other) := by
  change Fista.distance _ _ = _
  unfold Fista.distance
  rw [(readsBack sized).view?, (readsBack otherSized).view?]
  exact if_pos (Nat.le_of_eq (sized.coefficients.trans otherSized.coefficients.symm))

theorem carriedOut (family : Family) (count : Nat) :
    (kernel family : Kernel α (State α)).CarriedOut (optimizer family) layout.write
      (State.Sized count) count where
  begin := by
    intro state sized context
    refine ⟨sized.begin context, ?_⟩
    change begin (layout.write state) context = _
    unfold begin
    rw [(readsBack sized).view?]
    rfl
  transition := by
    intro state sized row fitting
    refine ⟨sized.transition family fitting row.response, ?_⟩
    have enough : row.features.length ≤ state.coefficients.length :=
      Nat.le_of_eq (fitting.trans sized.coefficients.symm)
    exact (readsBack sized).edit (if_pos enough) _
  merge sized other := ⟨sized.merge other, merge_write sized other⟩
  finalize := by
    intro state sized
    refine ⟨sized.finalize, ?_⟩
    change layout.edit (some ∘ State.finalize) finalizeByPlace (layout.write state) = _
    have changes : (some ∘ State.finalize) state = some state.finalize := rfl
    exact (readsBack sized).edit changes _

end ElasticNet.Fista
