import ElasticNet.Igd
import ElasticNet.Proofs.Layout
import ElasticNet.Proofs.Pass

namespace ElasticNet.Igd

open Command

variable {α : Type} [Scalar α]

theorem length_link (exponent : α) (xs : List α) : (link exponent xs).length = xs.length := by
  unfold link
  dsimp only
  split
  · exact List.length_map _
  · exact List.length_map _

namespace State

structure Sized (count : Nat) (state : State α) : Prop where
  dimension : (Scalar.toUInt32 state.dimension).toNat = count
  means : state.means.length = count
  coefficients : state.coefficients.length = count
  dual : state.dual.length = count

def merge (family : Family) (left right : State α) : State α :=
  if Scalar.toUInt64 right.rows = 0 then left
  else if Scalar.toUInt64 left.rows = 0 then right
  else left.average family right

end State

theorem readsBack {count : Nat} {state : State α} (sized : state.Sized count) :
    layout.ReadsBack state := by
  intro rest
  obtain ⟨dimension, means, coefficients, dual⟩ := sized
  change readState (writeState state ++ rest) = _
  unfold readState writeState
  simp only [List.append_assoc, List.cons_append, List.nil_append, SlotReader.one_bind, dimension,
    SlotReader.block_bind means, SlotReader.block_bind coefficients, SlotReader.block_bind dual]
  rfl

theorem length_write {count : Nat} {state : State α} (sized : state.Sized count) :
    (layout.write state).length = slotCount count := by
  obtain ⟨dimension, means, coefficients, dual⟩ := sized
  change (writeState state).length = _
  simp only [writeState, List.length_append, List.length_cons, List.length_nil, means, coefficients,
    dual, slotCount]
  omega

theorem statusLast : (layout : Layout α (State α)).StatusLast State.status
    fun state number => { state with status := number } :=
  .of_append (fun _ => rfl) (fun _ => List.cons_ne_nil _ _) (fun _ => rfl) (fun _ _ => rfl)
    fun _ _ => rfl

namespace State.Sized

variable {count : Nat} {state : State α}

theorem begin (sized : state.Sized count) (context : StepContext α) :
    (state.begin context).Sized count := by
  unfold State.begin
  dsimp only
  split
  · exact ⟨sized.dimension, sized.means, sized.coefficients, sized.dual⟩
  · exact ⟨sized.dimension, sized.means, sized.coefficients, sized.dual⟩

theorem length_gradient (sized : state.Sized count) (family : Family) (slope : α)
    {features : List α} (fitting : features.length = count) :
    (state.gradient family slope features).length = count := by
  unfold State.gradient Vector.add Vector.sub Vector.scale
  split
  · rw [List.length_zipWith, List.length_zipWith, List.length_map, List.length_map,
      List.length_map, fitting, sized.coefficients, sized.means, Nat.min_self, Nat.min_self]
  · rw [List.length_zipWith, List.length_map, List.length_map, fitting, sized.coefficients,
      Nat.min_self]

theorem descend (sized : state.Sized count) (family : Family) (slope : α) {features : List α}
    (fitting : features.length = count) : (state.descend family slope features).Sized count := by
  have moved (step : α → α → α) :
      (List.zipWith step state.dual (state.gradient family slope features)).length = count := by
    rw [List.length_zipWith, sized.dual, sized.length_gradient family slope fitting, Nat.min_self]
  exact ⟨sized.dimension, sized.means, (length_link _ _).trans (moved _), moved _⟩

theorem transition (sized : state.Sized count) (family : Family) {features : List α}
    (fitting : features.length = count) (response : α) :
    (state.transition family features response).Sized count := by
  have decayed : state.decay.Sized count :=
    ⟨sized.dimension, sized.means, sized.coefficients, sized.dual⟩
  have moved := decayed.descend family
    (family.derivative (state.decay.predictor features) (family.label response)) fitting
  exact ⟨moved.dimension, moved.means, moved.coefficients, moved.dual⟩

theorem average {left right : State α} (sized : left.Sized count) (other : right.Sized count)
    (family : Family) : (left.average family right).Sized count := by
  refine ⟨sized.dimension, sized.means, ?_, sized.dual⟩
  unfold State.average Vector.scale Vector.add
  rw [List.length_map, List.length_zipWith, List.length_map, sized.coefficients,
    other.coefficients, Nat.min_self]

theorem merge {left right : State α} (sized : left.Sized count) (other : right.Sized count)
    (family : Family) : (left.merge family right).Sized count := by
  unfold State.merge
  split
  · exact sized
  · split
    · exact other
    · exact sized.average other family

theorem finalize (sized : state.Sized count) (family : Family) :
    (state.finalize family).Sized count := by
  have centered : State.Sized count
      (if family.centered then { state with intercept := state.centeredIntercept } else state) := by
    split
    · exact ⟨sized.dimension, sized.means, sized.coefficients, sized.dual⟩
    · exact sized
  unfold State.finalize
  dsimp only
  split
  · exact ⟨sized.dimension, sized.means, sized.coefficients, sized.dual⟩
  · exact ⟨centered.dimension, centered.means, centered.coefficients,
      (length_link _ _).trans centered.coefficients⟩

end State.Sized

def kernel (family : Family) : Kernel α (State α) where
  begin := State.begin
  transition state row := state.transition family row.features row.response
  merge := State.merge family
  finalize := State.finalize family

theorem begin_write {count : Nat} {state : State α} (sized : state.Sized count)
    (context : StepContext α) :
    begin (layout.write state) context = .ok (layout.write (state.begin context)) := by
  unfold begin
  rw [(readsBack sized).view?]
  dsimp only
  rw [if_pos (by rw [length_write sized, sized.dimension])]

theorem merge_write {count : Nat} {left right : State α} (sized : left.Sized count)
    (other : right.Sized count) (family : Family) :
    merge family (layout.write right) (layout.write left) =
      .ok () (layout.write (left.merge family right)) := by
  have lengths : left.coefficients.length ≤ right.coefficients.length :=
    Nat.le_of_eq (sized.coefficients.trans other.coefficients.symm)
  have whole : (layout.write left).length = (layout.write right).length := by
    rw [length_write sized, length_write other]
  unfold merge State.merge
  rw [(readsBack sized).read, (readsBack other).view?]
  simp only [if_pos lengths, if_pos whole, List.append_nil]
  split
  · rfl
  · split
    · rfl
    · rfl

theorem distance_write {count : Nat} {state other : State α} (sized : state.Sized count)
    (otherSized : other.Sized count) (family : Family) :
    (optimizer family).distance (layout.write state) (layout.write other) =
      .ok (Scalar.abs (Scalar.abs state.logLikelihood - Scalar.abs other.logLikelihood)) := by
  change Igd.distance _ _ = _
  unfold Igd.distance
  rw [(readsBack sized).view?, (readsBack otherSized).view?]

theorem carriedOut (family : Family) (count : Nat) :
    (kernel family : Kernel α (State α)).CarriedOut (optimizer family) layout.write
      (State.Sized count) count where
  begin sized context := ⟨sized.begin context, begin_write sized context⟩
  transition := by
    intro state sized row fitting
    refine ⟨sized.transition family fitting row.response, ?_⟩
    have enough : row.features.length ≤ state.coefficients.length :=
      Nat.le_of_eq (fitting.trans sized.coefficients.symm)
    exact (readsBack sized).edit (if_pos enough) _
  merge sized other := ⟨sized.merge other family, merge_write sized other family⟩
  finalize := by
    intro state sized
    refine ⟨sized.finalize family, ?_⟩
    change layout.edit (some ∘ State.finalize family) finalizeByPlace (layout.write state) = _
    have changes : (some ∘ State.finalize family) state = some (state.finalize family) := rfl
    exact (readsBack sized).edit changes _

end ElasticNet.Igd
