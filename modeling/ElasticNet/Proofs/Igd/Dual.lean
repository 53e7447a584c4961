import ElasticNet.Proofs.Igd.Mirror
import ElasticNet.Proofs.Reliable

namespace ElasticNet.Igd

open Command Exact

structure State.Linked (p : ℝ) (state : State Exact) : Prop where
  exponent : state.exponent = number p
  dualExponent : state.dualExponent = number (p / (p - 1))

/-- The exponent for a number of features. With one or two of them the logarithm is too small. -/
noncomputable def exponentFor (d : ℕ) : ℝ :=
  max 2 (2 * Real.log d)

theorem two_le_exponentFor (d : ℕ) : 2 ≤ exponentFor d :=
  le_max_left _ _

theorem exponentFor_one : exponentFor 1 = 2 := by
  rw [exponentFor, Nat.cast_one, Real.log_one, mul_zero, max_eq_left zero_le_two]

theorem dual_of_two_le {p : ℝ} (large : 2 ≤ p) : p.HolderConjugate (p / (p - 1)) :=
  Real.HolderConjugate.conjExponent (one_lt_two.trans_le large)

theorem linked_initialState (family : Family) {context : StepContext Exact}
    (positive : 0 < context.dimension) :
    (initialState family context).Linked (exponentFor context.dimension) := by
  have exponent : (initialState family context).exponent =
      number (exponentFor context.dimension) := by
    change Scalar.max 2.0 (2.0 * Scalar.log (context.dimension : Exact)) = _
    rw [two_eq, natCast_eq, log_number (Nat.cast_pos.mpr positive), number_mul, max_number,
      exponentFor]
  refine ⟨exponent, ?_⟩
  change (initialState family context).exponent / ((initialState family context).exponent - 1) = _
  have dual := dual_of_two_le (two_le_exponentFor context.dimension)
  rw [exponent, one_eq, number_sub, number_div _ dual.sub_one_ne_zero]

namespace State.Linked

variable {p : ℝ} {state : State Exact} (linked : state.Linked p)
include linked

theorem begin (context : StepContext Exact) : (state.begin context).Linked p := by
  unfold State.begin
  dsimp only
  split
  · exact ⟨linked.exponent, linked.dualExponent⟩
  · exact ⟨linked.exponent, linked.dualExponent⟩

theorem finalize (family : Family) : (state.finalize family).Linked p := by
  unfold State.finalize
  dsimp only
  split
  · exact ⟨linked.exponent, linked.dualExponent⟩
  · cases family with
    | gaussian => exact ⟨linked.exponent, linked.dualExponent⟩
    | binomial => exact ⟨linked.exponent, linked.dualExponent⟩

theorem merge {other : State Exact} (right : other.Linked p) (family : Family) :
    (state.merge family other).Linked p := by
  unfold State.merge
  split
  · exact linked
  · split
    · exact right
    · exact ⟨linked.exponent, linked.dualExponent⟩

theorem gather (family : Family) (mode : PassMode) (context : StepContext Exact)
    (partitions : List (Partition Exact)) :
    ((kernel family).gather mode state context partitions).Linked p :=
  (kernel family).gather_induction (State.Linked p) (linked.begin context)
    (fun _ _ before => ⟨before.exponent, before.dualExponent⟩)
    (fun _ _ left right => left.merge right family) mode partitions

end State.Linked

/-- The slots that the optimizer starts with for some features, and what passes make of them. -/
inductive Reached (family : Family) (d : ℕ) : Slots Exact → Prop
  | initial {context : StepContext Exact} {slots : Slots Exact} (features : context.dimension = d)
    (small : d < UInt32.size) (made : (optimizer family).initial context = .ok slots) :
    Reached family d slots
  | pass {slots after : Slots Exact} (reached : Reached family d slots) (mode : PassMode)
    (context : StepContext Exact) {source : Source Exact} (fitting : source.dimension = d)
    (stepped : Pass.step ⟨optimizer family, mode⟩ (some slots) context source = .ok after) :
    Reached family d after

theorem Reached.exists_state {family : Family} {d : ℕ} {slots : Slots Exact}
    (reached : Reached family d slots) :
    ∃ state : State Exact, slots = layout.write state ∧ state.Sized d ∧
      state.Linked (exponentFor d) := by
  induction reached with
  | @initial context slots features small made =>
    subst features
    unfold optimizer at made
    dsimp only at made
    split at made
    · next shape =>
      exact ⟨_, (Except.ok.inj made).symm, sized_initialState family small shape.2,
        linked_initialState family shape.1⟩
    · cases made
  | pass _ mode context fitting stepped ih =>
    obtain ⟨state, rfl, sized, linked⟩ := ih
    obtain ⟨kept, made⟩ := (carriedOut family d).step fitting sized mode context
    exact ⟨_, Except.ok.inj (stepped.symm.trans made), kept,
      (linked.gather family mode context _).finalize family⟩

theorem dual_finalize_of_none (family : Family) {state : State Exact}
    (none : Scalar.toUInt64 state.rows = 0) : (state.finalize family).dual = state.dual := by
  unfold State.finalize
  rw [if_pos none]

theorem dual_finalize_of_some (family : Family) {state : State Exact}
    (some : Scalar.toUInt64 state.rows ≠ 0) :
    (state.finalize family).dual = link state.dualExponent state.coefficients := by
  unfold State.finalize
  rw [if_neg some]
  cases family with
  | gaussian => rfl
  | binomial => rfl

theorem coefficients_foldRows (family : Family) (fresh : State Exact) {rows : List (Row Exact)}
    (some : rows ≠ []) :
    ((kernel family).foldRows fresh rows).coefficients =
      link ((kernel family).foldRows fresh rows).exponent
        ((kernel family).foldRows fresh rows).dual := by
  obtain ⟨before, last, rfl⟩ := List.eq_nil_or_concat rows |>.resolve_left some
  unfold Kernel.foldRows
  rw [List.concat_eq_append, List.foldl_append]
  rfl

theorem dual_finalize_foldRows (family : Family) {fresh : State Exact} {p : ℝ} (large : 2 ≤ p)
    (cleared : fresh.rows = 0) (rows : List (Row Exact))
    (linked : ((kernel family).foldRows fresh rows).Linked p) {d : ℕ} {θ : Fin d → ℝ}
    (dual : ((kernel family).foldRows fresh rows).dual = ofVector θ) (shown : AboveTiny θ)
    (imageShown : AboveTiny (mirror p θ)) :
    (((kernel family).foldRows fresh rows).finalize family).dual =
      ((kernel family).foldRows fresh rows).dual := by
  by_cases none : Scalar.toUInt64 ((kernel family).foldRows fresh rows).rows = 0
  · exact dual_finalize_of_none family none
  have some : rows ≠ [] := by
    rintro rfl
    refine none ?_
    change Scalar.toUInt64 fresh.rows = 0
    rw [cleared]
    exact Scalar.toUInt64_zero
  have conjugate := dual_of_two_le large
  rw [dual_finalize_of_some family none, coefficients_foldRows family fresh some, linked.exponent,
    linked.dualExponent, dual, link_ofVector conjugate.pos shown,
    link_ofVector conjugate.symm.pos imageShown, mirror_mirror conjugate]

/-- The link of the dual exponent inverts the link. So where rows are folded into one state, the end
    of the pass leaves the dual vector as the last row has left it. -/
theorem dual_link_inverts (d : ℕ) :
    (∀ (p : ℝ) (θ : Fin d → ℝ), 2 ≤ p → AboveTiny θ →
      ∃ w : Fin d → ℝ, link (number p) (ofVector θ) = ofVector w ∧
        (∀ j, SignType.sign (w j) = SignType.sign (θ j)) ∧
        norm (number (p / (p - 1))) (ofVector w) = norm (number p) (ofVector θ) ∧
        (AboveTiny w → link (number (p / (p - 1))) (ofVector w) = ofVector θ)) ∧
    ∀ (family : Family) (slots : Slots Exact), Reached family d slots →
      ∀ (context : StepContext Exact) (source : Source Exact), source.dimension = d →
        ∃ fresh last after : State Exact,
          (optimizer family).begin (some slots) context = .ok (layout.write fresh) ∧
          Pass.foldPartitions (optimizer family) source.partitions (layout.write fresh) =
            .ok () (layout.write last) ∧
          (optimizer family).finalize (layout.write last) = .ok () (layout.write after) ∧
          Pass.step ⟨optimizer family, .single⟩ (some slots) context source =
            .ok (layout.write after) ∧
          last.Sized d ∧ after.Sized d ∧ last.Linked (exponentFor d) ∧
          ∀ θ w : Fin d → ℝ, last.dual = ofVector θ → link last.exponent last.dual = ofVector w →
            AboveTiny θ → AboveTiny w → after.dual = last.dual := by
  constructor
  · intro p θ large shown
    have conjugate := dual_of_two_le large
    refine ⟨mirror p θ, link_ofVector conjugate.pos shown, fun j => ?_, ?_, fun imageShown => ?_⟩
    · by_cases none : θ = 0
      · rw [none, mirror_zero]
      · exact sign_mirror (powerNorm_pos conjugate.pos none) j
    · rw [norm_ofVector conjugate.symm.pos, norm_ofVector conjugate.pos, powerNorm_mirror conjugate]
    · rw [link_ofVector conjugate.symm.pos imageShown, mirror_mirror conjugate]
  · intro family slots reached context source fitting
    obtain ⟨state, rfl, sized, linked⟩ := reached.exists_state
    have carried := carriedOut (α := Exact) family d
    obtain ⟨fresh, begun⟩ := carried.begin sized context
    have uniform : ∀ part ∈ source.partitions, part.dimension = d :=
      fun part inside => (source.uniform part inside).trans fitting
    obtain ⟨gathered, folded⟩ := carried.foldPartitions uniform fresh
    obtain ⟨ended, finalized⟩ := carried.finalize gathered
    have kept : State.Linked (exponentFor d) ((kernel family).foldRows
        ((kernel family).begin state context) (source.partitions.flatMap Partition.complete)) :=
      linked.gather family .single context source.partitions
    refine ⟨_, _, _, begun, folded, finalized, (carried.step fitting sized .single context).2,
      gathered, ended, kept, ?_⟩
    intro θ w dual image shown imageShown
    have conjugate := dual_of_two_le (two_le_exponentFor d)
    rw [kept.exponent] at image
    rw [dual, link_ofVector conjugate.pos shown] at image
    obtain rfl := ofVector_injective image
    exact dual_finalize_foldRows family (two_le_exponentFor d) rfl _ kept dual shown imageShown

theorem le_mirror_ones {p : ℝ} (large : 2 ≤ p) {d : ℕ} (positive : 0 < d) (j : Fin d) :
    1 / (d : ℝ) ≤ mirror p (1 : Fin d → ℝ) j := by
  have nonnegative : (0 : ℝ) ≤ d := Nat.cast_nonneg d
  have size : powerNorm p (1 : Fin d → ℝ) = (d : ℝ) ^ (1 / p) := by
    unfold powerNorm
    simp
  have exponent : -1 ≤ -(1 / p) * (p - 2) := by
    have share : 1 / p * p = 1 := one_div_mul_cancel (two_pos.trans_le large).ne'
    have rest : 0 ≤ 1 / p := one_div_nonneg.mpr (zero_le_two.trans large)
    linarith
  calc 1 / (d : ℝ) = (d : ℝ) ^ (-1 : ℝ) := by rw [Real.rpow_neg_one, one_div]
    _ ≤ (d : ℝ) ^ (-(1 / p) * (p - 2)) :=
        Real.rpow_le_rpow_of_exponent_le (Nat.one_le_cast.mpr positive) exponent
    _ = (1 / (d : ℝ) ^ (1 / p)) ^ (p - 2) := by
        rw [Real.rpow_mul nonnegative, Real.rpow_neg nonnegative, ← one_div ((d : ℝ) ^ (1 / p))]
    _ = mirror p (1 : Fin d → ℝ) j := by
        rw [mirror, size, Pi.one_apply, abs_one, one_mul]

theorem aboveTiny_of_third_le {d : ℕ} {v : Fin d → ℝ} (large : ∀ j, 1 / 3 ≤ v j) :
    AboveTiny v := by
  intro j _
  have tiny : (2 : ℝ) ^ (-1074 : ℤ) < 2 ^ (-2 : ℤ) := zpow_lt_zpow_right₀ one_lt_two (by decide)
  calc (2 : ℝ) ^ (-1074 : ℤ) < 2 ^ (-2 : ℤ) := tiny
    _ ≤ 1 / 3 := by norm_num
    _ ≤ |v j| := (large j).trans (le_abs_self _)

noncomputable def onesRow (d : ℕ) : Row Exact :=
  ⟨ofVector (1 : Fin d → ℝ), number 1, ""⟩

noncomputable def onesSource (d : ℕ) : Source Exact where
  dimension := d
  partitions := [⟨d, [onesRow d], by simp [onesRow]⟩]
  uniform := by simp

noncomputable def onesContext (d : ℕ) (decay strength : ℝ) : StepContext Exact :=
  { StepContext.default with
    strength := number strength
    mixing := number 0
    dimension := d
    totalRows := 1
    means := ofVector (0 : Fin d → ℝ)
    responseMean := number 0
    stepSize := number 1
    stepDecay := number decay }

theorem complete_onesSource (d : ℕ) :
    (onesSource d).partitions.flatMap Partition.complete = [onesRow d] := by
  have complete : (onesRow d).isComplete = true := by
    change (Scalar.allFinite (ofVector (1 : Fin d → ℝ)) && true) = true
    rw [allFinite_ofVector, Bool.true_and]
  change [onesRow d].filter Row.isComplete ++ [] = _
  rw [List.filter_singleton, complete]
  rfl

theorem truncateAtZero_zero (r : ℝ) : truncateAtZero (number 0) (number r) = number r := by
  unfold truncateAtZero
  dsimp only
  rw [sign_number, number_mul, number_sub, zero_mul, sub_zero, sign_number, number_bne]
  simp

section Ones

variable {d : ℕ} (positive : 0 < d) (decay strength : ℝ)

theorem begin_initialState_ones : (initialState .gaussian (onesContext d decay strength)).begin
    (onesContext d decay strength) = initialState .gaussian (onesContext d decay strength) := by
  have same : ¬(number strength != number strength) = true :=
    fun unequal => (Exact.bne_iff_ne (isFinite_number strength)).mp unequal rfl
  exact congrArg (fun state : State Exact =>
    { state with rows := 0, logLikelihood := 0, status := Status.inProcess.slot }) (if_neg same)

include positive

theorem coefficients_initialState_ones :
    (initialState .gaussian (onesContext d decay strength)).coefficients =
      ofVector (0 : Fin d → ℝ) := by
  have linked : (initialState .gaussian (onesContext d decay strength)).Linked (exponentFor d) :=
    @linked_initialState .gaussian (onesContext d decay strength) positive
  have conjugate := dual_of_two_le (two_le_exponentFor d)
  change link (initialState .gaussian (onesContext d decay strength)).exponent (Vector.zeros d) = _
  rw [linked.exponent, zeros_eq]
  exact (link_ofVector conjugate.pos fun _ nonzero => absurd rfl nonzero).trans
    (congrArg ofVector mirror_zero)

theorem dual_transition_ones :
    ((initialState .gaussian (onesContext d decay strength)).transition .gaussian
      (onesRow d).features (onesRow d).response).dual = ofVector (1 : Fin d → ℝ) := by
  let start := initialState .gaussian (onesContext d decay strength)
  have coefficients : start.decay.coefficients = ofVector (0 : Fin d → ℝ) :=
    coefficients_initialState_ones positive decay strength
  have stepSize : start.decay.stepSize = number 1 := by
    change number 1 * Scalar.exp (number decay) / Scalar.exp (number decay) = _
    rw [exp_number, number_mul, number_div _ (Real.exp_ne_zero decay), one_mul,
      div_self (Real.exp_ne_zero decay)]
  have total : Scalar.ofCount (Scalar.toUInt64 start.decay.totalRows) = number 1 :=
    (ofCount_toUInt64 (by decide : 1 < UInt64.size)).trans (congrArg number Nat.cast_one)
  have slope : Family.gaussian.derivative (start.decay.predictor (onesRow d).features)
      (Family.gaussian.label (onesRow d).response) = number (-1) := by
    change Vector.sparseDot start.decay.coefficients (ofVector 1) + number 0 - number 1 = _
    rw [coefficients, sparseDot_ofVector, zero_dotProduct, number_add, number_sub]
    norm_num
  have gradient : start.decay.gradient .gaussian (number (-1)) (onesRow d).features =
      ofVector (-1 : Fin d → ℝ) := by
    change Vector.sub (Vector.add (Vector.scale (number (-1)) (ofVector 1))
      (Vector.scale ((1 - number 0) * number strength) start.decay.coefficients))
      (Vector.scale (number (-1)) (ofVector 0)) = _
    have scaled (c : ℝ) (v : Fin d → ℝ) : Vector.scale (number c) (ofVector v) = ofVector (c • v) :=
      map_ofVector _ _ (fun r => number_mul c r) v
    rw [coefficients, one_eq, number_sub, number_mul, scaled, scaled, scaled, add_ofVector,
      sub_ofVector]
    congr 1
    simp
  change List.zipWith (fun t g => truncateAtZero
      (start.decay.stepSize * number 0 * number strength /
        Scalar.ofCount (Scalar.toUInt64 start.decay.totalRows))
      (t - start.decay.stepSize / Scalar.ofCount (Scalar.toUInt64 start.decay.totalRows) * g))
    (Vector.zeros d) (start.decay.gradient .gaussian
      (Family.gaussian.derivative (start.decay.predictor (onesRow d).features)
        (Family.gaussian.label (onesRow d).response)) (onesRow d).features) = _
  rw [slope, gradient, stepSize, total, zeros_eq, number_mul, number_mul, mul_zero, zero_mul,
    number_div _ one_ne_zero, zero_div, number_div _ one_ne_zero, div_one]
  refine (zipWith_ofVector _ _ (g := fun t g => t - 1 * g) fun t g => ?_).trans ?_
  · rw [number_mul, number_sub, truncateAtZero_zero]
  · congr 1
    funext j
    simp

variable (small : d < UInt32.size)
include small

theorem reached_ones : Reached .gaussian d
    (layout.write (initialState .gaussian (onesContext d decay strength))) := by
  have made : (optimizer .gaussian).initial (onesContext d decay strength) =
      .ok (layout.write (initialState .gaussian (onesContext d decay strength))) :=
    if_pos ⟨positive, length_ofVector 0⟩
  exact .initial rfl small made

omit positive in
theorem sized_ones : (initialState .gaussian (onesContext d decay strength)).Sized d := by
  have fitting : (onesContext d decay strength).dimension < UInt32.size := small
  exact sized_initialState .gaussian fitting (length_ofVector 0)

theorem dual_foldPartitions_ones {fresh last : State Exact} (sized : last.Sized d)
    (begun : (optimizer .gaussian).begin
      (some (layout.write (initialState .gaussian (onesContext d decay strength))))
      (onesContext d decay strength) = .ok (layout.write fresh))
    (folded : Pass.foldPartitions (optimizer .gaussian) (onesSource d).partitions
      (layout.write fresh) = .ok () (layout.write last)) :
    last.dual = ofVector (1 : Fin d → ℝ) := by
  have carried := carriedOut (α := Exact) .gaussian d
  have starts := carried.begin (sized_ones decay strength small) (onesContext d decay strength)
  have same := starts.2
  rw [begun] at same
  have uniform : ∀ part ∈ (onesSource d).partitions, part.dimension = d := by
    simp [onesSource]
  have passes := carried.foldPartitions uniform starts.1
  rw [complete_onesSource, ← Except.ok.inj same, folded] at passes
  obtain ⟨kept, ended⟩ := passes
  cases (readsBack sized).eq_of_write (readsBack kept) (EStateM.Result.ok.inj ended).2
  change ((((initialState .gaussian (onesContext d decay strength)).begin
    (onesContext d decay strength))).transition .gaussian _ _).dual = _
  rw [begin_initialState_ones]
  exact dual_transition_ones positive decay strength

end Ones

theorem dual_link_inverts_ones :
    (AboveTiny (1 : Fin 3 → ℝ) ∧ ∃ w : Fin 3 → ℝ,
      link (number 3) (ofVector (1 : Fin 3 → ℝ)) = ofVector w ∧ AboveTiny w ∧
      link (number (3 / (3 - 1))) (ofVector w) = ofVector (1 : Fin 3 → ℝ)) ∧
    ∃ fresh last after : State Exact,
      (optimizer .gaussian).begin
          (some (layout.write (initialState .gaussian (onesContext 3 0 0)))) (onesContext 3 0 0) =
        .ok (layout.write fresh) ∧
      Pass.foldPartitions (optimizer .gaussian) (onesSource 3).partitions (layout.write fresh) =
        .ok () (layout.write last) ∧
      (optimizer .gaussian).finalize (layout.write last) = .ok () (layout.write after) ∧
      last.dual = ofVector (1 : Fin 3 → ℝ) ∧ after.dual = ofVector (1 : Fin 3 → ℝ) := by
  have third (v : Fin 3 → ℝ) (large : ∀ j, 1 / ((3 : ℕ) : ℝ) ≤ v j) : AboveTiny v :=
    aboveTiny_of_third_le fun j => le_of_eq_of_le (by norm_num) (large j)
  have shown : AboveTiny (1 : Fin 3 → ℝ) := third 1 fun _ => by norm_num
  obtain ⟨inverts, passes⟩ := dual_link_inverts 3
  constructor
  · have large : (2 : ℝ) ≤ 3 := by norm_num
    obtain ⟨w, image, _, _, back⟩ := inverts 3 1 large shown
    obtain rfl := ofVector_injective ((link_ofVector three_pos shown).symm.trans image)
    have imageShown := third _ (le_mirror_ones large three_pos)
    exact ⟨shown, _, image, imageShown, back imageShown⟩
  · have small : 3 < UInt32.size := by decide
    obtain ⟨fresh, last, after, begun, folded, ended, _, sized, _, linked, kept⟩ :=
      passes .gaussian _ (reached_ones three_pos 0 0 small) (onesContext 3 0 0) (onesSource 3) rfl
    have large := two_le_exponentFor 3
    have dual := dual_foldPartitions_ones three_pos 0 0 small sized begun folded
    have image : link last.exponent last.dual =
        ofVector (mirror (exponentFor 3) (1 : Fin 3 → ℝ)) := by
      rw [linked.exponent, dual]
      exact link_ofVector (dual_of_two_le large).pos shown
    have imageShown := third _ (le_mirror_ones large three_pos)
    exact ⟨fresh, last, after, begun, folded, ended, dual,
      (kept 1 _ dual image shown imageShown).trans dual⟩

end ElasticNet.Igd
