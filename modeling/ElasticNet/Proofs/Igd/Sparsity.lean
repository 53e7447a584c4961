import ElasticNet.Proofs.Fista.Steps
import ElasticNet.Proofs.Igd.Dual

namespace ElasticNet

open Exact

theorem sign_cast (s : SignType) : SignType.sign (s : ℝ) = s := by
  cases s with
  | zero => exact sign_zero
  | neg => exact sign_neg neg_one_lt_zero
  | pos => exact sign_one

theorem signCast_injective : Function.Injective (SignType.cast : SignType → ℝ) :=
  Function.LeftInverse.injective sign_cast

/-- The sign of a number that was moved toward zero tells whether it has come past zero. -/
theorem softValue_eq_ite {threshold : ℝ} (nonnegative : 0 ≤ threshold) (x : ℝ) :
    softValue threshold x =
      if SignType.sign x = SignType.sign (x - threshold * SignType.sign x)
      then x - threshold * SignType.sign x else 0 := by
  rcases lt_trichotomy x 0 with negative | rfl | positive
  · have moved : x - threshold * (SignType.sign x : SignType) = x + threshold := by
      rw [sign_neg negative, SignType.coe_neg_one]
      ring
    have above : ¬threshold < x := by linarith
    have past : x < -threshold ↔ -1 = SignType.sign (x + threshold) := by
      rw [eq_comm, sign_eq_neg_one_iff, lt_neg_iff_add_neg]
    rw [moved, sign_neg negative, softValue, if_neg above]
    exact if_congr past rfl rfl
  · rw [sign_zero, SignType.coe_zero, mul_zero, sub_zero, sign_zero, if_pos rfl]
    exact softValue_of_abs_le (by rwa [abs_zero])
  · have moved : x - threshold * (SignType.sign x : SignType) = x - threshold := by
      rw [sign_pos positive, SignType.coe_one, mul_one]
    have below : ¬x < -threshold := by linarith
    have past : threshold < x ↔ 1 = SignType.sign (x - threshold) := by
      rw [eq_comm, sign_eq_one_iff, sub_pos]
    rw [moved, sign_pos positive, softValue, if_neg below]
    exact if_congr past rfl rfl

/-- Two steps that stop at zero take a number as far as one comparison with the threshold does. -/
theorem truncateAtZero_number {threshold : ℝ} (nonnegative : 0 ≤ threshold) (x : ℝ) :
    truncateAtZero (number threshold) (number x) = number (softValue threshold x) := by
  unfold truncateAtZero
  dsimp only
  rw [Igd.sign_number, number_mul, number_sub, Igd.sign_number, number_bne,
    softValue_eq_ite nonnegative, apply_ite number]
  simp only [decide_eq_true_eq, ne_eq, signCast_injective.eq_iff, ite_not]
  rfl

namespace Igd

theorem foldl_powers_undefined (exponent start : Exact) {xs : List Exact}
    (inside : undefined ∈ xs) :
    xs.foldl (fun total x =>
      if x != 0 then total + Scalar.pow (Scalar.abs x) exponent else total) start = undefined := by
  obtain ⟨before, after, rfl⟩ := List.append_of_mem inside
  have shown : (undefined != (0 : Exact)) = true := (bne_iff_ne rfl).mpr nofun
  have lost (x : Exact) : x + undefined = undefined := by cases x <;> rfl
  rw [List.foldl_append, List.foldl_cons, if_pos shown]
  refine List.foldlRecOn (motive := fun total => total = undefined) after _ (lost _) ?_
  rintro total rfl x _
  split
  · rfl
  · rfl

theorem norm_eq_undefined_or {p : ℝ} (positive : 0 < p) (xs : List Exact) :
    norm (number p) xs = undefined ∨
      ∃ size, norm (number p) xs = number size ∧ ∀ r, number r ∈ xs → |r| ≤ size := by
  by_cases finite : Scalar.allFinite xs = true
  · right
    obtain ⟨v, vector⟩ := exists_ofVector finite rfl
    rw [vector]
    refine ⟨powerNorm p v, norm_ofVector positive v, fun r inside => ?_⟩
    obtain ⟨j, entry⟩ := List.mem_ofFn.mp inside
    rw [← number.inj entry]
    exact abs_le_powerNorm v positive j
  · have inside : undefined ∈ xs := by
      by_contra outside
      refine finite (List.all_eq_true.mpr fun x own => ?_)
      cases x with
      | number r => rfl
      | undefined => exact absurd own outside
    left
    unfold norm
    dsimp only
    rw [foldl_powers_undefined _ _ inside]
    rfl

theorem abs_le_tiny (r : ℝ) :
    Scalar.abs (number r) ≤ (Scalar.tiny : Exact) ↔ |r| ≤ 2 ^ (-1074 : ℤ) := Iff.rfl

theorem linkEntry_eq_zero_iff (p : ℝ) {denominator : Exact} (nonzero : denominator ≠ 0) (r : ℝ) :
    linkEntry (number p) denominator (number r) = 0 ↔ |r| ≤ 2 ^ (-1074 : ℤ) := by
  unfold linkEntry
  by_cases small : |r| ≤ 2 ^ (-1074 : ℤ)
  · exact iff_of_true (if_pos small) small
  · refine iff_of_false ?_ small
    have entry : 0 < |r| := tiny_pos.trans (not_le.mp small)
    rw [if_neg ((abs_le_tiny r).not.mpr small), sign_number, abs_number, one_eq, number_sub,
      pow_number_of_pos entry, number_mul]
    cases denominator with
    | undefined => exact nofun
    | number s =>
      have divisor : s ≠ 0 := fun zero => nonzero (congrArg number zero)
      have sign : (SignType.sign r : ℝ) ≠ 0 := by
        intro zero
        rw [← SignType.coe_zero, signCast_injective.eq_iff, sign_eq_zero_iff] at zero
        exact entry.ne' (abs_eq_zero.mpr zero)
      rw [number_div _ divisor, zero_eq, number.injEq]
      exact div_ne_zero (mul_ne_zero sign (Real.rpow_pos_of_pos entry _).ne') divisor

theorem exists_getElem?_link {p : ℝ} (positive : 0 < p) {xs : List Exact} {i : ℕ} {r : ℝ}
    (entry : xs[i]? = some (number r)) :
    ∃ c, (link (number p) xs)[i]? = some c ∧ (c = 0 ↔ |r| ≤ 2 ^ (-1074 : ℤ)) := by
  unfold link
  dsimp only
  -- a norm that is no number is not small, and divides no entry to zero
  rcases norm_eq_undefined_or positive xs with lost | ⟨size, whole, large⟩
  · have shown : ¬Scalar.abs (undefined : Exact) ≤ Scalar.tiny := id
    have denominator : Scalar.pow undefined (number p - 2.0) = undefined := rfl
    rw [lost, if_neg shown, denominator, List.getElem?_map, entry]
    have nonzero : (undefined : Exact) ≠ 0 := nofun
    exact ⟨_, rfl, linkEntry_eq_zero_iff p nonzero r⟩
  · have bound : |r| ≤ size := large r (List.mem_of_getElem? entry)
    have nonnegative : 0 ≤ size := (abs_nonneg r).trans bound
    rw [whole]
    by_cases small : |size| ≤ 2 ^ (-1074 : ℤ)
    · rw [if_pos ((abs_le_tiny size).mpr small), List.getElem?_map, entry]
      rw [abs_of_nonneg nonnegative] at small
      exact ⟨_, rfl, iff_of_true rfl (bound.trans small)⟩
    · rw [if_neg ((abs_le_tiny size).not.mpr small), List.getElem?_map, entry]
      rw [abs_of_nonneg nonnegative] at small
      have positiveSize : 0 < size := tiny_pos.trans (not_le.mp small)
      refine ⟨_, rfl, linkEntry_eq_zero_iff p ?_ r⟩
      rw [two_eq, number_sub, pow_number_of_pos positiveSize, zero_eq, ne_eq, number.injEq]
      exact (Real.rpow_pos_of_pos positiveSize _).ne'

section Step

variable {α : Type} [Scalar α]

def State.descent (state : State α) : α :=
  state.decay.stepSize / Scalar.ofCount (Scalar.toUInt64 state.totalRows)

def State.pull (state : State α) : α :=
  state.decay.stepSize * state.mixing * state.strength
    / Scalar.ofCount (Scalar.toUInt64 state.totalRows)

def State.rowGradient (family : Family) (state : State α) (row : Row α) : List α :=
  state.gradient family
    (family.derivative (state.predictor row.features) (family.label row.response)) row.features

variable (family : Family) (state : State α) (row : Row α)

theorem dual_transition :
    ((kernel family).transition state row).dual =
      List.zipWith (fun θ g => truncateAtZero state.pull (θ - state.descent * g)) state.dual
        (state.rowGradient family row) := rfl

theorem coefficients_transition :
    ((kernel family).transition state row).coefficients =
      link state.exponent ((kernel family).transition state row).dual := rfl

end Step

/-- What becomes of a number that is moved toward zero by a threshold: the same as in a proximal
    step, and the one number that is best by its distance and an absolute penalty. -/
structure ShrunkTo (threshold moved new : ℝ) : Prop where
  soft : softThreshold (number threshold) (number moved) = number new
  proposed : ∀ (state : Fista.State Exact) (stepSize y g : Exact) (j : ℕ),
    state.momentum[j]? = some y → state.gradient[j]? = some g →
    y - stepSize * g = number moved →
    state.strength * state.mixing * stepSize = number threshold →
    (state.propose stepSize).candidate[j]? = some (number new)
  least : ∀ w, w ≠ new →
    penalizedDistance threshold moved new < penalizedDistance threshold moved w
  sameSide : 0 ≤ new * moved
  zero_iff : new = 0 ↔ |moved| ≤ threshold

theorem shrunkTo_softValue {threshold : ℝ} (nonnegative : 0 ≤ threshold) (moved : ℝ) :
    ShrunkTo threshold moved (softValue threshold moved) where
  soft := softThreshold_number threshold moved
  proposed := by
    intro state stepSize y g j momentum gradient stepped weighed
    change (List.zipWith _ state.momentum state.gradient)[j]? = _
    rw [List.getElem?_zipWith, momentum, gradient]
    change some (softThreshold (state.strength * state.mixing * stepSize) (y - stepSize * g)) = _
    rw [stepped, weighed, softThreshold_number]
  least _ other := penalizedDistance_softValue_lt nonnegative other
  sameSide := softValue_mul_nonneg nonnegative moved
  zero_iff := softValue_eq_zero_iff threshold moved

/-- The slots that the optimizer starts with for some features, and what its operations make of
    them, in any order. -/
inductive Attained (family : Family) (d : ℕ) : Slots Exact → Prop
  | initial {context : StepContext Exact} {slots : Slots Exact} (features : context.dimension = d)
    (small : d < UInt32.size) (made : (optimizer family).initial context = .ok slots) :
    Attained family d slots
  | begin {slots after : Slots Exact} (attained : Attained family d slots)
    (context : StepContext Exact)
    (made : (optimizer family).begin (some slots) context = .ok after) : Attained family d after
  | transition {slots after : Slots Exact} (attained : Attained family d slots)
    (row : Row Exact) (fitting : row.features.length = d)
    (made : (optimizer family).transition row.features row.response slots = .ok () after) :
    Attained family d after
  | merge {slots other after : Slots Exact} (attained : Attained family d slots)
    (more : Attained family d other) (made : (optimizer family).merge other slots = .ok () after) :
    Attained family d after
  | finalize {slots after : Slots Exact} (attained : Attained family d slots)
    (made : (optimizer family).finalize slots = .ok () after) : Attained family d after

theorem attained_initialState (family : Family) (context : StepContext Exact)
    (positive : 0 < context.dimension) (small : context.dimension < UInt32.size)
    (means : context.means.length = context.dimension) :
    Attained family context.dimension (layout.write (initialState family context)) := by
  refine .initial rfl small ?_
  unfold optimizer
  dsimp only
  rw [if_pos ⟨positive, means⟩]

theorem Attained.exists_state {family : Family} {d : ℕ} {slots : Slots Exact}
    (attained : Attained family d slots) :
    ∃ state : State Exact, slots = layout.write state ∧ state.Sized d ∧
      state.Linked (exponentFor d) := by
  have carried := carriedOut (α := Exact) family d
  induction attained with
  | initial features small made =>
    exact (Reached.initial features small made).exists_state
  | begin _ context made ih =>
    obtain ⟨state, rfl, sized, linked⟩ := ih
    obtain ⟨kept, begun⟩ := carried.begin sized context
    exact ⟨_, Except.ok.inj (made.symm.trans begun), kept, linked.begin context⟩
  | transition _ row fitting made ih =>
    obtain ⟨state, rfl, sized, linked⟩ := ih
    obtain ⟨kept, taken⟩ := carried.transition sized fitting
    cases made.symm.trans taken
    exact ⟨_, rfl, kept, linked.exponent, linked.dualExponent⟩
  | merge _ _ made ih other =>
    obtain ⟨left, rfl, sized, linked⟩ := ih
    obtain ⟨right, rfl, fits, more⟩ := other
    obtain ⟨kept, merged⟩ := carried.merge sized fits
    cases made.symm.trans merged
    exact ⟨_, rfl, kept, linked.merge more family⟩
  | finalize _ made ih =>
    obtain ⟨state, rfl, sized, linked⟩ := ih
    obtain ⟨kept, finished⟩ := carried.finalize sized
    cases made.symm.trans finished
    exact ⟨_, rfl, kept, linked.finalize family⟩

/-- What a row makes of an entry of the dual vector, given the entry of its gradient: it is moved
    toward zero, one at zero stays there unless its pull along the gradient is stronger than that
    toward zero, and its coefficient is zero where it is. -/
structure EntryStep (before after : State Exact) (θ g : Exact) (i : ℕ) : Prop where
  moves : ∀ threshold moved : ℝ, 0 ≤ threshold → before.pull = number threshold →
    θ - before.descent * g = number moved →
    ∃ new, after.dual[i]? = some (number new) ∧ ShrunkTo threshold moved new
  rests : θ = 0 → Scalar.abs (before.descent * g) ≤ before.pull → after.dual[i]? = some 0
  image : ∀ new : ℝ, after.dual[i]? = some (number new) → 0 < before.exponent →
    (new ≠ 0 → (2 : ℝ) ^ (-1074 : ℤ) < |new|) →
    ∃ c, after.coefficients[i]? = some c ∧ (c = 0 ↔ new = 0)

theorem entryStep_transition (family : Family) {state : State Exact} {row : Row Exact}
    {θ g : Exact} {i : ℕ} (entry : state.dual[i]? = some θ)
    (slope : (state.rowGradient family row)[i]? = some g) :
    EntryStep state ((kernel family).transition state row) θ g i := by
  have stepped : ((kernel family).transition state row).dual[i]? =
      some (truncateAtZero state.pull (θ - state.descent * g)) := by
    rw [dual_transition, List.getElem?_zipWith, entry, slope]
  have moves : ∀ threshold moved : ℝ, 0 ≤ threshold → state.pull = number threshold →
      θ - state.descent * g = number moved →
      ((kernel family).transition state row).dual[i]? =
        some (number (softValue threshold moved)) := by
    intro threshold moved nonnegative pulls along
    rw [stepped, pulls, along, truncateAtZero_number nonnegative]
  refine ⟨fun threshold moved nonnegative pulls along => ?_, fun zero weak => ?_,
    fun new held positive shown => ?_⟩
  · exact ⟨_, moves threshold moved nonnegative pulls along, shrunkTo_softValue nonnegative moved⟩
  · -- both pulls are numbers, since they compare
    obtain ⟨threshold, pulls⟩ := exists_number (isNumber_of_le weak)
    rw [pulls] at weak
    cases along : state.descent * g with
    | undefined =>
      rw [along] at weak
      exact weak.elim
    | number r =>
      rw [along] at weak
      have within : |r| ≤ threshold := weak
      have moved : θ - state.descent * g = number (-r) := by
        rw [zero, along, zero_eq, number_sub, zero_sub]
      rw [moves threshold (-r) ((abs_nonneg r).trans within) pulls moved,
        softValue_of_abs_le (by rwa [abs_neg])]
      rfl
  · obtain ⟨p, above, exponent⟩ := exists_of_pos positive
    obtain ⟨c, image, small⟩ := exists_getElem?_link above held
    rw [coefficients_transition, exponent]
    refine ⟨c, image, small.trans ⟨fun tiny => ?_, fun zero => ?_⟩⟩
    · by_contra nonzero
      exact absurd tiny (not_le.mpr (shown nonzero))
    · rw [zero, abs_zero]
      exact tiny_pos.le

/-- A row moves the entries of the dual vector along its gradient and then, as a proximal step does,
    toward zero: to the one number that is best by its distance and an absolute penalty, which is
    zero where the threshold is not exceeded. A coefficient is zero where its entry is. -/
theorem dual_entries_shrink (family : Family) (d : ℕ) :
    (∀ (state : State Exact) (row : Row Exact), state.Sized d → row.features.length = d →
      ∃ after : State Exact, after.Sized d ∧
        (optimizer family).transition row.features row.response (layout.write state) =
          .ok () (layout.write after) ∧
        ∀ i < d, ∃ θ g : Exact, state.dual[i]? = some θ ∧
          (state.rowGradient family row)[i]? = some g ∧ EntryStep state after θ g i) ∧
    ∀ slots : Slots Exact, Attained family d slots →
      ∃ state : State Exact, slots = layout.write state ∧ state.Sized d ∧ 0 < state.exponent := by
  constructor
  · intro state row sized fitting
    obtain ⟨kept, taken⟩ := (carriedOut (α := Exact) family d).transition sized fitting
    refine ⟨_, kept, taken, fun i inside => ?_⟩
    have entry : i < state.dual.length := by rwa [sized.dual]
    have slope : i < (state.rowGradient family row).length := by
      unfold State.rowGradient
      rwa [sized.length_gradient family _ fitting]
    exact ⟨_, _, List.getElem?_eq_getElem entry, List.getElem?_eq_getElem slope,
      entryStep_transition family (List.getElem?_eq_getElem entry)
        (List.getElem?_eq_getElem slope)⟩
  · intro slots attained
    obtain ⟨state, same, sized, linked⟩ := attained.exists_state
    refine ⟨state, same, sized, ?_⟩
    rw [linked.exponent]
    exact two_pos.trans_le (two_le_exponentFor d)

noncomputable def evenRow : Row Exact :=
  ⟨[number 1, number (1 / 2)], number 2, ""⟩

noncomputable def evenState : State Exact where
  dimension := (2 : ℕ)
  mixing := number (1 / 2)
  threshold := 0
  stepDecay := 0
  exponent := number 2
  dualExponent := number 2
  totalRows := (2 : ℕ)
  means := [0, 0]
  responseMean := 0
  strength := 1
  stepSize := number 2
  coefficients := [1, 0]
  dual := [1, 0]
  intercept := 0
  rows := 0
  logLikelihood := 0
  status := Status.inProcess.slot

theorem sized_evenState : evenState.Sized 2 :=
  ⟨Scalar.KeepsCounts.toUInt32_natCast 2 (by decide), rfl, rfl, rfl⟩

theorem total_evenState : Scalar.ofCount (Scalar.toUInt64 evenState.totalRows) = number 2 :=
  (ofCount_toUInt64 (by decide)).trans (congrArg number Nat.cast_two)

theorem stepSize_evenState : evenState.decay.stepSize = number 2 := by
  change number 2 / Scalar.exp 0 = _
  rw [zero_eq, exp_number, Real.exp_zero, number_div _ one_ne_zero, div_one]

theorem descent_evenState : evenState.descent = number 1 := by
  rw [State.descent, stepSize_evenState, total_evenState, number_div _ two_ne_zero,
    div_self two_ne_zero]

theorem pull_evenState : evenState.pull = number (1 / 2) := by
  change evenState.decay.stepSize * number (1 / 2) * number 1
    / Scalar.ofCount (Scalar.toUInt64 evenState.totalRows) = _
  rw [stepSize_evenState, total_evenState, number_mul, number_mul, number_div _ two_ne_zero]
  norm_num

theorem rowGradient_evenState :
    evenState.rowGradient .gaussian evenRow = [number (-1 / 2), number (-1 / 2)] := by
  have predicted : evenState.predictor evenRow.features = number 1 := by
    change Vector.sparseDot (ofVector ![1, 0]) (ofVector ![1, 1 / 2]) + number 0 = _
    rw [sparseDot_ofVector]
    simp
  have slope : Family.gaussian.derivative (evenState.predictor evenRow.features)
      (Family.gaussian.label evenRow.response) = number (-1) := by
    rw [predicted]
    change number 1 - number 2 = _
    rw [number_sub]
    norm_num
  unfold State.rowGradient
  rw [slope]
  change Vector.sub (Vector.add (Vector.scale (number (-1)) [number 1, number (1 / 2)])
    (Vector.scale ((number 1 - number (1 / 2)) * number 1) [number 1, number 0]))
    (Vector.scale (number (-1)) [number 0, number 0]) = _
  simp only [Vector.sub, Vector.add, Vector.scale, List.map_cons, List.map_nil,
    List.zipWith_cons_cons, List.zipWith_nil_left, number_sub, number_mul, number_add]
  norm_num

theorem pull_reaches_evenState :
    Scalar.abs (evenState.descent * number (-1 / 2)) ≤ evenState.pull := by
  rw [descent_evenState, pull_evenState, number_mul, abs_number, number_le]
  norm_num [abs_of_nonneg]

theorem moved_evenState : (1 : Exact) - evenState.descent * number (-1 / 2) = number (3 / 2) := by
  rw [descent_evenState, one_eq, number_mul, number_sub]
  norm_num

theorem shrunkTo_one {new : ℝ} (shrunk : ShrunkTo (1 / 2) (3 / 2) new) : new = 1 := by
  have soft := shrunk.soft
  rw [softThreshold_number, softValue, if_pos (by norm_num), number.injEq] at soft
  rw [← soft]
  norm_num

theorem aboveTiny_one : (1 : ℝ) ≠ 0 → (2 : ℝ) ^ (-1074 : ℤ) < |1| := by
  intro _
  rw [abs_one]
  exact zpow_lt_one_of_neg₀ one_lt_two (by decide)

theorem dual_entries_shrink_evenRow :
    evenState.Sized 2 ∧ evenRow.features.length = 2 ∧
    (∃ (after : State Exact) (c : Exact),
      (optimizer .gaussian).transition evenRow.features evenRow.response
        (layout.write evenState) = .ok () (layout.write after) ∧
      after.dual[0]? = some (number 1) ∧ after.coefficients[0]? = some c ∧ c ≠ 0 ∧
      after.dual[1]? = some 0 ∧ after.coefficients[1]? = some 0) ∧
    ∃ slots : Slots Exact, Attained .gaussian 2 slots ∧
      ∃ state : State Exact, slots = layout.write state ∧ 0 < state.exponent := by
  obtain ⟨after, -, taken, entries⟩ :=
    (dual_entries_shrink .gaussian 2).1 evenState evenRow sized_evenState rfl
  obtain ⟨moving, g, entry, slope, first⟩ := entries 0 Nat.two_pos
  obtain ⟨resting, g', entry', slope', second⟩ := entries 1 Nat.one_lt_two
  rw [rowGradient_evenState] at slope slope'
  cases entry
  cases entry'
  cases slope
  cases slope'
  have exponent : (0 : Exact) < evenState.exponent := two_pos (α := ℝ)
  have stays := second.rests rfl pull_reaches_evenState
  obtain ⟨c', image', zero⟩ := second.image 0 stays exponent (absurd rfl)
  rw [zero.mpr rfl] at image'
  obtain ⟨new, held, shrunk⟩ := first.moves (1 / 2) (3 / 2) (by norm_num) pull_evenState
    moved_evenState
  rw [shrunkTo_one shrunk] at held
  obtain ⟨c, image, nonzero⟩ := first.image 1 held exponent aboveTiny_one
  refine ⟨sized_evenState, rfl, ⟨after, c, taken, held, image, ?_, stays, image'⟩, ?_⟩
  · exact fun none => one_ne_zero (nonzero.mp none)
  · have begins := attained_initialState .gaussian
      { (StepContext.default : StepContext Exact) with dimension := 2, means := [0, 0] }
      Nat.two_pos (by decide) rfl
    obtain ⟨state, same, -, above⟩ := (dual_entries_shrink .gaussian 2).2 _ begins
    exact ⟨_, begins, state, same, above⟩

end Igd

end ElasticNet
