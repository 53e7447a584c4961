import ElasticNet.Proofs.Exact.Samples
import ElasticNet.Proofs.Exact.Sums
import ElasticNet.Proofs.Igd.Intercept
import ElasticNet.Proofs.Shares

namespace ElasticNet

namespace Igd

open Exact

namespace State

/-- The slots that no pass changes; the others are cleared. -/
noncomputable def settings (state : State Exact) : State Exact :=
  { state with
    stepSize := 0, coefficients := [], dual := [], intercept := 0, rows := 0, logLikelihood := 0,
    status := 0 }

theorem eq_of_settings {state other : State Exact} (settings : state.settings = other.settings)
    (stepSize : state.stepSize = other.stepSize)
    (coefficients : state.coefficients = other.coefficients) (dual : state.dual = other.dual)
    (intercept : state.intercept = other.intercept) (rows : state.rows = other.rows)
    (logLikelihood : state.logLikelihood = other.logLikelihood)
    (status : state.status = other.status) : state = other := by
  cases state
  cases other
  simp only [State.settings, mk.injEq] at *
  simp only [settings, stepSize, coefficients, dual, intercept, rows, logLikelihood, status,
    and_self]

end State

section Reduction

variable (family : Family) (fresh : State Exact)

noncomputable def weightedMean (states : List (State Exact)) (slot : State Exact → Exact) : Exact :=
  Vector.sum (states.map fun state => state.rows * slot state) /
    Vector.sum (states.map State.rows)

/-- What a reduction makes of partial states that started from the same slots. -/
structure Averages (partials : List (State Exact)) (after : State Exact) : Prop where
  coefficients : after.coefficients = (List.range fresh.coefficients.length).map fun j =>
    weightedMean partials fun part => part.coefficients.getD j 0
  intercept : after.intercept =
    if family.centered then
      fresh.responseMean - Vector.sparseDot after.coefficients fresh.means
    else weightedMean partials State.intercept
  rows : after.rows = Vector.sum (partials.map State.rows)
  stepSize : after.stepSize ∈ partials.map State.stepSize
  least : ∀ part ∈ partials, ¬part.stepSize < after.stepSize
  dual : after.dual = link fresh.dualExponent after.coefficients
  logLikelihood : after.logLikelihood =
    -(Vector.sum (partials.map State.logLikelihood) / after.rows +
      fresh.strength * ((1 - fresh.mixing) / 2.0 * Vector.dot after.coefficients after.coefficients
        + fresh.mixing * Vector.sum (after.coefficients.map Scalar.abs)))
  settings : after.settings = fresh.settings
  status : after.status =
    if Scalar.allFinite after.coefficients && Scalar.isFinite after.intercept
      && Scalar.isFinite after.logLikelihood then fresh.status else Status.terminated.slot

variable {family fresh}

theorem weightedMean_perm {states others : List (State Exact)} (perm : states.Perm others)
    (slot : State Exact → Exact) : weightedMean states slot = weightedMean others slot := by
  rw [weightedMean, sum_perm (perm.map _), sum_perm (perm.map State.rows)]
  rfl

theorem Averages.eq_of_perm {partials others : List (State Exact)} {after other : State Exact}
    (averages : Averages family fresh partials after) (perm : partials.Perm others)
    (otherAverages : Averages family fresh others other)
    (alike : ∀ part ∈ partials, ∀ next ∈ partials,
      part.stepSize.isNumber = next.stepSize.isNumber) : after = other := by
  have coefficients : after.coefficients = other.coefficients := by
    rw [averages.coefficients, otherAverages.coefficients]
    exact List.map_congr_left fun j _ => weightedMean_perm perm _
  have intercept : after.intercept = other.intercept := by
    rw [averages.intercept, otherAverages.intercept, coefficients, weightedMean_perm perm]
  have rows : after.rows = other.rows := by
    rw [averages.rows, otherAverages.rows, sum_perm (perm.map _)]
  have logLikelihood : after.logLikelihood = other.logLikelihood := by
    rw [averages.logLikelihood, otherAverages.logLikelihood, coefficients, rows,
      sum_perm (perm.map _)]
  have stepSize : after.stepSize = other.stepSize := by
    obtain ⟨part, inside, size⟩ := List.mem_map.mp averages.stepSize
    obtain ⟨next, later, otherSize⟩ := List.mem_map.mp otherAverages.stepSize
    have member := perm.mem_iff.mpr later
    have above := otherAverages.least part (perm.mem_iff.mp inside)
    have below := averages.least next member
    rw [size] at above
    rw [otherSize] at below
    refine eq_of_not_lt ?_ above below
    rw [← size, ← otherSize]
    exact alike part inside next member
  refine State.eq_of_settings (averages.settings.trans otherAverages.settings.symm) stepSize
    coefficients ?_ intercept rows logLikelihood ?_
  · rw [averages.dual, otherAverages.dual, coefficients]
  · rw [averages.status, otherAverages.status, coefficients, intercept, logLikelihood]

end Reduction

structure State.IsReal (state : State Exact) : Prop where
  coefficients : Scalar.allFinite state.coefficients = true
  intercept : Scalar.isFinite state.intercept = true
  logLikelihood : Scalar.isFinite state.logLikelihood = true

structure State.HasRealSettings (state : State Exact) : Prop where
  means : Scalar.allFinite state.means = true
  responseMean : Scalar.isFinite state.responseMean = true
  strength : Scalar.isFinite state.strength = true
  mixing : Scalar.isFinite state.mixing = true

section Real

variable {family : Family} {fresh after : State Exact} {partials : List (State Exact)} {count : ℕ}

theorem isFinite_weightedMean (counted : Vector.sum (partials.map State.rows) = (count : Exact))
    (some : count ≠ 0) (rows : ∀ part ∈ partials, Scalar.isFinite part.rows = true)
    {slot : State Exact → Exact} (real : ∀ part ∈ partials, Scalar.isFinite (slot part) = true) :
    Scalar.isFinite (weightedMean partials slot) = true := by
  rw [weightedMean, counted]
  apply isFinite_div _ some
  apply isFinite_sum
  intro x inside
  obtain ⟨part, given, rfl⟩ := List.mem_map.mp inside
  exact isFinite_mul (rows part given) (real part given)

theorem Averages.goes_on (averages : Averages family fresh partials after)
    (counted : Vector.sum (partials.map State.rows) = (count : Exact)) (some : count ≠ 0)
    (rows : ∀ part ∈ partials, Scalar.isFinite part.rows = true)
    (real : ∀ part ∈ partials, part.IsReal) (settings : fresh.HasRealSettings) :
    after.status = fresh.status := by
  have entry (j : ℕ) : ∀ part ∈ partials, Scalar.isFinite (part.coefficients.getD j 0) = true := by
    intro part inside
    rw [List.getD_eq_getElem?_getD]
    cases given : part.coefficients[j]? with
    | none => rfl
    | some x =>
      exact List.all_eq_true.mp (real part inside).coefficients x (List.mem_of_getElem? given)
  have coefficients : Scalar.allFinite after.coefficients = true := by
    rw [averages.coefficients, Scalar.allFinite, List.all_map, List.all_eq_true]
    exact fun j _ => isFinite_weightedMean counted some rows (entry j)
  have intercept : Scalar.isFinite after.intercept = true := by
    rw [averages.intercept]
    split
    · obtain ⟨y, mean⟩ := exists_number settings.responseMean
      obtain ⟨dot, product⟩ := exists_number (isFinite_sparseDot coefficients settings.means)
      rw [mean, product]
      rfl
    · exact isFinite_weightedMean counted some rows fun part inside => (real part inside).intercept
  have logLikelihood : Scalar.isFinite after.logLikelihood = true := by
    obtain ⟨w, vector⟩ := exists_ofVector coefficients rfl
    obtain ⟨strength, strengthIs⟩ := exists_number settings.strength
    obtain ⟨mixing, mixingIs⟩ := exists_number settings.mixing
    have losses : Scalar.isFinite (Vector.sum (partials.map State.logLikelihood) / after.rows) =
        true := by
      rw [averages.rows, counted]
      apply isFinite_div _ some
      apply isFinite_sum
      intro x inside
      obtain ⟨part, given, rfl⟩ := List.mem_map.mp inside
      exact (real part given).logLikelihood
    obtain ⟨loss, lossIs⟩ := exists_number losses
    rw [averages.logLikelihood, lossIs, strengthIs, mixingIs, vector, dot_ofVector,
      map_ofVector Scalar.abs abs abs_number, sum_ofVector, two_eq, one_eq, number_sub,
      number_div _ two_ne_zero]
    rfl
  rw [averages.status, coefficients, intercept, logLikelihood]
  rfl

end Real

theorem eq_map_getD {xs : List Exact} {count : ℕ} (sized : xs.length = count) :
    xs = (List.range count).map fun j => xs.getD j 0 := by
  apply List.ext_getElem
  · rw [List.length_map, List.length_range, sized]
  · intro j inside _
    rw [List.getElem_map, List.getElem_range, List.getElem_eq_getD 0]

theorem ofCount_add {left right : ℕ} (small : left + right < UInt64.size) :
    Scalar.ofCount (Scalar.toUInt64 (left : Exact) + Scalar.toUInt64 (right : Exact)) =
      ((left + right : ℕ) : Exact) := by
  have kept {n : ℕ} (few : n ≤ left + right) : (Scalar.toUInt64 (n : Exact)).toNat = n := by
    rw [natCast_eq, toNat_toUInt64]
    omega
  rw [Scalar.ofCount, UInt64.toNat_add, kept (Nat.le_add_right left right),
    kept (Nat.le_add_left right left), Nat.mod_eq_of_lt small]

structure Part (fresh : State Exact) (count : ℕ) (part : State Exact) : Prop where
  rows : part.rows = (count : Exact)
  coefficients : part.coefficients.length = fresh.coefficients.length
  settings : part.settings = fresh.settings

/-- The state that some partial states of so many rows have been merged into. Its dual vector, and
    the intercept of a centered family, are those of the first one. -/
structure Merged (family : Family) (fresh : State Exact) (count : ℕ)
    (partials : List (State Exact)) (left : State Exact) : Prop where
  rows : left.rows = (count : Exact)
  counted : Vector.sum (partials.map State.rows) = (count : Exact)
  coefficients : left.coefficients = (List.range fresh.coefficients.length).map fun j =>
    weightedMean partials fun part => part.coefficients.getD j 0
  intercept : family.centered = false → left.intercept = weightedMean partials State.intercept
  stepSize : left.stepSize ∈ partials.map State.stepSize
  least : ∀ part ∈ partials, ¬part.stepSize < left.stepSize
  logLikelihood : left.logLikelihood = Vector.sum (partials.map State.logLikelihood)
  settings : left.settings = fresh.settings

section Merging

variable {family : Family} {fresh left part : State Exact} {partials : List (State Exact)}
  {count more : ℕ}

theorem average_of_counts (rows : left.rows = (count : Exact)) (next : part.rows = (more : Exact))
    (small : count + more < UInt64.size) :
    left.average family part =
      { left with
        coefficients := Vector.scale ((more : Exact) / (count + more : ℕ))
          (Vector.add (Vector.scale ((count : Exact) / (more : Exact)) left.coefficients)
            part.coefficients)
        intercept :=
          if family.centered then left.intercept
          else (left.intercept * (count : Exact) + part.intercept * (more : Exact)) /
            (count + more : ℕ)
        logLikelihood := left.logLikelihood + part.logLikelihood
        rows := (count + more : ℕ)
        stepSize := if part.stepSize < left.stepSize then part.stepSize else left.stepSize } := by
  unfold State.average
  dsimp only
  rw [rows, next, ofCount_add small, ofCount_toUInt64 (by omega), ofCount_toUInt64 (by omega),
    ← natCast_add]

theorem weightedMean_singleton (rows : part.rows = (count : Exact)) (some : count ≠ 0)
    (slot : State Exact → Exact) : weightedMean [part] slot = slot part := by
  have nonzero : (count : ℝ) ≠ 0 := Nat.cast_ne_zero.mpr some
  rw [weightedMean, List.map_singleton, List.map_singleton, sum_singleton, sum_singleton, rows,
    natCast_eq]
  cases slot part with
  | number r => rw [number_mul, number_div _ nonzero, mul_div_cancel_left₀ _ nonzero]
  | undefined => rfl

theorem Part.merged (taken : Part fresh count part) (some : count ≠ 0) :
    Merged family fresh count [part] part where
  rows := taken.rows
  counted := (sum_singleton _).trans taken.rows
  coefficients := by
    rw [eq_map_getD taken.coefficients]
    exact List.map_congr_left fun j _ => (weightedMean_singleton taken.rows some
      fun part => part.coefficients.getD j 0).symm
  intercept _ := (weightedMean_singleton taken.rows some _).symm
  stepSize := List.mem_singleton_self _
  least := by
    intro other inside
    rw [List.mem_singleton.mp inside]
    exact Exact.lt_irrefl _
  logLikelihood := (sum_singleton _).symm
  settings := taken.settings

theorem Merged.average (merged : Merged family fresh count partials left)
    (taken : Part fresh more part) (some : count ≠ 0) (rest : more ≠ 0)
    (small : count + more < UInt64.size) :
    Merged family fresh (count + more) (partials ++ [part]) (left.average family part) := by
  have counted : Vector.sum ((partials ++ [part]).map State.rows) =
      ((count + more : ℕ) : Exact) := by
    rw [List.map_append, List.map_singleton, sum_append_singleton, merged.counted, taken.rows,
      ← natCast_add]
  have mean (slot : State Exact → Exact) : weightedMean (partials ++ [part]) slot =
      (Vector.sum (partials.map fun part => part.rows * slot part) + (more : Exact) * slot part) /
        ((count + more : ℕ) : Exact) := by
    rw [weightedMean, counted, List.map_append, List.map_singleton, sum_append_singleton,
      taken.rows]
  have before (slot : State Exact → Exact) : weightedMean partials slot =
      Vector.sum (partials.map fun part => part.rows * slot part) / (count : Exact) := by
    rw [weightedMean, merged.counted]
  rw [average_of_counts merged.rows taken.rows small]
  constructor
  case rows => rfl
  case counted => exact counted
  case coefficients =>
    dsimp only
    rw [merged.coefficients, eq_map_getD taken.coefficients, Vector.scale, Vector.scale,
      Vector.add, List.map_map, List.zipWith_map, List.zipWith_self, List.map_map]
    apply List.map_congr_left
    intro j _
    rw [mean]
    dsimp only [Function.comp_apply]
    rw [before, rescaled_add some _ _ rest]
  case intercept =>
    intro apart
    dsimp only
    rw [if_neg (by simp [apart]), merged.intercept apart, before, mean, reweighted_add some]
  case stepSize =>
    dsimp only
    rw [List.map_append, List.mem_append]
    split
    · exact .inr (List.mem_singleton_self _)
    · exact .inl merged.stepSize
  case least =>
    intro other inside
    dsimp only
    rcases List.mem_append.mp inside with earlier | last
    · split
      · next smaller => exact fun below => merged.least other earlier (Exact.lt_trans below smaller)
      · exact merged.least other earlier
    · rw [List.mem_singleton.mp last]
      split
      · exact Exact.lt_irrefl _
      · next larger => exact larger
  case logLikelihood =>
    dsimp only
    rw [merged.logLikelihood, List.map_append, List.map_singleton, sum_append_singleton]
  case settings => exact merged.settings

theorem finalize_of_rows (family : Family) {state : State Exact}
    (some : Scalar.toUInt64 state.rows ≠ 0) :
    let intercept := if family.centered then state.centeredIntercept else state.intercept
    let logLikelihood :=
      -(state.logLikelihood / Scalar.ofCount (Scalar.toUInt64 state.rows) + state.penalty)
    state.finalize family =
      { state with
        intercept
        dual := link state.dualExponent state.coefficients
        logLikelihood
        status :=
          (if Scalar.allFinite state.coefficients && Scalar.isFinite intercept
              && Scalar.isFinite logLikelihood then Status.inProcess
            else Status.terminated).slot } := by
  unfold State.finalize
  rw [if_neg some]
  cases family with
  | gaussian => rfl
  | binomial => rfl

theorem penalty_eq (state : State Exact) : state.penalty =
    state.strength * ((1 - state.mixing) / 2.0 * Vector.dot state.coefficients state.coefficients
      + state.mixing * Vector.sum (state.coefficients.map Scalar.abs)) := by
  have squares : state.coefficients.foldl (fun total c => total + c * c) 0 =
      Vector.dot state.coefficients state.coefficients := by
    rw [Vector.dot, Vector.sum, List.zipWith_self, List.foldl_map]
  have sizes : state.coefficients.foldl (fun total c => total + Scalar.abs c) 0 =
      Vector.sum (state.coefficients.map Scalar.abs) := by
    rw [Vector.sum, List.foldl_map]
  have halved (x y : Exact) : x * y / 2.0 = x / 2.0 * y := by
    rw [two_eq]
    cases x with
    | undefined => rfl
    | number r =>
      cases y with
      | undefined => rw [number_div _ two_ne_zero]; rfl
      | number s =>
        rw [number_mul, number_div _ two_ne_zero, number_div _ two_ne_zero, number_mul,
          mul_div_right_comm]
  unfold State.penalty
  dsimp only
  rw [squares, sizes, halved]

theorem Merged.finalize (merged : Merged family fresh count partials left) (some : count ≠ 0)
    (small : count < UInt64.size) (status : fresh.status = Status.inProcess.slot) :
    Averages family fresh partials (left.finalize family) := by
  have taken : Scalar.toUInt64 left.rows ≠ 0 := by
    rw [merged.rows]
    exact (toUInt64_eq_zero count).not.mpr some
  have exponent : left.dualExponent = fresh.dualExponent :=
    (congrArg State.dualExponent merged.settings :)
  have strength : left.strength = fresh.strength :=
    (congrArg State.strength merged.settings :)
  have mixing : left.mixing = fresh.mixing := (congrArg State.mixing merged.settings :)
  have centered : left.centeredIntercept =
      fresh.responseMean - Vector.sparseDot left.coefficients fresh.means := by
    have means : left.means = fresh.means := (congrArg State.means merged.settings :)
    have response : left.responseMean = fresh.responseMean :=
      (congrArg State.responseMean merged.settings :)
    rw [State.centeredIntercept, means, response]
  rw [finalize_of_rows family taken]
  constructor
  case coefficients => exact merged.coefficients
  case intercept =>
    dsimp only
    by_cases middle : family.centered = true
    · rw [if_pos middle, if_pos middle, centered]
    · rw [if_neg middle, if_neg middle, merged.intercept (Bool.not_eq_true _ ▸ middle)]
  case rows => exact merged.rows.trans merged.counted.symm
  case stepSize => exact merged.stepSize
  case least => exact merged.least
  case dual => exact congrArg (link · left.coefficients) exponent
  case logLikelihood =>
    dsimp only
    rw [merged.rows, ofCount_toUInt64 small, merged.logLikelihood, penalty_eq, strength, mixing]
  case settings => exact merged.settings
  case status =>
    dsimp only
    rw [status, apply_ite Status.slot]

end Merging

section Passes

variable (family : Family) {dimension : ℕ} {state : State Exact} (sized : state.Sized dimension)
  (context : StepContext Exact)

theorem Part.foldRows {rows : List (Row Exact)} {fresh : State Exact}
    (sized : fresh.Sized dimension) (cleared : fresh.rows = 0)
    (fitting : ∀ row ∈ rows, row.features.length = dimension) :
    Part fresh rows.length ((kernel family).foldRows fresh rows) where
  rows := by
    rw [Kernel.read_foldRows State.rows (fun _ _ => rfl), cleared, iterate_add_one]
  coefficients := by
    rw [((carriedOut family dimension).foldRows fitting sized).1.coefficients, sized.coefficients]
  settings := List.foldlRecOn (motive := fun state : State Exact => state.settings = fresh.settings)
    rows _ rfl fun _ kept _ _ => kept

theorem isNumber_stepSize_foldRows (state : State Exact) (rows : List (Row Exact)) :
    ((kernel family).foldRows state rows).stepSize.isNumber =
      (state.stepSize.isNumber && (rows.isEmpty || state.stepDecay.isNumber)) := by
  induction rows generalizing state with
  | nil => exact (Bool.and_true _).symm
  | cons row rest ih =>
    have decayed : ((kernel family).transition state row).stepSize.isNumber =
        (state.stepSize.isNumber && state.stepDecay.isNumber) := by
      change (state.stepSize / Scalar.exp state.stepDecay).isNumber = _
      cases state.stepSize with
      | undefined => rfl
      | number r =>
        cases state.stepDecay with
        | undefined => rfl
        | number d => rw [exp_number, number_div _ (Real.exp_ne_zero d)]; rfl
    refine (ih ((kernel family).transition state row)).trans ?_
    rw [decayed]
    change (state.stepSize.isNumber && state.stepDecay.isNumber &&
      (rest.isEmpty || state.stepDecay.isNumber)) = _
    cases state.stepDecay.isNumber <;> simp

theorem Merged.foldl {family : Family} {fresh left : State Exact} {partials : List (State Exact)}
    {count : ℕ} (merged : Merged family fresh count partials left) (filled : count ≠ 0)
    {lists : List (List (Row Exact))} (rows : ∀ list ∈ lists, list ≠ [])
    (taken : ∀ list ∈ lists, Part fresh list.length ((kernel family).foldRows fresh list))
    (few : count + lists.flatten.length < UInt64.size) :
    Merged family fresh (count + lists.flatten.length)
      (partials ++ lists.map ((kernel family).foldRows fresh))
      ((lists.map ((kernel family).foldRows fresh)).foldl (State.merge family) left) := by
  induction lists generalizing count partials left with
  | nil => simpa using merged
  | cons list rest ih =>
    have part := taken list List.mem_cons_self
    have more : list.length ≠ 0 := mt List.eq_nil_of_length_eq_zero (rows list List.mem_cons_self)
    rw [List.flatten_cons, List.length_append] at few ⊢
    have merge : left.merge family ((kernel family).foldRows fresh list) =
        left.average family ((kernel family).foldRows fresh list) := by
      unfold State.merge
      rw [part.rows, merged.rows, if_neg ((toUInt64_eq_zero _).not.mpr more),
        if_neg ((toUInt64_eq_zero _).not.mpr filled)]
    have rested := ih (merged.average part filled more (by omega)) (by omega)
      (fun other later => rows other (List.mem_cons_of_mem list later))
      (fun other later => taken other (List.mem_cons_of_mem list later)) (by omega)
    rw [List.map_cons, List.foldl_cons, merge, ← Nat.add_assoc, List.append_cons]
    exact rested

include sized

theorem part_partialState {source : Source Exact} (fitting : source.dimension = dimension)
    {list : List (Row Exact)} (inside : list ∈ source.shares) :
    Part (state.begin context) list.length
      ((kernel family).foldRows (state.begin context) list) := by
  apply Part.foldRows family (sized.begin context) rfl
  rw [source.shares_eq_map_occupied] at inside
  obtain ⟨part, given, rfl⟩ := List.mem_map.mp inside
  intro row member
  have uniform := source.uniform part (List.mem_filter.mp given).1
  exact (part.length_complete member).trans (uniform.trans fitting)

theorem merged_gather {source : Source Exact} (fitting : source.dimension = dimension)
    (filled : source.completeCount ≠ 0) (few : source.completeCount < UInt64.size) :
    Merged family (state.begin context) source.completeCount
      (source.shares.map ((kernel family).foldRows (state.begin context)))
      ((kernel family).gather .parallel state context source.partitions) := by
  have rows : ∀ list ∈ source.shares, list ≠ [] := fun _ => ne_nil_of_mem_withoutEmpty
  have taken : ∀ list ∈ source.shares, Part (state.begin context) list.length
      ((kernel family).foldRows (state.begin context) list) :=
    fun _ => part_partialState family sized context fitting
  have neutral := (counts family).neutral state context
  rw [Kernel.gather_parallel neutral]
  rw [source.completeCount_eq] at few filled ⊢
  change Merged family _ _ _
    ((source.shares.map ((kernel family).foldRows (state.begin context))).foldl
      (State.merge family) (state.begin context))
  cases shares : source.shares with
  | nil =>
    rw [shares] at filled
    exact absurd rfl filled
  | cons first rest =>
    rw [shares] at few taken rows
    have start : first ≠ [] := rows first List.mem_cons_self
    have some : first.length ≠ 0 := mt List.eq_nil_of_length_eq_zero start
    have before : State.merge family (state.begin context)
        ((kernel family).foldRows (state.begin context) first) =
        (kernel family).foldRows (state.begin context) first := neutral.before start
    rw [List.flatten_cons, List.length_append] at few ⊢
    rw [List.map_cons, List.foldl_cons, before]
    exact ((taken first List.mem_cons_self).merged some).foldl some
      (fun list later => rows list (List.mem_cons_of_mem first later))
      (fun list later => taken list (List.mem_cons_of_mem first later)) few

theorem averages_pass {source : Source Exact} (fitting : source.dimension = dimension)
    (filled : source.completeCount ≠ 0) (few : source.completeCount < UInt64.size) :
    Averages family (state.begin context)
      (source.shares.map ((kernel family).foldRows (state.begin context)))
      ((kernel family).pass .parallel state context source.partitions) :=
  (merged_gather family sized context fitting filled few).finalize filled few rfl

theorem mapM_partialState {source : Source Exact} (fitting : source.dimension = dimension) :
    source.occupied.mapM (Pass.partialState (optimizer family) (layout.write state) context) =
      .ok ((source.shares.map ((kernel family).foldRows (state.begin context))).map
        layout.write) := by
  rw [source.shares_eq_map_occupied, List.map_map, List.map_map]
  apply Command.mapM_eq_ok
  intro part given
  have uniform := source.uniform part (List.mem_filter.mp given).1
  exact ((carriedOut family dimension).partialState (uniform.trans fitting) sized context).2

/-- A parallel step averages the models of the partitions, weighted by their rows, in whatever order
    the partitions are. -/
theorem parallel_averages {source : Source Exact} (fitting : source.dimension = dimension)
    (filled : source.completeCount ≠ 0) (few : source.completeCount < UInt64.size) :
    ∃ fresh partials after,
      (optimizer family).begin (some (layout.write state)) context = .ok (layout.write fresh) ∧
      source.occupied.mapM (Pass.partialState (optimizer family) (layout.write state) context) =
        .ok (partials.map layout.write) ∧
      partials.map State.rows =
        source.occupied.map (fun part => (part.complete.length : Exact)) ∧
      Averages family fresh partials after ∧
      ((∀ part ∈ partials, part.IsReal) → fresh.HasRealSettings → after.status = fresh.status) ∧
      ∀ other : Source Exact, other.partitions.Perm source.partitions →
        Pass.step ⟨optimizer family, .parallel⟩ (some (layout.write state)) context other =
          .ok (layout.write after) := by
  have rows : (source.shares.map ((kernel family).foldRows (state.begin context))).map State.rows =
      source.shares.map fun list => (list.length : Exact) := by
    rw [List.map_map]
    exact List.map_congr_left fun list inside =>
      (part_partialState family sized context fitting inside).rows
  have alike : ∀ part ∈ source.shares.map ((kernel family).foldRows (state.begin context)),
      ∀ next ∈ source.shares.map ((kernel family).foldRows (state.begin context)),
      part.stepSize.isNumber = next.stepSize.isNumber := by
    intro part inside next later
    obtain ⟨list, given, rfl⟩ := List.mem_map.mp inside
    obtain ⟨more, added, rfl⟩ := List.mem_map.mp later
    rw [isNumber_stepSize_foldRows, isNumber_stepSize_foldRows,
      List.isEmpty_eq_false_iff.mpr (ne_nil_of_mem_withoutEmpty given),
      List.isEmpty_eq_false_iff.mpr (ne_nil_of_mem_withoutEmpty added)]
  have averages := averages_pass family sized context fitting filled few
  refine ⟨_, _, _, ((carriedOut family dimension).begin sized context).2,
    mapM_partialState family sized context fitting, ?_, averages, ?_, ?_⟩
  · rw [rows, source.shares_eq_map_occupied, List.map_map]
    rfl
  · have counted := (merged_gather family sized context fitting filled few).counted
    refine averages.goes_on counted filled ?_
    intro part inside
    have listed := List.mem_map_of_mem (f := State.rows) inside
    rw [rows] at listed
    obtain ⟨list, _, counted⟩ := List.mem_map.mp listed
    rw [← counted]
    rfl
  · intro other perm
    have count : other.completeCount = source.completeCount :=
      ((perm.flatMap_right Partition.rows).filter _).length_eq
    have shares : other.shares.Perm source.shares := (perm.map Partition.complete).filter _
    have otherFitting : other.dimension = dimension := by
      obtain ⟨row, inside⟩ := List.exists_mem_of_length_pos (Nat.pos_of_ne_zero filled)
      have member := (List.mem_filter.mp inside).1
      have otherMember := (perm.flatMap_right Partition.rows).mem_iff.mpr member
      exact (Source.dimension_of_mem member otherMember).trans fitting
    rw [← count] at filled few
    have same := averages.eq_of_perm (shares.symm.map _)
      (averages_pass family sized context otherFitting filled few) alike
    rw [((carriedOut family dimension).step otherFitting sized .parallel context).2, same]

end Passes

noncomputable def splitRows : Source Exact where
  dimension := 1
  partitions := [⟨1, [⟨[5], 2, ""⟩], by simp⟩, ⟨1, [⟨[.undefined], 5, ""⟩], by simp⟩,
    ⟨1, [⟨[3], 5, ""⟩], by simp⟩]
  uniform := by simp

theorem parallel_averages_splitRows :
    oneRow.Sized 1 ∧ splitRows.dimension = 1 ∧ splitRows.completeCount = 2 ∧
    ∃ fresh partials after,
      (optimizer .binomial).begin (some (layout.write oneRow)) .default =
        .ok (layout.write fresh) ∧
      splitRows.occupied.mapM
        (Pass.partialState (optimizer .binomial) (layout.write oneRow) .default) =
          .ok (partials.map layout.write) ∧
      partials.map State.rows =
        splitRows.occupied.map (fun part => (part.complete.length : Exact)) ∧
      Averages .binomial fresh partials after ∧
      ((∀ part ∈ partials, part.IsReal) → fresh.HasRealSettings → after.status = fresh.status) ∧
      ∀ other : Source Exact, other.partitions.Perm splitRows.partitions →
        Pass.step ⟨optimizer .binomial, .parallel⟩ (some (layout.write oneRow)) .default other =
          .ok (layout.write after) := by
  have two : splitRows.completeCount = 2 := rfl
  exact ⟨sized_oneRow, rfl, two, parallel_averages .binomial sized_oneRow .default rfl
    (by rw [two]; decide) (by rw [two]; decide)⟩

end Igd

end ElasticNet
