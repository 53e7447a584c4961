import ElasticNet.Proofs.Exact
import ElasticNet.Proofs.Params.Errors
import ElasticNet.Proofs.Path.Generated

namespace ElasticNet.Path

open Exact

noncomputable def pointAt (first last : ℝ) (count i : ℕ) : ℝ :=
  first * Real.exp (Real.log (last / first) / (count - 1 : ℕ) * i)

section Points

variable (first last : ℝ) (count : ℕ)

theorem pointAt_zero : pointAt first last count 0 = first := by
  simp [pointAt]

theorem sq_pointAt (i : ℕ) :
    pointAt first last count (i + 1) * pointAt first last count (i + 1) =
      pointAt first last count i * pointAt first last count (i + 2) := by
  unfold pointAt
  generalize Real.log (last / first) / (count - 1 : ℕ) = step
  have product : Real.exp (step * (i + 1 : ℕ)) * Real.exp (step * (i + 1 : ℕ)) =
      Real.exp (step * i) * Real.exp (step * (i + 2 : ℕ)) := by
    rw [← Real.exp_add, ← Real.exp_add]
    congr 1
    push_cast
    ring
  linear_combination first ^ 2 * product

variable {first last count}

theorem pointAt_last (positive : 0 < first) (below : 0 < last) (several : 2 ≤ count) :
    pointAt first last count (count - 1) = last := by
  have nonzero : ((count - 1 : ℕ) : ℝ) ≠ 0 := Nat.cast_ne_zero.mpr (by omega)
  unfold pointAt
  rw [div_mul_cancel₀ _ nonzero, Real.exp_log (div_pos below positive)]
  exact mul_div_cancel₀ last positive.ne'

theorem pointAt_nonneg (positive : 0 < first) (i : ℕ) : 0 ≤ pointAt first last count i :=
  mul_nonneg positive.le (Real.exp_pos _).le

theorem pointAt_antitone (positive : 0 < first) (below : 0 < last) (falls : last ≤ first) :
    Antitone (pointAt first last count) := by
  intro i j further
  have ratio : last / first ≤ 1 := (div_le_one positive).mpr falls
  have step : Real.log (last / first) / (count - 1 : ℕ) ≤ 0 :=
    div_nonpos_of_nonpos_of_nonneg
      (Real.log_nonpos (div_pos below positive).le ratio) (Nat.cast_nonneg _)
  apply mul_le_mul_of_nonneg_left _ positive.le
  apply Real.exp_le_exp.mpr
  exact mul_le_mul_of_nonpos_left (Nat.cast_le.mpr further) step

theorem geometric_number (positive : 0 < first) (below : 0 < last) (several : 1 ≤ count) :
    geometric (number first) (number last) count =
      (List.range count).map fun i => number (pointAt first last count i) := by
  by_cases single : count ≤ 1
  · obtain rfl : count = 1 := by omega
    simp [geometric, pointAt_zero]
  · obtain ⟨inner, rfl⟩ : ∃ inner, count = inner + 2 := ⟨count - 2, by omega⟩
    have ratio : Scalar.log (number last / number first) / ((inner + 1 : ℕ) : Exact) =
        number (Real.log (last / first) / (inner + 1 : ℕ)) := by
      rw [number_div _ positive.ne', log_number (div_pos below positive), natCast_eq,
        number_div _ (Nat.cast_ne_zero.mpr (by omega))]
    have ends : pointAt first last (inner + 2) (inner + 1) = last :=
      pointAt_last positive below (by omega)
    unfold geometric
    rw [if_neg single, List.range_succ, List.range_succ_eq_map, List.map_append, List.map_cons,
      List.map_map, List.map_singleton, pointAt_zero, ends]
    refine congrArg (fun middle => number first :: middle ++ [number last]) ?_
    apply List.map_congr_left
    intro i _
    change number first *
      Scalar.exp (Scalar.log (number last / number first) / ((inner + 1 : ℕ) : Exact) * _) = _
    rw [ratio, natCast_eq, number_mul, exp_number, number_mul]
    rfl

theorem proper_geometric (positive : 0 < first) (below : 0 < last) (falls : last ≤ first)
    (several : 1 ≤ count) : Proper (geometric (number first) (number last) count) := by
  rw [geometric_number positive below several]
  constructor
  · intro strength inside
    obtain ⟨i, _, rfl⟩ := List.mem_map.mp inside
    exact ⟨rfl, not_lt.mpr (pointAt_nonneg positive i)⟩
  · refine (List.pairwise_lt_range.map _ fun i j lower => ?_).isChain
    exact not_lt.mpr (pointAt_antitone positive below falls lower.le)

end Points

def EqualRatios {α : Type} [Scalar α] (strengths : List α) : Prop :=
  ∀ (i : ℕ) (inside : i + 2 < strengths.length),
    strengths[i + 1] * strengths[i + 1] = strengths[i] * strengths[i + 2]

theorem equalRatios_of_length {α : Type} [Scalar α] {strengths : List α}
    (few : strengths.length ≤ 2) : EqualRatios strengths := by
  intro i inside
  omega

theorem equalRatios_geometric {first last : ℝ} (positive : 0 < first) (below : 0 < last)
    (count : ℕ) : EqualRatios (geometric (number first) (number last) count) := by
  by_cases several : 1 ≤ count
  · rw [geometric_number positive below several]
    intro i inside
    simp only [List.getElem_map, List.getElem_range, number_mul]
    exact congrArg number (sq_pointAt first last count i)
  · apply equalRatios_of_length
    unfold geometric
    rw [if_pos (by omega)]
    exact Nat.le_succ 1

theorem negligible_eq : (negligible : Exact) = number (1 / 10 ^ 6) := by
  unfold negligible
  rw [ofScientific_eq]
  norm_num

theorem number_mul_lowestShare (l : ℝ) : number l * lowestShare = number (l / 1000) := by
  have share : (lowestShare : Exact) = number (1 / 1000) := by
    unfold lowestShare
    rw [ofScientific_eq]
    norm_num
  rw [share, number_mul, mul_one_div]

/-- The strengths with equal ratios: all, except for a negligible target behind them. -/
def geometricPart {α : Type} [Scalar α] (target : α) (path : Path α) : List α :=
  if target < negligible then path.strengths.dropLast else path.strengths

theorem geometricPart_of_alone {α : Type} [Scalar α] {largest target : α} {count : ℕ}
    {path : Path α} (kept : path.strengths = requested largest target count)
    (alone : Alone largest target count) : (geometricPart target path).length ≤ 1 := by
  have single : path.strengths = [target] := kept.trans (if_pos alone)
  unfold geometricPart
  rw [single]
  split
  · exact Nat.zero_le 1
  · exact le_refl 1

theorem geometricPart_of_spread {α : Type} [Scalar α] {largest target : α} {count : ℕ}
    {path : Path α} (kept : path.strengths = requested largest target count)
    (spread : ¬ Alone largest target count) :
    geometricPart target path =
      if target < negligible then geometric largest (largest * lowestShare) (count - 1)
      else geometric largest target count := by
  unfold geometricPart
  rw [kept, requested, if_neg spread]
  split
  · exact List.dropLast_concat
  · rfl

theorem numbers_of_spread {largest target : Exact} {count : ℕ}
    (spread : ¬ Alone largest target count) (valid : Scalar.isFinite target = true ∧ ¬ target < 0) :
    ∃ l t : ℝ, largest = number l ∧ target = number t ∧ 0 ≤ t ∧ t < l := by
  have finite : Scalar.isFinite largest = true := by
    by_contra infinite
    exact spread (.inl (by simpa using infinite))
  obtain ⟨l, rfl⟩ := exists_number finite
  obtain ⟨t, rfl⟩ := exists_number valid.1
  refine ⟨l, t, rfl, rfl, not_lt.mp fun negative => valid.2 negative, not_le.mp fun above => ?_⟩
  exact spread (.inr (.inl above))

theorem equalRatios_of_generate {largest target : Exact} {count : ℕ} {path : Path Exact}
    (made : generate largest target count = .ok path) :
    EqualRatios (geometricPart target path) ∧
      (target < negligible → 2 ≤ (geometricPart target path).length →
        (geometricPart target path).getLast? = some (largest / (1000 : ℕ))) := by
  obtain ⟨positive, kept, proper⟩ := generate_eq_ok_iff.mp made
  by_cases alone : Alone largest target count
  · have few := geometricPart_of_alone kept alone
    exact ⟨equalRatios_of_length (few.trans (Nat.le_succ 1)), fun _ several => by omega⟩
  · have inside : target ∈ requested largest target count :=
      List.mem_of_getLast? (getLast?_requested alone positive)
    obtain ⟨l, t, rfl, rfl, nonnegative, above⟩ :=
      numbers_of_spread alone (proper.valid target inside)
    have large : 0 < l := nonnegative.trans_lt above
    rw [geometricPart_of_spread kept alone]
    by_cases small : number t < negligible
    · rw [if_pos small, number_mul_lowestShare]
      refine ⟨equalRatios_geometric large (by positivity) _, fun _ several => ?_⟩
      have more : 2 ≤ count - 1 := by
        rwa [length_geometric _ _ (Nat.le_sub_one_of_lt (two_le_of_spread alone positive))]
          at several
      rw [getLast?_geometric _ _ more, natCast_eq, number_div _ (by norm_num)]
      norm_num
    · rw [if_neg small]
      have low : 0 < t := by
        rw [negligible_eq, number_lt, not_lt] at small
        exact lt_of_lt_of_le (by positivity) small
      exact ⟨equalRatios_geometric large low _, fun given => absurd given small⟩

/-- What a request is answered with, or refused for. The last part is about exact arithmetic: in
    doubles the points are rounded. -/
theorem generate_shape :
    (∀ (largest target : Float) (count : ℕ),
      (∀ path, generate largest target count = .ok path → Shaped largest target count path) ∧
        RaisesOnly [.parameter] (generate largest target count)) ∧
    ∀ (largest target : Exact) (count : ℕ),
      (∀ path, generate largest target count = .ok path →
        Shaped largest target count path ∧ EqualRatios (geometricPart target path) ∧
          (target < negligible → 2 ≤ (geometricPart target path).length →
            (geometricPart target path).getLast? = some (largest / (1000 : ℕ)))) ∧
        RaisesOnly [.parameter] (generate largest target count) := by
  constructor
  · intro largest target count
    exact ⟨fun _ made => shaped_of_generate made, generate_raises largest target count⟩
  · intro largest target count
    refine ⟨fun _ made => ?_, generate_raises largest target count⟩
    exact ⟨shaped_of_generate made, equalRatios_of_generate made⟩

theorem generate_shape_halving :
    (∃ path, generate (2 : Float) 0 3 = .ok path ∧ Shaped 2 0 3 path) ∧
      ∃ path, generate (number 4) (number 1) 3 = .ok path ∧
        Shaped (number 4) (number 1) 3 path ∧ EqualRatios (geometricPart (number 1) path) := by
  constructor
  · have proper : Proper (requested (2 : Float) 0 3) := by
      constructor
      · decide +kernel
      · decide +kernel
    obtain ⟨path, made⟩ := exists_generate (by decide) proper
    exact ⟨path, made, (generate_shape.1 2 0 3).1 path made⟩
  · have spread : ¬ Alone (number 4) (number 1) 3 := by
      norm_num [Alone]
    have notable : ¬ number 1 < negligible := by
      norm_num [negligible_eq]
    have proper : Proper (requested (number 4) (number 1) 3) := by
      rw [requested, if_neg spread, if_neg notable]
      exact proper_geometric (by norm_num) (by norm_num) (by norm_num) (by decide)
    obtain ⟨path, made⟩ := exists_generate (by decide) proper
    obtain ⟨shaped, ratios, _⟩ := (generate_shape.2 (number 4) (number 1) 3).1 path made
    exact ⟨path, made, shaped, ratios⟩

end ElasticNet.Path
