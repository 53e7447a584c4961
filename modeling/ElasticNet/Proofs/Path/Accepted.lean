import ElasticNet.Proofs.Path.EqualRatios

namespace ElasticNet.Path

open Exact

section Requests

variable {l t : ℝ} {count : ℕ}

theorem alone_number_iff : Alone (number l) (number t) count ↔ l ≤ t ∨ count = 1 := by
  simp [Alone]

/-- The strengths before a negligible target end at a thousandth of the largest one, unless that is
    the only one. -/
theorem proper_negligible_iff (low : 0 ≤ t) (below : t < l) (several : 2 ≤ count) :
    Proper (geometric (number l) (number (l / 1000)) (count - 1) ++ [number t]) ↔
      ¬ (2 < count ∧ l / 1000 < t) := by
  have positive : 0 < l := low.trans_lt below
  have share : l / 1000 ≤ l := div_le_self positive.le (by norm_num)
  have points : Proper (geometric (number l) (number (l / 1000)) (count - 1)) :=
    proper_geometric positive (by positivity) share (by omega)
  rw [proper_concat_iff, and_iff_right points, and_iff_right ⟨rfl, not_lt.mpr low⟩]
  by_cases more : 2 < count
  · rw [getLast?_geometric _ _ (by omega)]
    simp [more]
  · obtain rfl : count = 2 := by omega
    simp [geometric_one, below.le]

theorem proper_requested_iff (low : 0 ≤ t) (positive : 1 ≤ count) :
    Proper (requested (number l) (number t) count) ↔
      ¬ (2 < count ∧ t < 1 / 10 ^ 6 ∧ l / 1000 < t ∧ t < l) := by
  by_cases alone : Alone (number l) (number t) count
  · have single : Proper [number t] := (proper_singleton_iff _).mpr ⟨rfl, not_lt.mpr low⟩
    rw [requested, if_pos alone]
    refine iff_of_true single fun given => ?_
    rcases alone_number_iff.mp alone with above | one
    · exact absurd given.2.2.2 (not_lt.mpr above)
    · omega
  · have below : t < l := not_le.mp fun above => alone (alone_number_iff.mpr (.inl above))
    have several := two_le_of_spread alone positive
    rw [requested, if_neg alone]
    by_cases small : t < 1 / 10 ^ 6
    · have negligible : number t < negligible := by rwa [negligible_eq, number_lt]
      rw [if_pos negligible, number_mul_lowestShare, proper_negligible_iff low below several]
      simp only [small, below, true_and, and_true]
    · have notable : ¬ number t < negligible := by rwa [negligible_eq, number_lt]
      have strict : 0 < t := lt_of_lt_of_le (by positivity) (not_lt.mp small)
      have points := proper_geometric (low.trans_lt below) strict below.le positive
      rw [if_neg notable]
      exact iff_of_true points fun given => small given.2.1

/-- A request is answered unless its target is negligible, larger than a thousandth of the largest
    strength and smaller than the largest strength itself, and points between the two are asked
    for. -/
theorem generate_answers_iff (low : 0 ≤ t) (positive : 1 ≤ count) :
    (∃ path, generate (number l) (number t) count = .ok path) ↔
      ¬ (2 < count ∧ t < 1 / 10 ^ 6 ∧ l / 1000 < t ∧ t < l) := by
  rw [← proper_requested_iff low positive]
  constructor
  · rintro ⟨path, made⟩
    exact (generate_eq_ok_iff.mp made).2.2
  · exact exists_generate positive

end Requests

theorem generate_answers_zero :
    (0 : ℝ) ≤ 0 ∧ 1 ≤ 5 ∧ ∃ path, generate (number 2) (number 0) 5 = .ok path := by
  refine ⟨le_refl 0, by decide, ?_⟩
  refine (generate_answers_iff (le_refl 0) (by decide)).mpr fun given => ?_
  exact absurd given.2.2.1 (by norm_num)

/-- The target 5e-7 would follow 9e-10, a thousandth of the largest strength. -/
theorem generate_refuses_rise :
    generate (number (9 / 10 ^ 7)) (number (5 / 10 ^ 7)) 3 = .error (.increasingPath "" "") := by
  have spread : ¬ (number (9 / 10 ^ 7) ≤ number (5 / 10 ^ 7) ∨ 3 = 1) := by
    norm_num
  have small : number (5 / 10 ^ 7) < negligible := by
    rw [negligible_eq, number_lt]
    norm_num
  unfold generate
  rw [if_neg (by decide), if_neg (by simp), if_neg spread, if_pos small, number_mul_lowestShare]
  change (checkFrom 1 none [(number (9 / 10 ^ 7), ""), (number (9 / 10 ^ 7 / 1000), ""),
    (number (5 / 10 ^ 7), "")]).map _ = _
  have checked : checkFrom 1 none [(number (9 / 10 ^ 7), ""), (number (9 / 10 ^ 7 / 1000), ""),
      (number (5 / 10 ^ 7), "")] = .error (.increasingPath "" "") := by
    simp only [checkFrom, isFinite_number, zero_eq, number_lt]
    norm_num
  rw [checked]
  rfl

end ElasticNet.Path
