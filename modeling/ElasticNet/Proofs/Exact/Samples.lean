import ElasticNet.Data
import ElasticNet.Proofs.Exact.Vectors

namespace ElasticNet

structure Sample (dimension : ℕ) where
  features : Fin dimension → ℝ
  response : ℝ

namespace Row

open Exact

noncomputable def sample (dimension : ℕ) (row : Row Exact) : Sample dimension where
  features j := (row.features.getD j 0).value
  response := row.response.value

theorem sample_eq {dimension : ℕ} {row : Row Exact} {x : Fin dimension → ℝ} {y : ℝ}
    (features : row.features = ofVector x) (response : row.response = number y) :
    row.sample dimension = ⟨x, y⟩ := by
  have same : (row.sample dimension).features = x := by
    funext j
    simp only [sample, features, ofVector, List.getD_eq_getElem?_getD, List.getElem?_ofFn, j.isLt,
      dite_true, Option.getD_some, Fin.eta, value]
  have sameResponse : (row.sample dimension).response = y := by
    rw [sample, response]
    rfl
  rw [← same, ← sameResponse]

theorem eq_sample {dimension : ℕ} {row : Row Exact} (complete : row.isComplete = true)
    (sized : row.features.length = dimension) :
    row.features = ofVector (row.sample dimension).features ∧
      row.response = number (row.sample dimension).response := by
  obtain ⟨finite, finiteResponse⟩ := Bool.and_eq_true_iff.mp complete
  obtain ⟨x, features⟩ := exists_ofVector finite sized
  obtain ⟨y, response⟩ := exists_number finiteResponse
  rw [sample_eq features response]
  exact ⟨features, response⟩

end Row

noncomputable def Partition.samples (dimension : ℕ) (part : Partition Exact) :
    List (Sample dimension) :=
  part.complete.map (Row.sample dimension)

namespace Source

noncomputable def samples (source : Source Exact) : List (Sample source.dimension) :=
  (source.rows.filter Row.isComplete).map (Row.sample source.dimension)

theorem length_features {α : Type} {source : Source α} {row : Row α} (inside : row ∈ source.rows) :
    row.features.length = source.dimension := by
  obtain ⟨part, given, member⟩ := List.mem_flatMap.mp inside
  exact (part.sized row member).trans (source.uniform part given)

theorem dimension_of_mem {α : Type} {source other : Source α} {row : Row α}
    (inside : row ∈ source.rows) (otherInside : row ∈ other.rows) :
    other.dimension = source.dimension :=
  (length_features otherInside).symm.trans (length_features inside)

end Source

end ElasticNet
