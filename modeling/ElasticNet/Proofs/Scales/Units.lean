import ElasticNet.Scales.Standardize

namespace ElasticNet.Scales

variable {α : Type} [Scalar α]

theorem uniform_standardizePartition (scales : Scales α) (center : Bool) (source : Source α) :
    ∀ part ∈ source.partitions.map (scales.standardizePartition center),
      part.dimension = source.dimension := by
  intro part member
  obtain ⟨before, inside, rfl⟩ := List.mem_map.mp member
  exact source.uniform before inside

def standardized (scales : Scales α) (center : Bool) (source : Source α) : Source α where
  dimension := source.dimension
  partitions := source.partitions.map (scales.standardizePartition center)
  uniform := uniform_standardizePartition scales center source

theorem rows_standardized (scales : Scales α) (center : Bool) (source : Source α) :
    (scales.standardized center source).rows = source.rows.map (scales.standardizeRow center) := by
  unfold Source.rows
  rw [List.map_flatMap]
  exact List.flatMap_map _ _ _

theorem standardize_eq_ok {scales : Scales α} {source : Source α}
    (fitting : scales.means.length = source.dimension) (center : Bool) :
    scales.standardize center source = .ok (scales.standardized center source) :=
  if_neg (not_not_intro fitting)

def restored (scales : Scales α) (centered : Bool) (model : Model α) : Model α :=
  let coefficients := restoreCoefficients scales.means scales.spreads model.coefficients
  let intercept := model.intercept - Vector.dot coefficients scales.means
  { model with
    coefficients := coefficients
    intercept := if centered then intercept + scales.responseMean else intercept }

theorem restore_eq_ok {scales : Scales α} (model : Model α) (some : model.status ≠ .empty)
    (fitting : model.coefficients.length = scales.spreads.length) (centered : Bool) :
    scales.restore centered model = .ok (scales.restored centered model) :=
  (if_neg some).trans (if_neg (not_not_intro fitting))

end ElasticNet.Scales
