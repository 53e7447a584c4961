import ElasticNet.Model
import ElasticNet.Scales

namespace ElasticNet

variable {α : Type} [Scalar α]

/-- A spread below this share of the mean is noise, as is one below this number itself. -/
def noise : α := 1e-6

def isCloseToZero (number reference : α) : Bool :=
  Scalar.abs number ≤ noise * Scalar.max 1 (Scalar.abs reference)

namespace Scales

def standardizeFeature (mean spread x : α) : α :=
  if isCloseToZero spread mean then x - mean else (x - mean) / spread

def standardizeFeatures : (means spreads features : List α) → List α
  | mean :: means, spread :: spreads, x :: xs =>
    standardizeFeature mean spread x :: standardizeFeatures means spreads xs
  | _, _, xs => xs

theorem length_standardizeFeatures (means spreads features : List α) :
    (standardizeFeatures means spreads features).length = features.length := by
  fun_induction standardizeFeatures means spreads features with
  | case1 mean means spread spreads x xs ih => simp [ih]
  | case2 => rfl

/-- A row in standard units. A row with a missing value stays as it is. -/
def standardizeRow (scales : Scales α) (center : Bool) (row : Row α) : Row α :=
  if row.isComplete then
    { row with
      features := standardizeFeatures scales.means scales.spreads row.features
      response := row.response - (if center then scales.responseMean else 0) }
  else row

theorem length_standardizeRow (scales : Scales α) (center : Bool) (row : Row α) :
    (scales.standardizeRow center row).features.length = row.features.length := by
  unfold standardizeRow
  split
  · exact length_standardizeFeatures _ _ _
  · rfl

def standardizePartition (scales : Scales α) (center : Bool) (part : Partition α) :
    Partition α where
  dimension := part.dimension
  rows := part.rows.map (scales.standardizeRow center)
  sized := by
    intro row member
    obtain ⟨before, inside, rfl⟩ := List.mem_map.mp member
    rw [length_standardizeRow]
    exact part.sized before inside

def standardize (scales : Scales α) (center : Bool) (source : Source α) :
    Except Error (Source α) :=
  if scales.means.length ≠ source.dimension then .error .scalesOfOtherData
  else .ok {
    dimension := source.dimension
    partitions := source.partitions.map (scales.standardizePartition center)
    uniform := by
      intro part member
      obtain ⟨before, inside, rfl⟩ := List.mem_map.mp member
      exact source.uniform before inside }

def restoreCoefficient (mean spread coefficient : α) : α :=
  if isCloseToZero spread mean then coefficient else coefficient / spread

def restoreCoefficients : (means spreads coefficients : List α) → List α
  | mean :: means, spread :: spreads, c :: cs =>
    restoreCoefficient mean spread c :: restoreCoefficients means spreads cs
  | _, _, cs => cs

/-- A model fitted in standard units, brought to the units of the data. The model of nothing stays
    as it is. -/
def restore (scales : Scales α) (centered : Bool) (model : Model α) : Except Error (Model α) :=
  if model.status = .empty then .ok model
  else if model.coefficients.length ≠ scales.spreads.length then .error .scalesOfOtherModel
  else
    let coefficients := restoreCoefficients scales.means scales.spreads model.coefficients
    let intercept := model.intercept - Vector.dot coefficients scales.means
    .ok { model with
      coefficients := coefficients
      intercept := if centered then intercept + scales.responseMean else intercept }

end Scales

end ElasticNet
