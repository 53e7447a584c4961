import ElasticNet.Proofs.Data.Complete
import ElasticNet.Proofs.Scales.Units

namespace ElasticNet

variable {α : Type} [Scalar α]

namespace RowSums

def uncounted (sums : RowSums α) : RowSums α :=
  { sums with incomplete := 0 }

theorem uncounted_merge (left right : RowSums α) :
    (left.merge right).uncounted = left.uncounted.merge right.uncounted := by
  unfold merge uncounted
  dsimp only
  split
  · rfl
  · rfl

theorem uncounted_addRow (sums : RowSums α) (row : Row α) :
    (sums.addRow row).uncounted =
      if row.isComplete then sums.uncounted.addRow row else sums.uncounted := by
  unfold addRow
  split
  · rfl
  · rfl

theorem uncounted_foldl (rows : List (Row α)) (sums : RowSums α) :
    (rows.foldl addRow sums).uncounted =
      (rows.filter Row.isComplete).foldl addRow sums.uncounted := by
  induction rows generalizing sums with
  | nil => rfl
  | cons row rest ih =>
    rw [List.foldl_cons, ih, uncounted_addRow, List.filter_cons]
    split
    · rfl
    · rfl

def ofShares (dimension : Nat) (shares : List (List (Row α))) : RowSums α :=
  (shares.map fun rows => rows.foldl addRow (zero dimension)).foldl merge (zero dimension)

theorem uncounted_ofSource (source : Source α) :
    (ofSource source).uncounted = ofShares source.dimension source.shares := by
  have merged (partitions : List (Partition α)) (total : RowSums α) :
      ((partitions.map (ofPartition source.dimension)).foldl merge total).uncounted =
        ((withoutEmpty (partitions.map Partition.complete)).map fun rows =>
          rows.foldl addRow (zero source.dimension)).foldl merge total.uncounted := by
    induction partitions generalizing total with
    | nil => rfl
    | cons part rest ih =>
      have folded : (ofPartition source.dimension part).uncounted =
          part.complete.foldl addRow (zero source.dimension) := uncounted_foldl part.rows _
      rw [List.map_cons, List.foldl_cons, ih, uncounted_merge, folded, List.map_cons]
      cases part.complete with
      | nil => rfl
      | cons first others => rfl
  exact merged source.partitions (zero source.dimension)

theorem ofSource_eq_ofShares (source : Source α) :
    ofSource source = { ofShares source.dimension source.shares with
      incomplete := source.incompleteCount } := by
  have counted : source.incompleteCount = (ofSource source).incomplete :=
    (Over.ofSource source).incomplete.symm
  rw [← uncounted_ofSource, counted]
  rfl

end RowSums

namespace Scales

/-- Sources with the same shares differ in the count of the other rows at most. -/
theorem measure_of_shares {source other : Source α} (dimension : other.dimension = source.dimension)
    (shares : other.shares = source.shares) :
    measure other = { measure source with incomplete := other.incompleteCount } := by
  unfold measure
  rw [RowSums.ofSource_eq_ofShares, RowSums.ofSource_eq_ofShares, dimension, shares]
  rfl

variable (scales : Scales α) (center : Bool)

def standardizeRows (rows : List (Row α)) : List (Row α) :=
  (rows.map (scales.standardizeRow center)).filter Row.isComplete

theorem standardizeRows_complete (part : Partition α) :
    scales.standardizeRows center part.complete =
      (scales.standardizePartition center part).complete := by
  change standardizeRows _ _ (part.rows.filter _) = (part.rows.map _).filter Row.isComplete
  unfold standardizeRows
  induction part.rows with
  | nil => rfl
  | cons row rest ih =>
    cases complete : row.isComplete with
    | true =>
      rw [List.filter_cons_of_pos complete, List.map_cons, List.map_cons, List.filter_cons,
        List.filter_cons, ih]
    | false =>
      have kept : scales.standardizeRow center row = row := by
        rw [standardizeRow, complete]
        rfl
      have gone : ¬ row.isComplete = true := by simp [complete]
      rw [List.filter_cons_of_neg gone, List.map_cons, kept, List.filter_cons_of_neg gone, ih]

theorem complete_standardized (source : Source α) :
    (scales.standardized center source).partitions.map Partition.complete =
      (source.partitions.map Partition.complete).map (scales.standardizeRows center) := by
  change (source.partitions.map _).map _ = _
  rw [List.map_map, List.map_map]
  exact List.map_congr_left fun part _ => (scales.standardizeRows_complete center part).symm

theorem shares_standardized (source : Source α) :
    (scales.standardized center source).shares =
      withoutEmpty (source.shares.map (scales.standardizeRows center)) := by
  rw [Source.shares, complete_standardized, withoutEmpty_map rfl]
  rfl

end Scales

end ElasticNet
