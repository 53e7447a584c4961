import ElasticNet.Scales
import Mathlib.Data.List.Basic
import Mathlib.Data.List.Induction

namespace ElasticNet

variable {α : Type} [Scalar α]

theorem Vector.length_add {xs ys : List α} {dimension : Nat} (fitting : xs.length = dimension)
    (other : ys.length = dimension) : (Vector.add xs ys).length = dimension := by
  rw [Vector.add, List.length_zipWith, fitting, other, Nat.min_self]

def Source.completeCount (source : Source α) : Nat :=
  (source.rows.filter Row.isComplete).length

theorem Source.complete_of_completeCount {source : Source α} (none : source.completeCount = 0) :
    ∀ part ∈ source.partitions, part.complete = [] := by
  have nothing := List.eq_nil_of_length_eq_zero none
  intro part inside
  apply List.eq_nil_iff_forall_not_mem.mpr
  intro row kept
  obtain ⟨given, complete⟩ := List.mem_filter.mp kept
  have counted : row ∈ source.rows.filter Row.isComplete :=
    List.mem_filter.mpr ⟨List.mem_flatMap.mpr ⟨part, inside, given⟩, complete⟩
  rw [nothing] at counted
  cases counted

theorem Source.completeCount_add_incompleteCount (source : Source α) :
    source.completeCount + source.incompleteCount = source.rowCount := by
  exact (List.length_eq_length_filter_add Row.isComplete).symm

namespace RowSums

/-- What relates no rows to sums of nothing, and is kept by one more row and by putting rows
    together, relates the rows of a source to its sums. -/
theorem ofSource_induction (Relates : List (Row α) → RowSums α → Prop) (source : Source α)
    (zero : Relates [] (zero source.dimension))
    (addRow : ∀ {rows sums} {row : Row α}, row.features.length = source.dimension →
      Relates rows sums → Relates (rows ++ [row]) (sums.addRow row))
    (merge : ∀ {rows more left right}, Relates rows left → Relates more right →
      Relates (rows ++ more) (left.merge right)) : Relates source.rows (ofSource source) := by
  have folded {rows : List (Row α)}
      (fitting : ∀ row ∈ rows, row.features.length = source.dimension) :
      Relates rows (rows.foldl RowSums.addRow (RowSums.zero source.dimension)) := by
    induction rows using List.reverseRecOn with
    | nil => exact zero
    | append_singleton rows row ih =>
      rw [List.foldl_concat]
      exact addRow (fitting row (List.mem_append_right rows List.mem_cons_self))
        (ih fun other before => fitting other (List.mem_append_left [row] before))
  have merged {partitions : List (Partition α)}
      (uniform : ∀ part ∈ partitions, part.dimension = source.dimension) :
      Relates (partitions.flatMap Partition.rows)
        ((partitions.map (ofPartition source.dimension)).foldl RowSums.merge
          (RowSums.zero source.dimension)) := by
    induction partitions using List.reverseRecOn with
    | nil => exact zero
    | append_singleton partitions part ih =>
      rw [List.flatMap_append, List.flatMap_singleton, List.map_append, List.map_singleton,
        List.foldl_concat]
      have fitting := uniform part (List.mem_append_right partitions List.mem_cons_self)
      exact merge (ih fun other before => uniform other (List.mem_append_left [part] before))
        (folded fun row inside => (part.sized row inside).trans fitting)
  exact merged source.uniform

structure Over (dimension : Nat) (rows : List (Row α)) (sums : RowSums α) : Prop where
  complete : sums.complete = (rows.filter Row.isComplete).length
  incomplete : sums.incomplete = (rows.filter fun row => !row.isComplete).length
  features : sums.features.length = dimension
  squares : sums.squares.length = dimension

namespace Over

variable {dimension : Nat} {rows : List (Row α)} {sums : RowSums α}

theorem zero (dimension : Nat) : Over dimension [] (zero dimension : RowSums α) :=
  ⟨rfl, rfl, List.length_replicate, List.length_replicate⟩

theorem addRow (held : Over dimension rows sums) {row : Row α}
    (fitting : row.features.length = dimension) :
    Over dimension (rows ++ [row]) (sums.addRow row) := by
  obtain ⟨complete, incomplete, features, squares⟩ := held
  unfold RowSums.addRow
  cases kept : row.isComplete with
  | true =>
    refine ⟨?_, ?_, Vector.length_add features fitting,
      Vector.length_add squares ((List.length_map _).trans fitting)⟩
    · simp [List.filter_append, kept, complete]
    · simp [List.filter_append, kept, incomplete]
  | false =>
    refine ⟨?_, ?_, features, squares⟩
    · simp [List.filter_append, kept, complete]
    · simp [List.filter_append, kept, incomplete]

theorem merge {more : List (Row α)} {other : RowSums α} (held : Over dimension rows sums)
    (further : Over dimension more other) : Over dimension (rows ++ more) (sums.merge other) := by
  obtain ⟨complete, incomplete, features, squares⟩ := held
  obtain ⟨moreComplete, moreIncomplete, moreFeatures, moreSquares⟩ := further
  unfold RowSums.merge
  dsimp only
  split
  · next none =>
    refine ⟨?_, ?_, features, squares⟩
    · rw [List.filter_append, List.length_append, ← moreComplete, none, complete, Nat.add_zero]
    · rw [List.filter_append, List.length_append, ← moreIncomplete, ← incomplete]
  · refine ⟨?_, ?_, Vector.length_add features moreFeatures,
      Vector.length_add squares moreSquares⟩
    · rw [List.filter_append, List.length_append, ← moreComplete, ← complete]
    · rw [List.filter_append, List.length_append, ← moreIncomplete, ← incomplete]

theorem ofSource (source : Source α) : Over source.dimension source.rows (ofSource source) :=
  ofSource_induction (Over source.dimension) source (zero _)
    (fun fitting held => held.addRow fitting) fun held further => held.merge further

end Over

end RowSums

namespace Scales

theorem complete_measure (source : Source α) : (measure source).complete = source.completeCount :=
  (RowSums.Over.ofSource source).complete

theorem incomplete_measure (source : Source α) :
    (measure source).incomplete = source.incompleteCount :=
  (RowSums.Over.ofSource source).incomplete

theorem length_means (source : Source α) : (measure source).means.length = source.dimension :=
  (List.length_map _).trans (RowSums.Over.ofSource source).features

theorem length_spreads (source : Source α) :
    (measure source).spreads.length = source.dimension := by
  obtain ⟨_, _, features, squares⟩ := RowSums.Over.ofSource source
  unfold measure ofSums
  dsimp only
  split
  · exact squares
  · rw [List.length_zipWith, List.length_map, List.length_map, features, squares, Nat.min_self]

theorem length_meanSquares (source : Source α) :
    (measure source).meanSquares.length = source.dimension := by
  change (List.zipWith _ (measure source).spreads (measure source).means).length = _
  rw [List.length_zipWith, length_spreads, length_means, Nat.min_self]

theorem ofSource_eq_ok {source : Source α} {scales : Scales α}
    (measured : ofSource source = .ok scales) :
    source.dimension ≠ 0 ∧ sumCount source.dimension < UInt32.size ∧ measure source = scales := by
  unfold ofSource at measured
  split at measured
  · cases measured
  · next counted =>
    rw [not_or, Nat.not_le] at counted
    exact ⟨counted.1, counted.2, Except.ok.inj measured⟩

end Scales

end ElasticNet
