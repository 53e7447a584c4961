import ElasticNet.Proofs.ByteOrder
import ElasticNet.Proofs.Data.Groups

namespace ElasticNet

variable {α : Type}

inductive Picks (key : String) : List (Row α) → List (Row α) → Prop
  | none : Picks key [] []
  | own {row : Row α} {rows picked : List (Row α)} (same : row.group = key)
    (rest : Picks key rows picked) : Picks key (row :: rows) (row :: picked)
  | other {row : Row α} {rows picked : List (Row α)} (different : row.group ≠ key)
    (rest : Picks key rows picked) : Picks key (row :: rows) picked

inductive Selects (key : String) : List (Partition α) → List (Partition α) → Prop
  | none : Selects key [] []
  | own {part chosen : Partition α} {parts selected : List (Partition α)}
    (dimension : chosen.dimension = part.dimension) (picks : Picks key part.rows chosen.rows)
    (some : chosen.rows ≠ []) (rest : Selects key parts selected) :
    Selects key (part :: parts) (chosen :: selected)
  | other {part : Partition α} {parts selected : List (Partition α)}
    (none : ∀ row ∈ part.rows, row.group ≠ key) (rest : Selects key parts selected) :
    Selects key (part :: parts) selected

theorem picks_iff {key : String} {rows picked : List (Row α)} :
    Picks key rows picked ↔ picked = rows.filter fun row => row.group = key := by
  constructor
  · intro picks
    induction picks with
    | none => rfl
    | own same rest ih => rw [List.filter_cons_of_pos (by simpa using same), ih]
    | other different rest ih => rw [List.filter_cons_of_neg (by simpa using different), ih]
  · rintro rfl
    induction rows with
    | nil => exact .none
    | cons row rest ih =>
      by_cases same : row.group = key
      · rw [List.filter_cons_of_pos (by simpa using same)]
        exact .own same ih
      · rw [List.filter_cons_of_neg (by simpa using same)]
        exact .other same ih

theorem foldlM_add_of_size {σ β : Type} {add : σ → β → Except Error σ} {items : σ → List β}
    {size : β → ℕ} {sizes : σ → ℕ}
    (adds : ∀ whole item, size item = sizes whole → ∃ next, add whole item = .ok next ∧
      sizes next = sizes whole ∧ items next = items whole ++ [item])
    (whole : σ) {given : List β} (fitting : ∀ item ∈ given, size item = sizes whole) :
    ∃ last, given.foldlM add whole = .ok last ∧ sizes last = sizes whole ∧
      items last = items whole ++ given := by
  induction given generalizing whole with
  | nil => exact ⟨whole, rfl, rfl, (List.append_nil _).symm⟩
  | cons item rest ih =>
    obtain ⟨next, taken, kept, front⟩ := adds whole item (fitting item List.mem_cons_self)
    obtain ⟨last, all, same, behind⟩ := ih next fun other later =>
      (fitting other (List.mem_cons_of_mem item later)).trans kept.symm
    refine ⟨last, ?_, same.trans kept, ?_⟩
    · rw [List.foldlM_cons, taken]
      exact all
    · rw [behind, front, List.append_assoc]
      rfl

namespace Partition

theorem eq_of_rows {part other : Partition α} (dimension : other.dimension = part.dimension)
    (rows : other.rows = part.rows) : other = part := by
  cases part
  cases other
  cases dimension
  cases rows
  rfl

theorem rows_select (part : Partition α) (key : String) :
    (part.select key).rows = part.rows.filter fun row => row.group = key := rfl

theorem select_rows_eq_nil_iff (part : Partition α) (key : String) :
    (part.select key).rows = [] ↔ ∀ row ∈ part.rows, row.group ≠ key := by
  rw [rows_select, List.filter_eq_nil_iff]
  simp

theorem append_eq_ok (part : Partition α) {row : Row α}
    (fitting : row.features.length = part.dimension) :
    ∃ next, part.append row = .ok next ∧ next.dimension = part.dimension ∧
      next.rows = part.rows ++ [row] :=
  ⟨_, dif_pos fitting, rfl, rfl⟩

theorem foldlM_append_rows (part : Partition α) :
    part.rows.foldlM append (empty part.dimension) = .ok part := by
  obtain ⟨whole, all, dimension, rows⟩ := foldlM_add_of_size
    (fun part _ fitting => part.append_eq_ok fitting) (empty part.dimension) part.sized
  have same : whole = part := eq_of_rows dimension (rows.trans (List.nil_append _))
  rw [all, same]

end Partition

namespace Source

theorem eq_of_partitions {source other : Source α} (dimension : other.dimension = source.dimension)
    (partitions : other.partitions = source.partitions) : other = source := by
  cases source
  cases other
  cases dimension
  cases partitions
  rfl

theorem add_eq_ok (source : Source α) {part : Partition α}
    (fitting : part.dimension = source.dimension) :
    ∃ next, source.add part = .ok next ∧ next.dimension = source.dimension ∧
      next.partitions = source.partitions ++ [part] :=
  ⟨_, dif_pos fitting, rfl, rfl⟩

theorem foldlM_add_partitions (source : Source α) :
    source.partitions.foldlM add (empty source.dimension) = .ok source := by
  obtain ⟨whole, all, dimension, partitions⟩ := foldlM_add_of_size
    (fun source _ fitting => source.add_eq_ok fitting) (empty source.dimension) source.uniform
  have same : whole = source := eq_of_partitions dimension (partitions.trans (List.nil_append _))
  rw [all, same]

theorem selects_partitions (key : String) (partitions : List (Partition α)) : Selects key partitions
    ((partitions.map (Partition.select · key)).filter fun part => part.rows ≠ []) := by
  induction partitions with
  | nil => exact .none
  | cons part rest ih =>
    rw [List.map_cons]
    by_cases none : (part.select key).rows = []
    · rw [List.filter_cons_of_neg (by simpa using none)]
      exact .other ((part.select_rows_eq_nil_iff key).mp none) ih
    · rw [List.filter_cons_of_pos (by simpa using none)]
      exact .own rfl (picks_iff.mpr rfl) none ih

end Source

theorem Selects.unique {key : String} {partitions selected other : List (Partition α)}
    (selects : Selects key partitions selected) (again : Selects key partitions other) :
    other = selected := by
  induction selects generalizing other with
  | none =>
    cases again
    rfl
  | @own part chosen parts selected dimension picks some rest ih =>
    have picked := picks_iff.mp picks
    cases again with
    | own otherDimension otherPicks _ otherRest =>
      rw [ih otherRest, Partition.eq_of_rows (otherDimension.trans dimension.symm)
        ((picks_iff.mp otherPicks).trans picked.symm)]
    | other none _ =>
      exact absurd (picked.trans ((part.select_rows_eq_nil_iff key).mpr none)) some
  | @other part parts selected none rest ih =>
    cases again with
    | own _ otherPicks some _ =>
      have nothing := (part.select_rows_eq_nil_iff key).mpr none
      exact absurd ((picks_iff.mp otherPicks).trans nothing) some
    | other _ otherRest => exact ih otherRest

namespace Source

variable (source : Source α)

/-- The group of a key is the one source that the rule selects. -/
theorem eq_selectGroup_iff (key : String) (selection : Source α) :
    selection = source.selectGroup key ↔ selection.dimension = source.dimension ∧
      Selects key source.partitions selection.partitions := by
  constructor
  · rintro rfl
    exact ⟨rfl, selects_partitions key source.partitions⟩
  · rintro ⟨dimension, selects⟩
    exact eq_of_partitions dimension ((selects_partitions key source.partitions).unique selects)

theorem partitions_selectGroup_of_not_mem {key : String} (missing : key ∉ source.groupKeys) :
    (source.selectGroup key).partitions = [] := by
  apply List.filter_eq_nil_iff.mpr
  intro chosen inside
  obtain ⟨part, given, rfl⟩ := List.mem_map.mp inside
  have none : (part.select key).rows = [] := by
    apply (part.select_rows_eq_nil_iff key).mpr
    intro row member own
    exact missing ((source.mem_groupKeys key).mpr ⟨row, List.mem_flatMap.mpr ⟨part, given, member⟩,
      own⟩)
  simpa using none

theorem group_of_mem_selectGroup {key : String} {row : Row α}
    (inside : row ∈ (source.selectGroup key).rows) : row.group = key := by
  rw [rows_selectGroup] at inside
  exact of_decide_eq_true (List.mem_filter.mp inside).2

theorem selectGroup_selectGroup (key : String) :
    (source.selectGroup key).selectGroup key = source.selectGroup key := by
  have kept : ∀ part ∈ (source.selectGroup key).partitions, part.select key = part := by
    intro part inside
    have all : (part.select key).rows = part.rows := by
      apply List.filter_eq_self.mpr
      intro row member
      exact decide_eq_true
        (source.group_of_mem_selectGroup (List.mem_flatMap.mpr ⟨part, inside, member⟩))
    exact Partition.eq_of_rows rfl all
  have same : ((source.selectGroup key).selectGroup key).partitions =
      (source.selectGroup key).partitions := by
    change ((source.selectGroup key).partitions.map (Partition.select · key)).filter _ = _
    rw [List.map_congr_left kept, List.map_id']
    exact List.filter_eq_self.mpr fun part inside => (List.mem_filter.mp inside).2
  exact eq_of_partitions rfl same

theorem perm_selectGroup :
    (source.groupKeys.flatMap fun key => (source.selectGroup key).rows).Perm source.rows := by
  simp only [rows_selectGroup]
  exact perm_flatMap_filter source.groupKeys_nodup fun row inside =>
    (source.mem_groupKeys row.group).mpr ⟨row, inside, rfl⟩

theorem existsUnique_key {row : Row α} (inside : row ∈ source.rows) :
    ∃! key, key ∈ source.groupKeys ∧ row ∈ (source.selectGroup key).rows := by
  refine ⟨row.group, ⟨(source.mem_groupKeys row.group).mpr ⟨row, inside, rfl⟩, ?_⟩, ?_⟩
  · rw [rows_selectGroup]
    exact List.mem_filter.mpr ⟨inside, decide_eq_true rfl⟩
  · rintro key ⟨_, member⟩
    exact (source.group_of_mem_selectGroup member).symm

/-- A source split by the keys of its rows. -/
structure SplitByKey [Scalar α] (source : Source α) : Prop where
  rising : source.groupKeys.Pairwise fun key later => utf8Bytes key < utf8Bytes later
  occurring : ∀ key, key ∈ source.groupKeys ↔ ∃ row ∈ source.rows, row.group = key
  selected : ∀ key selection, selection = source.selectGroup key ↔
    selection.dimension = source.dimension ∧ Selects key source.partitions selection.partitions
  missing : ∀ key ∉ source.groupKeys, (source.selectGroup key).partitions = []
  again : ∀ key, (source.selectGroup key).selectGroup key = source.selectGroup key
  accepted : ∀ key,
    (∀ part ∈ (source.selectGroup key).partitions,
      part.rows.foldlM Partition.append (.empty source.dimension) = .ok part) ∧
    (source.selectGroup key).partitions.foldlM add (.empty source.dimension) =
      .ok (source.selectGroup key)
  whole : (source.groupKeys.flatMap fun key => (source.selectGroup key).rows).Perm source.rows
  once : ∀ row ∈ source.rows, ∃! key, key ∈ source.groupKeys ∧ row ∈ (source.selectGroup key).rows
  counted : (source.groupKeys.map fun key => (source.selectGroup key).rowCount).sum =
    source.rowCount
  incomplete : (source.groupKeys.map fun key => (source.selectGroup key).incompleteCount).sum =
    source.incompleteCount

/-- Every source splits into the groups of its keys. -/
theorem groups_partition_rows [Scalar α] (source : Source α) : source.SplitByKey where
  rising := source.groupKeys_increasing.imp utf8Bytes_lt
  occurring := source.mem_groupKeys
  selected := source.eq_selectGroup_iff
  missing _ := source.partitions_selectGroup_of_not_mem
  again := source.selectGroup_selectGroup
  accepted key := by
    refine ⟨?_, foldlM_add_partitions (source.selectGroup key)⟩
    intro part inside
    have dimension : part.dimension = source.dimension :=
      (source.selectGroup key).uniform part inside
    rw [← dimension]
    exact part.foldlM_append_rows
  whole := source.perm_selectGroup
  once _ := source.existsUnique_key
  counted := by
    have whole := source.sum_selectGroup fun _ => true
    simp only [List.filter_true] at whole
    exact whole
  incomplete := source.sum_selectGroup fun row => !row.isComplete

end Source

end ElasticNet
