import ElasticNet.Proofs.Data.Groups
import ElasticNet.Proofs.Pass
import ElasticNet.Proofs.Scales.Measure

namespace ElasticNet

def withoutEmpty {β : Type} (lists : List (List β)) : List (List β) :=
  lists.filter fun list => !list.isEmpty

section WithoutEmpty

variable {β γ : Type}

@[simp]
theorem withoutEmpty_nil_cons (lists : List (List β)) :
    withoutEmpty ([] :: lists) = withoutEmpty lists := rfl

@[simp]
theorem withoutEmpty_cons_cons (first : β) (rest : List β) (lists : List (List β)) :
    withoutEmpty ((first :: rest) :: lists) = (first :: rest) :: withoutEmpty lists := rfl

theorem flatten_withoutEmpty (lists : List (List β)) :
    (withoutEmpty lists).flatten = lists.flatten := by
  induction lists with
  | nil => rfl
  | cons list lists ih =>
    cases list with
    | nil => simpa using ih
    | cons first rest => simp [ih]

theorem ne_nil_of_mem_withoutEmpty {list : List β} {lists : List (List β)}
    (inside : list ∈ withoutEmpty lists) : list ≠ [] := by
  have kept := (List.mem_filter.mp inside).2
  simpa using kept

theorem withoutEmpty_map {change : List β → List γ} (nothing : change [] = [])
    (lists : List (List β)) :
    withoutEmpty (lists.map change) = withoutEmpty ((withoutEmpty lists).map change) := by
  induction lists with
  | nil => rfl
  | cons list lists ih =>
    cases list with
    | nil => simp [nothing, ih]
    | cons first rest =>
      rw [withoutEmpty_cons_cons, List.map_cons, List.map_cons]
      cases change (first :: rest) with
      | nil => exact ih
      | cons other others => simp [ih]

end WithoutEmpty

variable {α : Type} [Scalar α]

namespace Partition

def dropIncomplete (part : Partition α) : Partition α where
  dimension := part.dimension
  rows := part.complete
  sized _ inside := part.length_complete inside

theorem complete_dropIncomplete (part : Partition α) :
    part.dropIncomplete.complete = part.complete := by
  change (part.rows.filter Row.isComplete).filter Row.isComplete = part.rows.filter Row.isComplete
  rw [List.filter_filter]
  simp

theorem complete_select (part : Partition α) (key : String) :
    (part.select key).complete = part.complete.filter fun row => row.group = key := by
  change (part.rows.filter _).filter Row.isComplete = (part.rows.filter Row.isComplete).filter _
  rw [List.filter_comm]

end Partition

namespace Source

/-- The source without its incomplete rows, in as many partitions. -/
def dropIncomplete (source : Source α) : Source α where
  dimension := source.dimension
  partitions := source.partitions.map Partition.dropIncomplete
  uniform := by
    intro part inside
    obtain ⟨whole, given, rfl⟩ := List.mem_map.mp inside
    exact source.uniform whole given

/-- The complete rows of the partitions that have any. -/
def shares (source : Source α) : List (List (Row α)) :=
  withoutEmpty (source.partitions.map Partition.complete)

def occupied (source : Source α) : List (Partition α) :=
  source.partitions.filter fun part => !part.complete.isEmpty

theorem shares_eq_map_occupied (source : Source α) :
    source.shares = source.occupied.map Partition.complete :=
  List.filter_map

theorem occupied_eq_nil_iff (source : Source α) :
    source.occupied = [] ↔ ∀ part ∈ source.partitions, part.complete = [] := by
  simp [occupied]

theorem flatten_shares (source : Source α) :
    source.shares.flatten = source.rows.filter Row.isComplete := by
  rw [shares, flatten_withoutEmpty, source.filter_rows, List.flatMap_def]

theorem completeCount_eq (source : Source α) :
    source.completeCount = source.shares.flatten.length := by
  rw [flatten_shares]
  rfl

theorem shares_selectGroup (source : Source α) (key : String) :
    (source.selectGroup key).shares =
      withoutEmpty (source.shares.map fun rows => rows.filter fun row => row.group = key) := by
  have parts : withoutEmpty ((source.selectGroup key).partitions.map Partition.complete) =
      withoutEmpty ((source.partitions.map (Partition.select · key)).map Partition.complete) := by
    change withoutEmpty (List.map _ (List.filter _ _)) = _
    induction source.partitions with
    | nil => rfl
    | cons part rest ih =>
      rw [List.map_cons, List.filter_cons, List.map_cons]
      by_cases kept : (part.select key).rows ≠ []
      · rw [if_pos (decide_eq_true kept), List.map_cons]
        cases (part.select key).complete with
        | nil => exact ih
        | cons first others => simpa using ih
      · have none : (part.select key).complete = [] := by
          rw [Partition.complete, not_not.mp kept, List.filter_nil]
        rw [if_neg (by simpa using kept), none, withoutEmpty_nil_cons]
        exact ih
  have selected : (source.partitions.map (Partition.select · key)).map Partition.complete =
      (source.partitions.map Partition.complete).map
        fun rows => rows.filter fun row => row.group = key := by
    rw [List.map_map, List.map_map]
    exact List.map_congr_left fun part _ => part.complete_select key
  rw [shares, parts, selected, withoutEmpty_map List.filter_nil]
  rfl

theorem incompleteCount_eq_zero {source : Source α}
    (all : ∀ row ∈ source.rows, row.isComplete = true) : source.incompleteCount = 0 := by
  rw [incompleteCount, List.length_eq_zero_iff, List.filter_eq_nil_iff]
  intro row given
  rw [all row given]
  decide

section DropIncomplete

variable (source : Source α)

theorem dimension_dropIncomplete : source.dropIncomplete.dimension = source.dimension := rfl

theorem complete_dropIncomplete : source.dropIncomplete.partitions.map Partition.complete =
    source.partitions.map Partition.complete := by
  change (source.partitions.map Partition.dropIncomplete).map _ = _
  rw [List.map_map]
  exact List.map_congr_left fun part _ => part.complete_dropIncomplete

theorem shares_dropIncomplete : source.dropIncomplete.shares = source.shares :=
  congrArg withoutEmpty source.complete_dropIncomplete

theorem rows_dropIncomplete :
    source.dropIncomplete.rows = source.rows.filter Row.isComplete := by
  rw [source.filter_rows]
  exact List.flatMap_map _ _ _

theorem incompleteCount_dropIncomplete : source.dropIncomplete.incompleteCount = 0 := by
  apply incompleteCount_eq_zero
  intro row kept
  rw [rows_dropIncomplete] at kept
  exact (List.mem_filter.mp kept).2

theorem completeCount_dropIncomplete :
    source.dropIncomplete.completeCount = source.completeCount := by
  rw [completeCount_eq, completeCount_eq, shares_dropIncomplete]

theorem shares_selectGroup_dropIncomplete (key : String) :
    (source.dropIncomplete.selectGroup key).shares = (source.selectGroup key).shares := by
  rw [shares_selectGroup, shares_selectGroup, shares_dropIncomplete]

theorem incompleteCount_selectGroup_dropIncomplete (key : String) :
    (source.dropIncomplete.selectGroup key).incompleteCount = 0 := by
  apply incompleteCount_eq_zero
  intro row kept
  rw [rows_selectGroup, rows_dropIncomplete] at kept
  exact (List.mem_filter.mp (List.mem_filter.mp kept).1).2

def hasComplete (key : String) : Bool :=
  source.rows.any fun row => row.group = key && row.isComplete

theorem hasComplete_iff (key : String) :
    source.hasComplete key = true ↔ ∃ row ∈ source.rows, row.group = key ∧ row.isComplete := by
  simp [hasComplete]

theorem groupKeys_dropIncomplete :
    source.dropIncomplete.groupKeys = source.groupKeys.filter source.hasComplete := by
  have members (key : String) : key ∈ source.dropIncomplete.groupKeys ↔
      key ∈ source.groupKeys.filter source.hasComplete := by
    rw [mem_groupKeys, rows_dropIncomplete, List.mem_filter, hasComplete_iff, mem_groupKeys]
    constructor
    · rintro ⟨row, kept, own⟩
      obtain ⟨given, complete⟩ := List.mem_filter.mp kept
      exact ⟨⟨row, given, own⟩, row, given, own, complete⟩
    · rintro ⟨_, row, given, own, complete⟩
      exact ⟨row, List.mem_filter.mpr ⟨given, complete⟩, own⟩
  have rising := source.groupKeys_increasing.filter source.hasComplete
  have perm := (List.perm_ext_iff_of_nodup source.dropIncomplete.groupKeys_nodup
    (source.groupKeys_nodup.filter source.hasComplete)).mpr members
  refine perm.eq_of_pairwise ?_ source.dropIncomplete.groupKeys_increasing rising
  intro key other _ _ before behind
  exact absurd (String.lt_trans before behind) (String.lt_irrefl key)

end DropIncomplete

end Source

end ElasticNet
