import ElasticNet.Data.Groups
import Mathlib.Algebra.GroupWithZero.Nat
import Mathlib.Data.List.Basic

namespace ElasticNet

theorem mem_insertKey (key : String) (keys : List String) (other : String) :
    other ∈ insertKey key keys ↔ other = key ∨ other ∈ keys := by
  induction keys with
  | nil => exact List.mem_cons
  | cons first rest ih =>
    unfold insertKey
    split
    · exact List.mem_cons
    · split
      · next same =>
        rw [same, List.mem_cons]
        exact ⟨.inr, fun either => either.elim .inl id⟩
      · rw [List.mem_cons, ih, List.mem_cons]
        exact or_left_comm

theorem insertKey_increasing (key : String) {keys : List String}
    (increasing : keys.Pairwise (· < ·)) : (insertKey key keys).Pairwise (· < ·) := by
  induction keys with
  | nil => exact List.pairwise_singleton _ key
  | cons first rest ih =>
    have sorted := List.pairwise_cons.mp increasing
    unfold insertKey
    split
    · next before =>
      refine List.pairwise_cons.mpr ⟨?_, increasing⟩
      intro other inside
      rcases List.mem_cons.mp inside with rfl | later
      · exact before
      · exact String.lt_trans before (sorted.1 other later)
    · next behind =>
      split
      · exact increasing
      · next different =>
        refine List.pairwise_cons.mpr ⟨?_, ih sorted.2⟩
        intro other inside
        rcases (mem_insertKey key rest other).mp inside with rfl | later
        · apply Decidable.byContradiction
          intro above
          exact different (String.le_antisymm (String.not_lt.mp above) (String.not_lt.mp behind))
        · exact sorted.1 other later

namespace Source

variable {α : Type}

theorem foldl_insertKey (rows : List (Row α)) {keys : List String}
    (increasing : keys.Pairwise (· < ·)) :
    let all := rows.foldl (fun keys row => insertKey row.group keys) keys
    all.Pairwise (· < ·) ∧ ∀ key, key ∈ all ↔ (∃ row ∈ rows, row.group = key) ∨ key ∈ keys := by
  induction rows generalizing keys with
  | nil => exact ⟨increasing, fun key => ⟨.inr, fun either => either.elim (nofun) id⟩⟩
  | cons row rest ih =>
    obtain ⟨sorted, members⟩ := ih (insertKey_increasing row.group increasing)
    refine ⟨sorted, fun key => (members key).trans ?_⟩
    rw [mem_insertKey]
    constructor
    · rintro (⟨other, later, rfl⟩ | rfl | before)
      · exact .inl ⟨other, List.mem_cons_of_mem row later, rfl⟩
      · exact .inl ⟨row, List.mem_cons_self, rfl⟩
      · exact .inr before
    · rintro (⟨other, inside, rfl⟩ | before)
      · rcases List.mem_cons.mp inside with rfl | later
        · exact .inr (.inl rfl)
        · exact .inl ⟨other, later, rfl⟩
      · exact .inr (.inr before)

theorem groupKeys_increasing (source : Source α) : source.groupKeys.Pairwise (· < ·) :=
  (foldl_insertKey source.rows .nil).1

theorem groupKeys_nodup (source : Source α) : source.groupKeys.Nodup :=
  source.groupKeys_increasing.imp fun before => String.ne_of_lt before

theorem mem_groupKeys (source : Source α) (key : String) :
    key ∈ source.groupKeys ↔ ∃ row ∈ source.rows, row.group = key := by
  have members := (foldl_insertKey source.rows .nil).2 key
  exact members.trans (or_iff_left List.not_mem_nil)

theorem dimension_selectGroup (source : Source α) (key : String) :
    (source.selectGroup key).dimension = source.dimension := rfl

theorem rows_selectGroup (source : Source α) (key : String) :
    (source.selectGroup key).rows = source.rows.filter fun row => row.group = key := by
  unfold rows selectGroup
  dsimp only
  induction source.partitions with
  | nil => rfl
  | cons part rest ih =>
    rw [List.map_cons, List.filter_cons, List.flatMap_cons, List.filter_append, ← ih]
    split
    · rfl
    · next none =>
      have empty : (part.select key).rows = [] := by simpa using none
      change _ = (part.select key).rows ++ _
      rw [empty, List.nil_append]

theorem perm_flatMap_filter {keys : List String} (distinct : keys.Nodup) {rows : List (Row α)}
    (covered : ∀ row ∈ rows, row.group ∈ keys) :
    (keys.flatMap fun key => rows.filter fun row => row.group = key).Perm rows := by
  induction keys generalizing rows with
  | nil =>
    cases rows with
    | nil => exact .nil
    | cons row rest => exact absurd (covered row List.mem_cons_self) List.not_mem_nil
  | cons key rest ih =>
    obtain ⟨new, others⟩ := List.nodup_cons.mp distinct
    have later : ∀ row ∈ rows.filter (fun row => row.group ≠ key), row.group ∈ rest := by
      intro row inside
      obtain ⟨given, different⟩ := List.mem_filter.mp inside
      exact (List.mem_cons.mp (covered row given)).resolve_left (by simpa using different)
    have left := ih others later
    have same : (rest.flatMap fun other =>
        (rows.filter fun row => row.group ≠ key).filter fun row => row.group = other) =
        rest.flatMap fun other => rows.filter fun row => row.group = other := by
      apply List.flatMap_congr
      intro other later
      rw [List.filter_filter]
      congr 1
      funext row
      by_cases own : row.group = other
      · have apart : other ≠ key := fun equal => new (equal ▸ later)
        simp [own, apart]
      · simp [own]
    rw [same] at left
    rw [List.flatMap_cons]
    refine (left.append_left _).trans ?_
    have whole := List.filter_append_perm (fun row : Row α => decide (row.group = key)) rows
    simpa using whole

theorem sum_length_filter {keys : List String} (distinct : keys.Nodup) {rows : List (Row α)}
    (covered : ∀ row ∈ rows, row.group ∈ keys) :
    (keys.map fun key => (rows.filter fun row => row.group = key).length).sum = rows.length := by
  rw [← List.length_flatMap]
  exact (perm_flatMap_filter distinct covered).length_eq

theorem sum_selectGroup (source : Source α) (keep : Row α → Bool) :
    (source.groupKeys.map fun key =>
      ((source.selectGroup key).rows.filter keep).length).sum =
      (source.rows.filter keep).length := by
  have covered : ∀ row ∈ source.rows.filter keep, row.group ∈ source.groupKeys :=
    fun row inside => (source.mem_groupKeys row.group).mpr ⟨row, (List.mem_filter.mp inside).1, rfl⟩
  rw [← sum_length_filter source.groupKeys_nodup covered]
  congr 1
  apply List.map_congr_left
  intro key _
  rw [rows_selectGroup, List.filter_filter, List.filter_filter]
  congr 2
  funext row
  exact Bool.and_comm _ _

end Source

end ElasticNet
