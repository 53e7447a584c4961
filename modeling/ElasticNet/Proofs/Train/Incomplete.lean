import ElasticNet.Proofs.Train.Separate
import ElasticNet.Proofs.Train.Shares

namespace ElasticNet.Train

open Command

variable {α : Type} [Scalar α]

def unskipped (row : Report α) : Report α :=
  { row with skipped := 0 }

/-- How training by groups ends on a source, and without its incomplete rows: with errors of one
    kind and nothing written; or with a row for every key, those of groups without complete rows
    null, and without these the same rows, and then with the same path or both as an error because
    a group missed the target. -/
inductive GroupsAlike (source : Source α) (before otherBefore : TrainState α) :
    Except Error (TrainSummary α) × TrainState α →
    Except Error (TrainSummary α) × TrainState α → Prop
  | refused {error otherError : Error} {after otherAfter : TrainState α}
    (kind : otherError.kind = error.kind) (unwritten : after.reports = before.reports)
    (otherUnwritten : otherAfter.reports = otherBefore.reports) :
    GroupsAlike source before otherBefore (.error error, after) (.error otherError, otherAfter)
  | written {ending otherEnding : Except Error (TrainSummary α)} {after otherAfter : TrainState α}
    {rows : List (Report α)} (written : after.reports = before.reports ++ rows)
    (keyed : rows.map Report.group = source.groupKeys.map some)
    (otherWritten : otherAfter.reports = otherBefore.reports ++
      (rows.filter fun row => row.group.any source.hasComplete).map unskipped)
    (nulls : ∀ row ∈ rows, row.group.any source.hasComplete = false → row.isNull = true)
    (endings : EndAlike (fun summary other => other.path = summary.path) ending otherEnding)
    (fault : ∀ error, ending = .error error → error.kind = .convergence) :
    GroupsAlike source before otherBefore (ending, after) (otherEnding, otherAfter)

section Checks

variable (source : Source α)

theorem checkRows_dropIncomplete :
    EndAlike Eq (checkRows source) (checkRows source.dropIncomplete) := by
  have none : source.dropIncomplete.partitions.isEmpty = source.partitions.isEmpty :=
    List.isEmpty_map
  rw [checkRows_eq, checkRows_eq, source.completeCount_dropIncomplete, none,
    source.dimension_dropIncomplete]
  split
  · exact .error rfl
  · split
    · exact .error rfl
    · split
      · exact .error rfl
      · exact .ok rfl

theorem checkResponses_dropIncomplete (family : Family) :
    EndAlike Eq (checkResponses family source) (checkResponses family source.dropIncomplete) := by
  refine checkResponses_alike fun _ => ?_
  rw [source.rows_dropIncomplete, List.any_filter]
  congr 1
  funext row
  unfold isNoClass
  cases row.isComplete with
  | true => rfl
  | false => rfl

theorem measure_dropIncomplete : Scales.measure source.dropIncomplete =
    { Scales.measure source with incomplete := 0 } := by
  rw [Scales.measure_of_shares source.dimension_dropIncomplete source.shares_dropIncomplete,
    source.incompleteCount_dropIncomplete]

theorem layPath_dropIncomplete (options : TrainOptions α) (params : Params α) :
    (layPath options params (Scales.measure source.dropIncomplete)).1 =
      (layPath options params (Scales.measure source)).1 := by
  rw [measure_dropIncomplete]
  rfl

theorem plan_dropIncomplete (options : TrainOptions α) :
    Alike Plan.Alike (plan (some source) options) (plan (some source.dropIncomplete) options) := by
  have params : EndAlike SameButFolding
      (Params.parse options.params options.method : Except _ (Params α))
      (Params.parse options.params options.method) :=
    (EndAlike.of_eq rfl).mono (by rintro _ _ rfl; rfl)
  exact plan_alike params (fun _ => rfl) (checkRows_dropIncomplete source)
    (fun family _ => checkResponses_dropIncomplete source family)
    fun _ params => layPath_dropIncomplete source options params

end Checks

theorem trainAll_dropIncomplete {plan : Plan α} (paid : 0 < plan.options.budget)
    (told otherTold : TrainState α) :
    FitAlike (fun row other => other = unskipped row) told otherTold
      (Command.result (trainAll plan) told)
      (Command.result (trainAll { plan with source := plan.source.dropIncomplete }) otherTold) := by
  have dimension := plan.source.dimension_dropIncomplete
  have shares := plan.source.shares_dropIncomplete
  have complete := plan.source.complete_dropIncomplete
  refine trainAll_of_complete paid (complete_fittedSource dimension _ _ complete)
    (context_fitInput_of_shares dimension shares _ _ plan.base) (fun done => ?_) told otherTold
  rw [report_of_shares dimension shares _ _ rfl rfl rfl rfl plan.base,
    plan.source.incompleteCount_dropIncomplete]
  exact .of_map _ unskipped

omit [Scalar α] in
theorem eq_filter_of_forall₂ {keys : List String} {rows otherRows : List (Report α)}
    {Related Other : String → Report α → Prop} (all : List.Forall₂ Related keys rows)
    {keeps : String → Bool} (others : List.Forall₂ Other (keys.filter keeps) otherRows)
    {kept : Report α → Bool} {change : Report α → Report α}
    (keyed : ∀ key row, Related key row → kept row = keeps key)
    (changed : ∀ key row other, Related key row → Other key other → other = change row) :
    otherRows = (rows.filter kept).map change := by
  induction all generalizing otherRows with
  | nil =>
    cases others
    rfl
  | @cons key row keys rows related _ ih =>
    rw [List.filter_cons] at others
    rw [List.filter_cons, keyed key row related]
    split at others
    · next keep =>
      cases others with
      | cons own rest => rw [if_pos keep, List.map_cons, ← changed key row _ related own, ← ih rest]
    · next drop =>
      rw [if_neg drop]
      exact ih others

section Sure

variable {plan : Plan α} {Sound : Slots α → Prop} (sure : plan.Sure plan.source.dimension Sound)
  (sees : plan.pass.optimizer.SeesShares plan.source.dimension Sound)
include sure

omit sees in
theorem phase_of_incomplete {key : String} (none : plan.source.hasComplete key = false) :
    (lastState plan (some key) (plan.source.selectGroup key)).progress.phase =
      .failed .nothingToFit 1 := by
  refine phase_of_none sure (some key) (plan.source.dimension_selectGroup key)
    (not_not.mp fun filled => ?_)
  have found := (plan.source.hasComplete_iff key).mpr
    (completeCount_selectGroup_ne_zero.mp filled)
  rw [none] at found
  cases found

omit sees in
theorem group_of_endReport {key : String} {row : Report α}
    (own : endReport plan (some key) (plan.source.selectGroup key) = .ok row) :
    row.group = some key :=
  (reported_of_endReport sure (plan.source.dimension_selectGroup key) own).group

omit sees in
theorem isNull_of_incomplete {key : String} {row : Report α}
    (own : endReport plan (some key) (plan.source.selectGroup key) = .ok row)
    (none : plan.source.hasComplete key = false) : row.isNull = true := by
  have reported := reported_of_endReport sure (plan.source.dimension_selectGroup key) own
  rw [reported.isNull, phase_of_incomplete sure none]
  rfl

include sees

theorem progress_dropIncomplete (key : String) :
    (lastState plan (some key) (plan.source.dropIncomplete.selectGroup key)).progress =
      (lastState plan (some key) (plan.source.selectGroup key)).progress := by
  exact (lastState_of_shares sure sees (some key) (plan.source.dimension_selectGroup key)
    (plan.source.dropIncomplete.dimension_selectGroup key)
    (plan.source.shares_selectGroup_dropIncomplete key)).1

theorem endReport_dropIncomplete (key : String) :
    endReport plan (some key) (plan.source.dropIncomplete.selectGroup key) =
      (endReport plan (some key) (plan.source.selectGroup key)).map unskipped := by
  rw [endReport_of_shares sure sees (some key) (plan.source.dimension_selectGroup key)
    (plan.source.dropIncomplete.dimension_selectGroup key)
    (plan.source.shares_selectGroup_dropIncomplete key),
    plan.source.incompleteCount_selectGroup_dropIncomplete]
  rfl

theorem missedTarget_dropIncomplete {last otherLast : GroupsState α}
    (ended : Groups.EndedAlone (groupsOf plan) (plan.source.groupKeys.map (groupEntry plan)) last)
    (otherEnded : Groups.EndedAlone (groupsOf { plan with source := plan.source.dropIncomplete })
      (plan.source.dropIncomplete.groupKeys.map
        (groupEntry { plan with source := plan.source.dropIncomplete })) otherLast) :
    missedTarget otherLast = [] ↔ missedTarget last = [] := by
  rw [missedTarget_eq_nil_iff_phases ended, missedTarget_eq_nil_iff_phases otherEnded,
    plan.source.groupKeys_dropIncomplete]
  constructor
  · intro reaches key given position missed
    cases filled : plan.source.hasComplete key with
    | true =>
      refine reaches key (List.mem_filter.mpr ⟨given, filled⟩) position ?_
      rw [← progress_dropIncomplete sure sees key] at missed
      exact missed
    | false =>
      rw [phase_of_incomplete sure filled] at missed
      cases missed
  · intro reaches key given position missed
    change (lastState plan (some key) _).progress.phase = _ at missed
    rw [progress_dropIncomplete sure sees key] at missed
    exact reaches key (List.mem_filter.mp given).1 position missed

theorem reports_dropIncomplete {rows otherRows : List (Report α)}
    (given : List.Forall₂
      (fun key row => endReport plan (some key) (plan.source.selectGroup key) = .ok row)
      plan.source.groupKeys rows)
    (otherGiven : List.Forall₂
      (fun key row =>
        endReport plan (some key) (plan.source.dropIncomplete.selectGroup key) = .ok row)
      plan.source.dropIncomplete.groupKeys otherRows) :
    otherRows = (rows.filter fun row => row.group.any plan.source.hasComplete).map unskipped := by
  rw [plan.source.groupKeys_dropIncomplete] at otherGiven
  refine eq_filter_of_forall₂ given otherGiven (fun key row own => ?_)
    fun key row other own later => ?_
  · rw [group_of_endReport sure own]
    rfl
  · have same := endReport_dropIncomplete sure sees key
    rw [own] at same
    exact Except.ok.inj (later.symm.trans same)

theorem trainGroups_dropIncomplete {before otherBefore told otherTold : TrainState α}
    (unwritten : told.reports = before.reports)
    (otherUnwritten : otherTold.reports = otherBefore.reports) :
    GroupsAlike plan.source before otherBefore (Command.result (trainGroups plan) told)
      (Command.result (trainGroups { plan with source := plan.source.dropIncomplete })
        otherTold) := by
  have otherSure : Plan.Sure { plan with source := plan.source.dropIncomplete }
      plan.source.dimension Sound :=
    ⟨sure.reliable, sure.tested, sure.base, sure.paid⟩
  obtain ⟨last, rows, after, _, ended, given, written, ends⟩ := trainGroups_outcome sure rfl told
  obtain ⟨otherLast, otherRows, otherAfter, _, otherEnded, otherGiven, otherWritten, otherEnds⟩ :=
    trainGroups_outcome otherSure rfl otherTold
  have kept := reports_dropIncomplete sure sees given otherGiven
  have nulls : ∀ row ∈ rows, row.group.any plan.source.hasComplete = false →
      row.isNull = true := by
    intro row inside incomplete
    obtain ⟨key, _, own⟩ := exists_of_forall₂ given inside
    rw [group_of_endReport sure own] at incomplete
    exact isNull_of_incomplete sure own incomplete
  have groups : rows.map Report.group = plan.source.groupKeys.map some :=
    map_eq_of_forall₂ given fun _ _ => group_of_endReport sure
  have misses := missedTarget_dropIncomplete sure sees ended otherEnded
  rw [unwritten] at written
  rw [otherUnwritten, kept] at otherWritten
  unfold Command.result
  rw [ends, otherEnds]
  by_cases reaches : missedTarget last = []
  · rw [if_pos reaches, if_pos (misses.mpr reaches)]
    exact .written written groups otherWritten nulls (.ok rfl) nofun
  · rw [if_neg reaches, if_neg fun other => reaches (misses.mp other)]
    refine .written written groups otherWritten nulls (.error rfl) ?_
    rintro _ ⟨⟩
    rfl

end Sure

/-- Incomplete rows are not seen by any fit. The path is the same without them; training one model
    fails with the same kind of error or writes the same row; and training by groups comes to the
    same rows, except for those of groups without complete rows, and misses the target or not as it
    did. -/
theorem incomplete_rows_unseen [Scalar.KeepsCounts α] [Scalar.CountsUp α] (source : Source α)
    (options : TrainOptions α) (state otherState : TrainState α) :
    EndAlike (fun plan other => other.path = plan.path)
      (Command.result (plan (some source) options) state).1
      (Command.result (plan (some source.dropIncomplete) options) otherState).1 ∧
    (options.grouped = false →
      FitAlike (fun row other => other = unskipped row) state otherState
        (Command.result (train (some source) options) state)
        (Command.result (train (some source.dropIncomplete) options) otherState)) ∧
    (options.grouped = true → Fista.slotCount source.dimension < UInt32.size →
      GroupsAlike source state otherState
        (Command.result (train (some source) options) state)
        (Command.result (train (some source.dropIncomplete) options) otherState)) := by
  have plans := plan_dropIncomplete source options
  refine ⟨(plans state otherState).mono fun _ _ alike => alike.path, fun single => ?_,
    fun grouped fits => ?_⟩
  · refine train_alike single single plans fun alike laid otherLaid => ?_
    obtain rfl := eq_of_laid alike laid otherLaid
    obtain ⟨_, _, _, _, _, _, ⟨⟩, checked, rfl⟩ := plan_eq_ok laid
    have paid := (checkOptions_eq_ok_iff.mp checked.optionsPass).paid
    exact trainAll_dropIncomplete (Nat.pos_of_ne_zero paid) _ _
  · refine train_related rfl plans .refused fun alike laid otherLaid unwritten otherUnwritten => ?_
    obtain rfl := eq_of_laid alike laid otherLaid
    obtain ⟨_, family, method, _, _, _, ⟨⟩, checked, rfl⟩ := plan_eq_ok laid
    obtain ⟨wide, _⟩ := checkRows_eq_ok checked.rowsPass
    obtain ⟨Sound, reliable, sees⟩ :=
      Optimizer.exists_seeing (α := α) family method (Nat.pos_of_ne_zero wide) fits
    rw [grouped]
    exact trainGroups_dropIncomplete (checked.sureOf reliable) sees unwritten otherUnwritten

theorem halfMissing_incomplete_unseen : Fista.slotCount halfMissing.dimension < UInt32.size ∧
    GroupsAlike halfMissing .start .start
      (Command.result (train (some halfMissing) halfMissingOptions) .start)
      (Command.result (train (some halfMissing.dropIncomplete) halfMissingOptions) .start) ∧
    FitAlike (fun row other => other = unskipped row) .start .start
      (Command.result (train (some halfMissing) halfMissingOptions.ungrouped) .start)
      (Command.result (train (some halfMissing.dropIncomplete) halfMissingOptions.ungrouped)
        .start) := by
  have fits : Fista.slotCount halfMissing.dimension < UInt32.size := by decide
  obtain ⟨_, _, groups⟩ := incomplete_rows_unseen halfMissing halfMissingOptions .start .start
  obtain ⟨_, all, _⟩ :=
    incomplete_rows_unseen halfMissing halfMissingOptions.ungrouped .start .start
  exact ⟨fits, groups rfl fits, all rfl⟩

end ElasticNet.Train
