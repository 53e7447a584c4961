import ElasticNet.Proofs.ByteOrder
import ElasticNet.Proofs.Train.Outcome

namespace ElasticNet.Train

variable {α : Type} [Scalar α]

/-- Reports that account for all rows of a source, and for those with missing values. -/
structure AccountsFor (source : Source α) (rows : List (Report α)) : Prop where
  counted : (rows.map fun row => row.processed + row.skipped).sum = source.rowCount
  skipped : (rows.map Report.skipped).sum = source.incompleteCount

/-- The reports of a grouped run: one for every key that a row has, in the order of the bytes of the
    keys, and null where the run of the group failed. -/
structure ReportsGroups (source : Source α) (last : GroupsState α) (rows : List (Report α)) :
    Prop where
  keyed : ∃ keys : List String, rows.map Report.group = keys.map some ∧
    keys.Pairwise (fun key later => utf8Bytes key < utf8Bytes later) ∧
    ∀ key, key ∈ keys ↔ ∃ row ∈ source.rows, row.group = key
  nulls : ∀ row ∈ rows, ∃ key member, row.group = some key ∧ last.member key = .ok member ∧
    row.isNull = member.progress.phase.isFailed
  accounts : AccountsFor source rows

def MissesTarget (last : GroupsState α) : Prop :=
  ∃ key member position, last.member key = .ok member ∧
    member.progress.phase = .failed .targetNotReached position

section Endings

variable (source? : Option (Source α)) (options : TrainOptions α) (state : TrainState α)

/-- How training one model ends: as an error with nothing written, or with the one row of a run that
    did not fail. -/
inductive EndsSingle : EStateM.Result Error (TrainState α) (TrainSummary α) → Prop
  | failed {error : Error} {after : TrainState α} (unwritten : after.reports = state.reports) :
    EndsSingle (.error error after)
  | reported {plan : Plan α} {told after : TrainState α} {summary : TrainSummary α} {row : Report α}
    (laid : Train.plan source? options state = .ok plan told) (given : source? = some plan.source)
    (written : after.reports = state.reports ++ [row]) (filled : row.isNull = false)
    (driven : (Command.result (fitRun plan none plan.source).toEnd .start).2.progress.phase.isFailed
      = row.isNull)
    (accounts : AccountsFor plan.source [row]) : EndsSingle (.ok summary after)

structure WritesGroups (after : TrainState α) (last : GroupsState α) (rows : List (Report α)) :
    Prop where
  laid : ∃ plan told inputs, Train.plan source? options state = .ok plan told ∧
    source? = some plan.source ∧ groupsRun plan .start = .ok inputs last ∧
    ReportsGroups plan.source last rows
  written : after.reports = state.reports ++ rows

/-- How training by groups ends: as an error in what was given, with nothing written; or with all
    groups written, as an error if one of them missed the target and with their numbers if not. -/
inductive EndsGrouped : EStateM.Result Error (TrainState α) (TrainSummary α) → Prop
  | refused {error : Error} {after : TrainState α}
    (fault : error.kind ∈ [ErrorKind.parameter, .data, .invalidArgument])
    (unwritten : after.reports = state.reports) : EndsGrouped (.error error after)
  | missed {error : Error} {after : TrainState α} {last : GroupsState α} {rows : List (Report α)}
    (fault : error.kind = .convergence)
    (writes : WritesGroups source? options state after last rows)
    (misses : MissesTarget last) : EndsGrouped (.error error after)
  | reported {summary : TrainSummary α} {after : TrainState α} {last : GroupsState α}
    {rows : List (Report α)} (writes : WritesGroups source? options state after last rows)
    (reaches : ¬ MissesTarget last) (groups : summary.groups = rows.length)
    (failed : summary.failed = (rows.filter Report.isNull).length) :
    EndsGrouped (.ok summary after)

end Endings

theorem accountsFor_single {source : Source α} {group : Option String} {progress : Progress}
    {row : Report α} (reported : Reported group progress (Scales.measure source) row) :
    AccountsFor source [row] where
  counted := by
    rw [List.map_singleton, List.sum_singleton, reported.processed, reported.skipped,
      Scales.complete_measure, Scales.incomplete_measure]
    exact source.completeCount_add_incompleteCount
  skipped := by
    rw [List.map_singleton, List.sum_singleton, reported.skipped, Scales.incomplete_measure]

section Related

variable {β γ τ : Type} {Related : β → γ → Prop} {list : List β} {other : List γ}

theorem map_eq_of_forall₂ (all : List.Forall₂ Related list other) {read : γ → τ} {given : β → τ}
    (same : ∀ x y, Related x y → read y = given x) : other.map read = list.map given := by
  induction all with
  | nil => rfl
  | cons first _ ih => rw [List.map_cons, List.map_cons, same _ _ first, ih]

theorem exists_of_forall₂ (all : List.Forall₂ Related list other) {y : γ} (inside : y ∈ other) :
    ∃ x ∈ list, Related x y := by
  induction all with
  | nil => cases inside
  | cons first _ ih =>
    rcases List.mem_cons.mp inside with rfl | later
    · exact ⟨_, List.mem_cons_self, first⟩
    · obtain ⟨x, given, related⟩ := ih later
      exact ⟨x, List.mem_cons_of_mem _ given, related⟩

end Related

def ReportedGroup (plan : Plan α) (key : String) (row : Report α) : Prop :=
  Reported (some key) (lastState plan (some key) (plan.source.selectGroup key)).progress
    (Scales.measure (plan.source.selectGroup key)) row

omit [Scalar α] in
theorem missedTarget_eq_nil (last : GroupsState α) : missedTarget last = [] ↔
    ∀ member ∈ last.members, ∀ position,
      member.progress.phase ≠ .failed .targetNotReached position := by
  rw [missedTarget, List.map_eq_nil_iff, List.filter_eq_nil_iff]
  constructor
  · intro none member inside position failed
    apply none member inside
    rw [failed]
  · intro reaches member inside missed
    cases phase : member.progress.phase with
    | failed failure position =>
      rw [phase] at missed
      cases failure with
      | targetNotReached => exact reaches member inside position phase
      | diverged _ _ | nothingToFit => cases missed
    | start | atPosition _ _ | done _ _ =>
      rw [phase] at missed
      cases missed

section Groups

variable {plan : Plan α} {rows : List (Report α)}
  (reported : List.Forall₂ (ReportedGroup plan) plan.source.groupKeys rows)
include reported

theorem accountsFor_groups : AccountsFor plan.source rows where
  counted := by
    have counts : (rows.map fun row => row.processed + row.skipped) =
        plan.source.groupKeys.map fun key => (plan.source.selectGroup key).rowCount := by
      apply map_eq_of_forall₂ reported
      intro key row own
      rw [own.processed, own.skipped, Scales.complete_measure, Scales.incomplete_measure]
      exact (plan.source.selectGroup key).completeCount_add_incompleteCount
    have whole := plan.source.sum_selectGroup fun _ => true
    simp only [List.filter_true] at whole
    rw [counts]
    exact whole
  skipped := by
    have counts : rows.map Report.skipped =
        plan.source.groupKeys.map fun key => (plan.source.selectGroup key).incompleteCount := by
      apply map_eq_of_forall₂ reported
      intro key row own
      rw [own.skipped, Scales.incomplete_measure]
    rw [counts]
    exact plan.source.sum_selectGroup fun row => !row.isComplete

variable {last : GroupsState α}
  (ended : Groups.EndedAlone (groupsOf plan) (plan.source.groupKeys.map (groupEntry plan)) last)
include ended

theorem reportsGroups : ReportsGroups plan.source last rows where
  keyed := by
    refine ⟨plan.source.groupKeys, map_eq_of_forall₂ reported fun _ _ own => own.group, ?_,
      plan.source.mem_groupKeys⟩
    exact plan.source.groupKeys_increasing.imp utf8Bytes_lt
  nulls := by
    intro row inside
    obtain ⟨key, given, own⟩ := exists_of_forall₂ reported inside
    obtain ⟨member, found, _, progress, _⟩ := endedAlone_member ended given
    refine ⟨key, member, own.group, found, ?_⟩
    rw [own.isNull, progress]
  accounts := accountsFor_groups reported

theorem failedCount_eq_nulls : last.failedCount = (rows.filter Report.isNull).length := by
  have nulls : rows.map Report.isNull = plan.source.groupKeys.map fun key =>
      (lastState plan (some key) (plan.source.selectGroup key)).progress.phase.isFailed :=
    map_eq_of_forall₂ reported fun key row own => own.isNull
  have counted := congrArg (fun list => (list.filter id).length) nulls
  rw [List.filter_map, List.filter_map, List.length_map, List.length_map] at counted
  refine Eq.trans ?_ counted.symm
  unfold GroupsState.failedCount
  rw [(ended.members.filter _).length_eq, List.map_map, List.filter_map, List.length_map]
  rfl

omit reported in
theorem missedTarget_eq_nil_iff : missedTarget last = [] ↔ ¬ MissesTarget last := by
  rw [missedTarget_eq_nil]
  constructor
  · rintro none ⟨key, member, position, found, failed⟩
    have inside : member ∈ last.members := by
      unfold GroupsState.member at found
      split at found
      · next given =>
        cases found
        exact List.mem_of_find?_eq_some given
      · cases found
    exact none member inside position failed
  · intro reaches member inside position failed
    obtain ⟨entry, given, rfl⟩ := List.mem_map.mp (ended.members.mem_iff.mp inside)
    exact reaches ⟨entry.key, _, position, ended.member entry given, failed⟩

omit reported in
theorem missedTarget_eq_nil_iff_phases : missedTarget last = [] ↔
    ∀ key ∈ plan.source.groupKeys, ∀ position,
      (lastState plan (some key) (plan.source.selectGroup key)).progress.phase ≠
        .failed .targetNotReached position := by
  rw [missedTarget_eq_nil]
  constructor
  · intro reaches key given position failed
    have inside : (groupsOf plan).lastOf (groupEntry plan key) ∈ last.members :=
      ended.members.mem_iff.mpr (List.mem_map_of_mem (List.mem_map_of_mem given))
    exact reaches _ inside position failed
  · intro reaches member inside position failed
    obtain ⟨entry, among, rfl⟩ := List.mem_map.mp (ended.members.mem_iff.mp inside)
    obtain ⟨key, given, rfl⟩ := List.mem_map.mp among
    exact reaches key given position failed

end Groups

theorem endsSingle {source : Source α} {options : TrainOptions α} {state told : TrainState α}
    {plan : Plan α} {Sound : Slots α → Prop} (sure : plan.Sure source.dimension Sound)
    (own : plan.source = source) (laid : Train.plan (some source) options state = .ok plan told)
    (unwritten : told.reports = state.reports) :
    EndsSingle (some source) options state (trainAll plan told) := by
  subst own
  cases failed : (lastState plan none plan.source).progress.phase.isFailed with
  | false =>
    obtain ⟨row, after, given, ends, written⟩ := trainAll_of_done sure rfl failed told
    have reported := reported_of_endReport sure rfl given
    rw [ends]
    refine .reported laid rfl (written.trans (by rw [unwritten])) (reported.isNull.trans failed) ?_
      (accountsFor_single reported)
    unfold Command.result
    rw [toEnd_fitRun sure none rfl]
    exact reported.isNull.symm
  | true =>
    cases phase : (lastState plan none plan.source).progress.phase with
    | failed failure position =>
      obtain ⟨after, ends, kept⟩ := trainAll_of_failed sure rfl phase told
      rw [ends]
      exact .failed (kept.trans unwritten)
    | start | atPosition _ _ | done _ _ =>
      rw [phase] at failed
      cases failed

theorem endsGrouped {source : Source α} {options : TrainOptions α} {state told : TrainState α}
    {plan : Plan α} {Sound : Slots α → Prop} (sure : plan.Sure source.dimension Sound)
    (own : plan.source = source) (laid : Train.plan (some source) options state = .ok plan told)
    (unwritten : told.reports = state.reports) :
    EndsGrouped (some source) options state (trainGroups plan told) := by
  subst own
  obtain ⟨last, rows, after, runs, ended, given, written, ends⟩ := trainGroups_outcome sure rfl told
  have reported : List.Forall₂ (ReportedGroup plan) plan.source.groupKeys rows :=
    given.imp fun key _ => reported_of_endReport sure (plan.source.dimension_selectGroup key)
  have writes : WritesGroups (some plan.source) options state after last rows :=
    ⟨⟨plan, told, _, laid, rfl, runs, reportsGroups reported ended⟩,
      written.trans (by rw [unwritten])⟩
  rw [ends]
  split
  · next reaches =>
    exact .reported writes ((missedTarget_eq_nil_iff ended).mp reaches) given.length_eq
      (failedCount_eq_nulls reported ended)
  · next missed =>
    refine .missed rfl writes ?_
    by_contra reaches
    exact missed ((missedTarget_eq_nil_iff ended).mpr reaches)

/-- Training keeps to its contract on all rows and by groups, for every source whose states a word
    can count the slots of. -/
theorem train_keeps_contract [Scalar.KeepsCounts α] (source? : Option (Source α))
    (options : TrainOptions α)
    (state : TrainState α) (fits : ∀ source, source? = some source →
      Fista.slotCount source.dimension < UInt32.size) :
    (options.grouped = false → EndsSingle source? options state (train source? options state)) ∧
    (options.grouped = true → EndsGrouped source? options state (train source? options state)) := by
  have leaves := plan_leaves source? options
  cases laid : Train.plan source? options state with
  | error error after =>
    obtain ⟨fault, unwritten⟩ := leaves.of_error laid
    have ends : train source? options state = .error error after := Command.bind_of_error laid
    rw [ends]
    exact ⟨fun _ => .failed unwritten, fun _ => .refused fault unwritten⟩
  | ok plan told =>
    have unwritten := leaves.of_ok laid
    obtain ⟨source, family, method, params, path, test, rfl, checked, rfl⟩ := plan_eq_ok laid
    obtain ⟨Sound, sure⟩ := checked.sure (fits source rfl)
    unfold train
    rw [Command.bind_of_ok laid]
    refine ⟨fun single => ?_, fun grouped => ?_⟩
    · rw [single]
      exact endsSingle sure rfl laid unwritten
    · rw [grouped]
      exact endsGrouped sure rfl laid unwritten

def halfMissing : Source Float where
  dimension := 1
  partitions := [⟨1, [⟨[1], 2, "a"⟩, ⟨[1 / 0], 1, "b"⟩, ⟨[2], 4, "a"⟩], by simp⟩]
  uniform := by simp

def halfMissingOptions : TrainOptions Float :=
  { defaultOptions with
    method := "fista"
    grouped := true
    budget := 2
    params := "warmup = true, warmup_lambdas = [1, 0.5]" }

theorem halfMissing_keeps_contract : Fista.slotCount halfMissing.dimension < UInt32.size ∧
    EndsGrouped (some halfMissing) halfMissingOptions .start
      (train (some halfMissing) halfMissingOptions .start) := by
  have fits : Fista.slotCount halfMissing.dimension < UInt32.size := by decide
  refine ⟨fits, (train_keeps_contract (some halfMissing) halfMissingOptions .start ?_).2 rfl⟩
  rintro _ ⟨⟩
  exact fits

end ElasticNet.Train
