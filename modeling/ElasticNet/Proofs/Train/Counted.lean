import ElasticNet.Proofs.Run.Counted
import ElasticNet.Proofs.Train.Rows

namespace ElasticNet.Train

open Command

variable {α : Type} [Scalar α]

/-- How training along a plan ends: with runs that have ended and counted their rows, the one run on
    all rows or one for the rows of every key, from which it settles what it answers. -/
structure DrivesCounted (family : Family) (method : Method) (plan : Plan α) (told : TrainState α)
    (ending : EStateM.Result Error (TrainState α) (TrainSummary α)) : Prop where
  optimizer : plan.pass.optimizer = Optimizer.ofMethod family method
  single : plan.options.grouped = false → ∃ last,
    (fitRun plan none plan.source).toEnd .start = .ok () last ∧
    (fitRun plan none plan.source).CountsRows family method last ∧
    ending = settleAll plan (.ok (), last) told
  grouped : plan.options.grouped = true → ∃ inputs last,
    groupsRun plan .start = .ok inputs last ∧ last.keys.Perm plan.source.groupKeys ∧
    (∀ member ∈ last.members,
      member.run = fitRun plan (some member.key) (plan.source.selectGroup member.key) ∧
      member.run.CountsRows family method (last.view member)) ∧
    ending = settleGroups plan (.ok inputs) last told

section Sure

variable [Scalar.AddsCounts α] {plan : Plan α} {Sound : Slots α → Prop}
  (sure : plan.Sure plan.source.dimension Sound) {family : Family} {method : Method}
  (own : plan.pass.optimizer = Optimizer.ofMethod family method)
  (features : plan.source.dimension ≠ 0)
  (fits : Fista.slotCount plan.source.dimension < UInt32.size)
  (few : plan.source.rowCount < 2 ^ 53)
include sure own features fits few

theorem countsRows_lastState (group : Option String) :
    (fitRun plan group (rowsOf plan.source group)).CountsRows family method
      (lastState plan group (rowsOf plan.source group)) := by
  have safe := sure.fitRun group (dimension_rowsOf plan.source group)
  have known := totalRows_fitInput (rowsOf plan.source group) plan.base plan.options.standardize
    plan.center
  refine safe.countsRows own (Nat.pos_of_ne_zero features) fits known ?_
  refine Nat.lt_of_le_of_lt (Nat.le_trans (List.length_filter_le _ _) ?_) few
  change (fittedSource (rowsOf plan.source group) _ _).rowCount ≤ _
  rw [rowCount_fittedSource]
  exact rowCount_rowsOf_le plan.source group

theorem countsRows_member {last : GroupsState α}
    (ended : Groups.EndedAlone (groupsOf plan) (plan.source.groupKeys.map (groupEntry plan)) last)
    {member : Member α} (inside : member ∈ last.members) :
    member.run = fitRun plan (some member.key) (plan.source.selectGroup member.key) ∧
      member.run.CountsRows family method (last.view member) := by
  obtain ⟨entry, given, rfl⟩ := List.mem_map.mp (ended.members.mem_iff.mp inside)
  obtain ⟨key, _, rfl⟩ := List.mem_map.mp given
  refine ⟨rfl, ?_⟩
  exact (countsRows_lastState sure own features fits few (some key)).congr rfl
    (ended.recorded _ given)

theorem drivesCounted (told : TrainState α) : DrivesCounted family method plan told
    ((if plan.options.grouped then trainGroups plan else trainAll plan) told) where
  optimizer := own
  single single := by
    have ended := toEnd_fitRun sure none rfl
    refine ⟨_, ended, countsRows_lastState sure own features fits few none, ?_⟩
    rw [single, if_neg Bool.false_ne_true, trainAll_eq sure.paid]
    unfold Command.result
    rw [ended]
  grouped grouped := by
    obtain ⟨last, runs, ended⟩ := groupsRun_eq_ok sure rfl
    refine ⟨_, last, runs, ?_, fun _ => countsRows_member sure own features fits few ended, ?_⟩
    · have keys := ended.members.map Member.key
      rw [List.map_map, List.map_map] at keys
      exact keys.trans (.of_eq (List.map_id _))
    · rw [grouped, if_pos rfl, trainGroups_eq]
      unfold Command.result
      rw [runs]

end Sure

/-- Training that is laid out drives runs that count their rows. In every state that one of them has
    recorded after its baseline, the number of rows that it has been told and the number that it has
    seen in the last pass are the number of complete rows of its source, and no count that a pass
    divides by is zero. There are no such rows if and only if the run fails for that with its first
    update. Words can count the slots of a state, and numbers the rows. -/
theorem passes_count_rows [Scalar.AddsCounts α] (source? : Option (Source α))
    (options : TrainOptions α) (state : TrainState α)
    (few : ∀ source, source? = some source → source.rowCount < 2 ^ 53)
    (fits : ∀ source, source? = some source → Fista.slotCount source.dimension < UInt32.size) :
    (∃ error after, plan source? options state = .error error after ∧
      train source? options state = .error error after) ∨
    ∃ laidOut told family method, plan source? options state = .ok laidOut told ∧
      source? = some laidOut.source ∧ laidOut.options = options ∧
      DrivesCounted family method laidOut told (train source? options state) := by
  cases laid : plan source? options state with
  | error error after => exact .inl ⟨error, after, rfl, bind_of_error laid⟩
  | ok laidOut told =>
    obtain ⟨source, family, method, params, path, test, rfl, checked, rfl⟩ := plan_eq_ok laid
    obtain ⟨features, _⟩ := checkRows_eq_ok checked.rowsPass
    obtain ⟨Sound, sure⟩ := checked.sure (fits source rfl)
    refine .inr ⟨_, told, family, method, rfl, rfl, rfl, ?_⟩
    unfold train
    rw [bind_of_ok laid]
    exact drivesCounted sure rfl features (fits source rfl) (few source rfl) told

theorem passes_count_rows_halfMissing : halfMissing.rowCount < 2 ^ 53 ∧
    Fista.slotCount halfMissing.dimension < UInt32.size ∧
    ∃ laidOut told family method, plan (some halfMissing) halfMissingOptions .start =
        .ok laidOut told ∧
      DrivesCounted family method laidOut told
        (train (some halfMissing) halfMissingOptions .start) := by
  have few : halfMissing.rowCount < 2 ^ 53 := by decide
  have fits : Fista.slotCount halfMissing.dimension < UInt32.size := by decide
  refine ⟨few, fits, ?_⟩
  obtain ⟨laidOut, told, laid⟩ := Command.exists_of_result_isOk
    (show (Command.result (plan (some halfMissing) halfMissingOptions) .start).1.isOk = true by
      decide +kernel)
  rcases passes_count_rows (some halfMissing) halfMissingOptions .start
    (by rintro _ ⟨⟩; exact few) (by rintro _ ⟨⟩; exact fits) with
    ⟨error, after, refused, _⟩ | drives
  · cases laid.symm.trans refused
  · obtain ⟨laidOut, told, family, method, given, _, _, counted⟩ := drives
    exact ⟨laidOut, told, family, method, given, counted⟩

end ElasticNet.Train
