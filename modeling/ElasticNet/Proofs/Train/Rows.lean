import ElasticNet.Proofs.Train.Contract
import ElasticNet.Proofs.Vouching

namespace ElasticNet

theorem Failure.message_ne_empty (failure : Failure) : failure.message ≠ "" := by
  cases failure with
  | targetNotReached | nothingToFit => decide
  | diverged strength iteration =>
    unfold message toError Error.message
    simp

namespace Train

open Command

variable {α : Type} [Scalar α]

structure Fitted (path : Path α) (budget : Nat) (row : Report α) : Prop where
  position : row.position = path.size
  strength : Scalar.Same row.model.strength path.target
  covers : path.size ≤ row.iterations
  within : row.iterations ≤ budget
  completed : row.model.status = .completed ↔ row.converged = true
  spent : row.converged = false → row.iterations = budget

/-- What a row promises that was written along a path. -/
structure Promises (options : TrainOptions α) (path : Path α) (row : Report α) : Prop where
  fitted : row.isNull = false → Fitted path options.budget row
  finite : row.isNull = false → options.standardize = false →
    row.model.IsFinite ∧ ∀ features, row.model.Predicts features
  null : row.isNull = true → row.model = .empty ∧ row.message ≠ ""

theorem exists_of_finalModel {options : TrainOptions α} {center : Bool} {run : Run α}
    {state : RunState α} {input : FitInput α} {converged : Bool} {slots : Slots α}
    (current : run.current state = .ok slots) {model : Model α}
    (given : finalModel options center run state input converged = .ok model) :
    ∃ spreads fitted, run.pass.optimizer.model slots spreads options.tolerance = .ok fitted ∧
      (let ended := { fitted with status := if converged then .completed else .inProcess }
      if options.standardize then input.scales.restore center ended = .ok model
      else model = ended) := by
  unfold finalModel at given
  dsimp only at given
  rw [current, ok_bind] at given
  cases fitted : run.pass.optimizer.model slots (if options.standardize then
      Vector.ones input.scales.spreads.length else input.scales.spreads) options.tolerance with
  | error error =>
    rw [fitted] at given
    cases given
  | ok fit =>
    refine ⟨_, fit, fitted, ?_⟩
    rw [fitted, ok_bind] at given
    dsimp only
    split
    · next units =>
      rw [if_pos units] at given
      exact given
    · next units =>
      rw [if_neg units] at given
      cases given
      rfl

theorem restore_keeps {scales : Scales α} {centered : Bool} {model restored : Model α}
    (given : scales.restore centered model = .ok restored) :
    restored.strength = model.strength ∧ restored.status = model.status := by
  unfold Scales.restore at given
  split at given
  · cases given
    exact ⟨rfl, rfl⟩
  · split at given
    · cases given
    · cases given
      exact ⟨rfl, rfl⟩

section Sure

variable {plan : Plan α} {dimension : Nat} {Sound : Slots α → Prop}
  (sure : plan.Sure dimension Sound) (vouches : plan.pass.optimizer.Vouches dimension Sound)
  (group : Option String) {source : Source α} (fitting : source.dimension = dimension)
include sure vouches fitting

theorem promises_of_done {position : Nat} {converged : Bool}
    (done : (lastState plan group source).progress.phase = .done position converged)
    {row : Report α} (given : endReport plan group source = .ok row) :
    Promises plan.options plan.path row := by
  have safe := sure.fitRun group fitting
  have ended := safe.ended
  have through := ended.through done
  have current : (fitRun plan group source).current (lastState plan group source) =
      .ok ((fitRun plan group source).stateAfter (fitRun plan group source).updatesAlone) :=
    ended.current
  have spreads : (fitInput source plan.base plan.options.standardize
      plan.center).scales.spreads.length = dimension :=
    (Scales.length_spreads source).trans fitting
  obtain ⟨model, final⟩ := finalModel_eq_ok sure.reliable plan.options plan.center rfl current
    (safe.sound_stateAfter _) spreads converged
  have counted : (lastState plan group source).progress.iterations =
      (fitRun plan group source).updatesAlone := ended.walked.iterations
  cases given.symm.trans (report_of_done done final)
  obtain ⟨_, fitted, own, units⟩ := exists_of_finalModel current final
  obtain ⟨strength, finite⟩ := safe.vouched vouches done own
  have kept : model.strength = fitted.strength ∧
      model.status = if converged then .completed else .inProcess := by
    dsimp only at units
    split at units
    · exact restore_keeps units
    · rw [units]
      exact ⟨rfl, rfl⟩
  refine ⟨fun _ => ⟨through.target, ?_, ?_, ?_, ?_, ?_⟩, ?_, nofun⟩
  · rw [kept.1]
    exact strength
  · rw [counted]
    exact through.covers
  · rw [counted]
    exact ended.bounded
  · rw [kept.2]
    cases converged with
    | true => exact ⟨fun _ => rfl, fun _ => rfl⟩
    | false => exact ⟨nofun, nofun⟩
  · rw [counted]
    exact through.spent
  · intro _ plain
    rw [plain] at units
    have same : model = { fitted with status := _ } := units
    have sound : model.IsFinite := by
      rw [same]
      exact ⟨finite.coefficients, finite.intercept, finite.logLikelihood⟩
    exact ⟨sound, sound.predicts⟩

theorem promises_of_endReport {row : Report α} (given : endReport plan group source = .ok row) :
    Promises plan.options plan.path row := by
  have terminal : (lastState plan group source).progress.phase.isTerminal = true :=
    (sure.fitRun group fitting).ended.stops.isTerminal
  cases phase : (lastState plan group source).progress.phase with
  | start | atPosition _ _ =>
    rw [phase] at terminal
    cases terminal
  | done position converged => exact promises_of_done sure vouches group fitting phase given
  | failed failure position =>
    cases given.symm.trans (report_of_failed _ _ _ phase _)
    exact ⟨nofun, nofun, fun _ => ⟨rfl, failure.message_ne_empty⟩⟩

end Sure

/-- The rows that the run of a group is fitted to; all of them where there are no groups. -/
def rowsOf (source : Source α) : Option String → Source α
  | none => source
  | some key => source.selectGroup key

omit [Scalar α] in
theorem dimension_rowsOf (source : Source α) (group : Option String) :
    (rowsOf source group).dimension = source.dimension := by
  cases group with
  | none => rfl
  | some key => exact source.dimension_selectGroup key

omit [Scalar α] in
theorem rowCount_rowsOf_le (source : Source α) (group : Option String) :
    (rowsOf source group).rowCount ≤ source.rowCount := by
  cases group with
  | none => exact Nat.le_refl _
  | some key =>
    have rows := source.rows_selectGroup key
    change (source.selectGroup key).rows.length ≤ _
    rw [rows]
    exact List.length_filter_le _ _

theorem completeCount_rowsOf_le (source : Source α) (group : Option String) :
    (rowsOf source group).completeCount ≤ source.rowCount :=
  Nat.le_trans (List.length_filter_le _ _) (rowCount_rowsOf_le source group)

/-- How training along a plan ends: it is answered with the path, if it is answered, and the rows
    that it wrote are the ends of its runs. -/
structure WritesEnds (plan : Plan α) (before : TrainState α)
    (ending : Except Error (TrainSummary α) × TrainState α) : Prop where
  answered : ∀ summary, ending.1 = .ok summary → summary.path = plan.path.strengths
  rows : ∃ rows, ending.2.reports = before.reports ++ rows ∧
    ∀ row ∈ rows, ∃ group, endReport plan group (rowsOf plan.source group) = .ok row

section Sure

variable {plan : Plan α} {Sound : Slots α → Prop} (sure : plan.Sure plan.source.dimension Sound)
  (told : TrainState α)
include sure

theorem trainAll_writesEnds : WritesEnds plan told (Command.result (trainAll plan) told) := by
  unfold Command.result
  cases phase : (lastState plan none plan.source).progress.phase with
  | failed failure position =>
    obtain ⟨after, ends, kept⟩ := trainAll_of_failed sure rfl phase told
    rw [ends]
    exact ⟨nofun, [], kept.trans (List.append_nil _).symm, nofun⟩
  | start | atPosition _ _ | done _ _ =>
    obtain ⟨row, after, given, ends, written⟩ :=
      trainAll_of_done sure rfl (by rw [phase]; rfl) told
    rw [ends]
    refine ⟨?_, [row], written, ?_⟩
    · rintro _ ⟨⟩
      rfl
    · exact List.forall_mem_singleton.mpr ⟨none, given⟩

theorem trainGroups_writesEnds : WritesEnds plan told (Command.result (trainGroups plan) told) := by
  obtain ⟨last, rows, after, _, _, given, written, ends⟩ := trainGroups_outcome sure rfl told
  have own : ∀ row ∈ rows, ∃ group, endReport plan group (rowsOf plan.source group) = .ok row := by
    intro row inside
    obtain ⟨key, _, own⟩ := exists_of_forall₂ given inside
    exact ⟨some key, own⟩
  unfold Command.result
  rw [ends]
  by_cases reaches : missedTarget last = []
  · rw [if_pos reaches]
    refine ⟨?_, rows, written, own⟩
    rintro _ ⟨⟩
    rfl
  · rw [if_neg reaches]
    exact ⟨nofun, rows, written, own⟩

end Sure

theorem train_writesEnds {source? : Option (Source α)} {options : TrainOptions α}
    {state told : TrainState α} {laidOut : Plan α} {Sound : Slots α → Prop}
    (laid : plan source? options state = .ok laidOut told)
    (sure : laidOut.Sure laidOut.source.dimension Sound) :
    WritesEnds laidOut state (Command.result (train source? options) state) := by
  have unwritten := (plan_leaves _ _).of_ok laid
  have runs : Command.result (train source? options) state = Command.result
      (if options.grouped then trainGroups laidOut else trainAll laidOut) told := by
    unfold Command.result train
    rw [bind_of_ok laid]
  rw [runs]
  have writes : WritesEnds laidOut told (Command.result
      (if options.grouped then trainGroups laidOut else trainAll laidOut) told) := by
    split
    · exact trainGroups_writesEnds sure told
    · exact trainAll_writesEnds sure told
  exact ⟨writes.answered, unwritten ▸ writes.rows⟩

/-- How training that wrote rows ends: along a path that is answered with the summary, if there is
    one, with rows that keep their promises. -/
structure Writes (options : TrainOptions α) (path : Path α) (before : TrainState α)
    (ending : Except Error (TrainSummary α) × TrainState α) : Prop where
  answered : ∀ summary, ending.1 = .ok summary → summary.path = path.strengths
  rows : ∃ rows, ending.2.reports = before.reports ++ rows ∧
    ∀ row ∈ rows, Promises options path row

/-- Every row that training writes keeps its promises, on all rows or by groups, whether the
    training ends well or not. What fails before the path is laid writes nothing. As elsewhere, a
    word can count the slots of a state. -/
theorem written_rows_promise (source? : Option (Source Float)) (options : TrainOptions Float)
    (state : TrainState Float) (fits : ∀ source, source? = some source →
      Fista.slotCount source.dimension < UInt32.size) :
    (∃ error after, plan source? options state = .error error after ∧
      train source? options state = .error error after ∧ after.reports = state.reports) ∨
    ∃ laidOut told, plan source? options state = .ok laidOut told ∧
      Writes options laidOut.path state (Command.result (train source? options) state) := by
  cases laid : plan source? options state with
  | error error after =>
    exact .inl ⟨error, after, rfl, bind_of_error laid, ((plan_leaves _ _).of_error laid).2⟩
  | ok laidOut told =>
    refine .inr ⟨laidOut, told, rfl, ?_⟩
    obtain ⟨source, family, method, params, path, test, rfl, checked, rfl⟩ := plan_eq_ok laid
    obtain ⟨wide, _⟩ := checkRows_eq_ok checked.rowsPass
    obtain ⟨Sound, reliable, vouches⟩ := Optimizer.exists_vouching (α := Float) (by decide) family
      method (Nat.pos_of_ne_zero wide) (fits source rfl)
    have sure := checked.sureOf reliable
    obtain ⟨answered, rows, written, own⟩ := train_writesEnds laid sure
    refine ⟨answered, rows, written, ?_⟩
    intro row inside
    obtain ⟨group, given⟩ := own row inside
    exact promises_of_endReport sure vouches group (dimension_rowsOf source group) given

def rawOptions : TrainOptions Float :=
  { halfMissingOptions with standardize := false }

theorem halfMissing_rows_promise : Fista.slotCount halfMissing.dimension < UInt32.size ∧
    ∃ laidOut told, plan (some halfMissing) rawOptions .start = .ok laidOut told ∧
      Writes rawOptions laidOut.path .start
        (Command.result (train (some halfMissing) rawOptions) .start) := by
  have fits : Fista.slotCount halfMissing.dimension < UInt32.size := by decide
  refine ⟨fits, ?_⟩
  obtain ⟨laidOut, told, laid⟩ := Command.exists_of_result_isOk
    (show (Command.result (plan (some halfMissing) rawOptions) .start).1.isOk = true by
      decide +kernel)
  rcases written_rows_promise (some halfMissing) rawOptions .start
    (by rintro _ ⟨⟩; exact fits) with ⟨error, after, refused, _⟩ | written
  · cases laid.symm.trans refused
  · exact written

end Train

end ElasticNet
