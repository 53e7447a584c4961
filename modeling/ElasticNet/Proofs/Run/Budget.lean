import ElasticNet.Proofs.Run.SameLoop

namespace ElasticNet.Run

open Command

variable {α : Type}

def withBudget (run : Run α) (budget : Nat) : Run α :=
  { run with budget := budget }

/-- What a run leaves goes on from what it leaves with a smaller budget: it has recorded the same up
    to the end of the shorter run, and it ends there as well unless the budget ended that one. At
    the target the larger budget cannot miss it any more. -/
structure Extends (run : Run α) (short long : RunState α) : Prop where
  longer : short.progress.iterations ≤ long.progress.iterations
  records : ∀ (key : StateKey) (state : Slots α), key.group = run.group →
    (short.store.lookup key = .ok state ↔
      key.iteration ≤ short.progress.iterations ∧ long.store.lookup key = .ok state)
  settled : Settled short.progress.phase → long.progress = short.progress
  reached : short.progress.phase = .done run.path.size false →
    ∀ position, long.progress.phase ≠ .failed .targetNotReached position

variable [Scalar α]

theorem walk_withBudget (run : Run α) (budget count : Nat) :
    (run.withBudget budget).walk count = run.walk count := by
  induction count with
  | zero => rfl
  | succ count ih =>
    unfold walk
    rw [ih]
    rfl

theorem sameLoop_withBudget (run : Run α) (budget : Nat) : run.SameLoop (run.withBudget budget) :=
  ⟨rfl, rfl, run.walk_withBudget budget⟩

/-- An update before the last one of either budget stops both runs or neither. -/
theorem stops_withBudget_iff (run : Run α) {states : Nat → Slots α} {positions : Nat → Nat}
    {budget i : Nat} (before : i + 1 < run.budget) (within : run.budget ≤ budget) (phase : Phase) :
    (run.withBudget budget).Stops states positions i phase ↔
      run.Stops states positions i phase := by
  have same := run.sameLoop_withBudget budget
  have less : i + 1 ≠ (run.withBudget budget).budget :=
    Nat.ne_of_lt (Nat.lt_of_lt_of_le before within)
  exact ⟨same.symm.stops fun _ last => absurd last less,
    same.stops fun _ last => absurd last (Nat.ne_of_lt before)⟩

theorem Answers.of_withBudget {run : Run α} {budget : Nat} (within : run.budget ≤ budget)
    (answers : (run.withBudget budget).Answers) : run.Answers where
  baseline := answers.baseline
  update := by
    intro states positions count follows quiet left
    refine answers.update states positions count
      ⟨follows.baseline, follows.first, follows.steps, follows.moves⟩ ?_
      (Nat.lt_of_lt_of_le left within)
    intro i before phase stops
    exact quiet i before phase ((run.stops_withBudget_iff (by omega) within phase).mp stops)

theorem positionAfter_mono (run : Run α) {count later : Nat} (within : count ≤ later) :
    run.positionAfter count ≤ run.positionAfter later := by
  induction within with
  | refl => exact Nat.le_refl _
  | step _ ih =>
    rw [positionAfter_succ]
    split
    · exact Nat.le_succ_of_le ih
    · exact ih

theorem positionAfter_of_target (run : Run α) {count : Nat}
    (target : run.positionAfter count = run.path.size) :
    run.positionAfter (count + 1) = run.path.size := by
  have stays : run.moves (run.positionAfter count) (run.stateAfter count)
      (run.stateAfter (count + 1)) = false := by
    unfold moves
    rw [target, decide_eq_false (Nat.lt_irrefl _), Bool.false_and]
  rw [positionAfter_succ, stays, target]
  rfl

theorem Ended.position_of_not_settled {run : Run α} {origin : Store (Slots α)} {state : RunState α}
    {total : Nat} (ended : run.Ended origin state total) (spent : ¬ Settled state.progress.phase) :
    state.progress.phase.position = run.positionAfter total ∧ total = run.budget := by
  have positive := ended.positive
  have last : total - 1 + 1 = total := Nat.sub_add_cancel positive
  cases phase : state.progress.phase with
  | start | atPosition _ _ =>
    have terminal := ended.stops.isTerminal
    rw [phase] at terminal
    cases terminal
  | done position converged =>
    have stops := ended.stops
    rw [phase] at stops spent
    cases stops with
    | converged _ _ _ _ => exact absurd (.converged _) spent
    | spent _ target _ _ used =>
      have stands := run.positionAfter_of_target target
      rw [last] at stands used
      exact ⟨stands.symm, used⟩
  | failed failure position =>
    have stops := ended.stops
    rw [phase] at stops spent
    cases stops with
    | diverged _ => exact absurd (.diverged _ _ _) spent
    | nothingToFit _ => exact absurd (.nothingToFit _) spent
    | unreached _ _ used =>
      rw [last] at used ⊢
      exact ⟨rfl, used⟩

theorem commits_of_lt {positions : Nat → Nat} {count later standing position iteration : Nat}
    (before : count < later) : Commits positions count (positions count) position iteration ↔
      iteration ≤ count ∧ Commits positions later standing position iteration := by
  unfold Commits
  by_cases last : iteration = count
  · subst iteration
    omega
  · omega

section Ended

variable {run : Run α} {budget : Nat} (within : run.budget ≤ budget)
  {origin otherOrigin : Store (Slots α)} {short long : RunState α} {total more : Nat}
  (ended : run.Ended origin short total)
  (longEnded : (run.withBudget budget).Ended otherOrigin long more)
include within ended longEnded

theorem Ended.le_withBudget : total ≤ more := by
  by_contra earlier
  have bounded := ended.bounded
  have positive := longEnded.positive
  have same := run.sameLoop_withBudget budget
  have stops := longEnded.stops
  rw [same.stateAfter, same.positionAfter, run.stops_withBudget_iff (by omega) within] at stops
  exact ended.quiet (more - 1) (by omega) _ stops

theorem Ended.settled_withBudget (settled : Settled short.progress.phase) :
    long.progress = short.progress := by
  have same := run.sameLoop_withBudget budget
  have positive := ended.positive
  have stops : (run.withBudget budget).Stops (run.withBudget budget).stateAfter
      (run.withBudget budget).positionAfter (total - 1) short.progress.phase := by
    rw [same.stateAfter, same.positionAfter]
    exact same.stops (absurd settled) ended.stops
  have total_eq : more = total := by
    refine Nat.le_antisymm ?_ (ended.le_withBudget within longEnded)
    by_contra later
    exact longEnded.quiet (total - 1) (by omega) _ stops
  subst total_eq
  have phase := longEnded.stops.unique stops
  have counted := longEnded.walked.iterations.trans ended.walked.iterations.symm
  cases longProgress : long.progress
  cases progress : short.progress
  rw [longProgress, progress] at phase counted
  rw [Progress.mk.injEq]
  exact ⟨phase, counted⟩

omit within in
theorem Ended.position_withBudget (spent : ¬ Settled short.progress.phase) (atOnce : more = total) :
    long.progress.phase.position = run.positionAfter total := by
  subst atOnce
  have same := run.sameLoop_withBudget budget
  by_cases settled : Settled long.progress.phase
  · -- what ends the longer run without the budget ends the shorter one there too
    have stops : run.Stops run.stateAfter run.positionAfter (more - 1) long.progress.phase := by
      rw [← same.stateAfter, ← same.positionAfter]
      exact same.symm.stops (absurd settled) longEnded.stops
    rw [ended.stops.unique stops] at spent
    exact absurd settled spent
  · rw [(longEnded.position_of_not_settled settled).1, same.positionAfter]

theorem Ended.records_withBudget (key : StateKey) (state : Slots α)
    (inGroup : key.group = run.group) :
    short.store.lookup key = .ok state ↔
      key.iteration ≤ short.progress.iterations ∧ long.store.lookup key = .ok state := by
  have same := run.sameLoop_withBudget budget
  have records := ended.walked.records key.position key.iteration state
  have longRecords := longEnded.walked.records key.position key.iteration state
  rw [← key_of_group run inGroup] at records
  rw [← key_of_group (run.withBudget budget) inGroup, same.stateAfter, same.positionAfter]
    at longRecords
  rw [Store.lookup_eq_ok, Store.lookup_eq_ok, records, longRecords, ended.walked.iterations]
  by_cases further : total < more
  · have spent : ¬ Settled short.progress.phase := by
      intro settled
      have progress := ended.settled_withBudget within longEnded settled
      have counted := longEnded.walked.iterations
      rw [progress, ended.walked.iterations] at counted
      omega
    rw [(ended.position_of_not_settled spent).1, commits_of_lt further]
    exact and_left_comm
  · have atOnce : more = total :=
      Nat.le_antisymm (Nat.le_of_not_lt further) (ended.le_withBudget within longEnded)
    have stands : long.progress.phase.position = short.progress.phase.position := by
      by_cases settled : Settled short.progress.phase
      · rw [ended.settled_withBudget within longEnded settled]
      · rw [ended.position_withBudget longEnded settled atOnce,
          (ended.position_of_not_settled settled).1]
    rw [stands, atOnce]
    have bounded (committed : Commits run.positionAfter total short.progress.phase.position
        key.position key.iteration) : key.iteration ≤ total := by
      unfold Commits at committed
      omega
    exact ⟨fun held => ⟨bounded held.2, held⟩, And.right⟩

theorem Ended.reached_withBudget (reached : short.progress.phase = .done run.path.size false)
    (position : Nat) : long.progress.phase ≠ .failed .targetNotReached position := by
  intro missed
  have same := run.sameLoop_withBudget budget
  have later := ended.le_withBudget within longEnded
  have stops := ended.stops
  have longStops := longEnded.stops
  rw [reached] at stops
  rw [missed] at longStops
  cases stops with
  | spent _ target _ _ _ =>
    cases longStops with
    | unreached _ before _ =>
      rw [same.positionAfter] at before
      have moved := run.positionAfter_mono (Nat.sub_le_sub_right later 1)
      have stands : run.positionAfter (more - 1) < run.path.size := before
      omega

theorem Ended.extends_withBudget : Extends run short long where
  longer := by
    rw [ended.walked.iterations, longEnded.walked.iterations]
    exact ended.le_withBudget within longEnded
  records := ended.records_withBudget within longEnded
  settled := ended.settled_withBudget within longEnded
  reached := ended.reached_withBudget within longEnded

end Ended

/-- A larger budget only extends a run: where the calls within it succeed, both runs come to their
    ends, on any stores that hold nothing of their group yet, and the one extends the other. -/
theorem toEnd_extends (run : Run α) {budget : Nat} (paid : 0 < run.budget)
    (within : run.budget ≤ budget) (answers : (run.withBudget budget).Answers)
    {store otherStore : Store (Slots α)} (fresh : store.history run.group = [])
    (otherFresh : otherStore.history run.group = []) (notes otherNotes : List Note) :
    ∃ short long, run.toEnd ⟨.start, store, notes⟩ = .ok () short ∧
      (run.withBudget budget).toEnd ⟨.start, otherStore, otherNotes⟩ = .ok () long ∧
      run.Extends short long := by
  obtain ⟨short, total, ends, ended⟩ :=
    run.toEnd_ended paid (answers.of_withBudget within) notes fresh
  obtain ⟨long, more, longEnds, longEnded⟩ := (run.withBudget budget).toEnd_ended
    (Nat.lt_of_lt_of_le paid within) answers otherNotes otherFresh
  exact ⟨short, long, ends, longEnds, ended.extends_withBudget within longEnded⟩

theorem toEnd_extends_halfway : ∃ short long, halfway.toEnd .start = .ok () short ∧
    (halfway.withBudget 3).toEnd .start = .ok () long ∧ halfway.Extends short long ∧
    short.progress = ⟨.done 2 false, 2⟩ ∧ long.progress.iterations = 3 := by
  obtain ⟨short, long, ends, longEnds, extended⟩ :=
    toEnd_extends halfway (by decide) (by decide : halfway.budget ≤ 3)
      (Halving.answers (halfway.withBudget 3) rfl rfl)
      (by decide +kernel : Store.empty.history halfway.group = [])
      (by decide +kernel : Store.empty.history halfway.group = []) [] []
  have computed : (result halfway.toEnd .start).2.progress = ⟨.done 2 false, 2⟩ := by
    decide +kernel
  have longComputed : (result (halfway.withBudget 3).toEnd .start).2.progress.iterations = 3 := by
    decide +kernel
  have same : (result halfway.toEnd .start).2 = short := by
    unfold result
    rw [show halfway.toEnd .start = .ok () short from ends]
  have longSame : (result (halfway.withBudget 3).toEnd .start).2 = long := by
    unfold result
    rw [show (halfway.withBudget 3).toEnd .start = .ok () long from longEnds]
  rw [same] at computed
  rw [longSame] at longComputed
  exact ⟨short, long, ends, longEnds, extended, computed, longComputed⟩

end ElasticNet.Run
