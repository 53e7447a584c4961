import ElasticNet.Proofs.Halving
import ElasticNet.Proofs.Run.Loop

namespace ElasticNet.Run

open Command

variable {α : Type} [Scalar α]

theorem tickUntilDone_of_terminal (run : Run α) (fuel : Nat) {state : RunState α}
    (terminal : state.progress.phase.isTerminal = true) :
    run.tickUntilDone fuel state = .ok () state := by
  cases fuel with
  | zero => rfl
  | succ fuel =>
    unfold tickUntilDone
    rw [get_bind, terminal]
    rfl

theorem tickUntilDone_of_tick (run : Run α) (fuel : Nat) {state after : RunState α}
    (pending : state.progress.phase.isTerminal = false) (ticked : run.tick state = .ok () after) :
    run.tickUntilDone (fuel + 1) state = run.tickUntilDone fuel after := by
  rw [tickUntilDone, get_bind, pending]
  exact bind_of_ok ticked

def stepped (run : Run α) (position : Nat) (state : Slots α) : Slots α :=
  (do run.pass.step (some state) (← run.contextAt position) run.source).toOption.getD []

def moves (run : Run α) (position : Nat) (previous next : Slots α) : Bool :=
  position < run.path.size &&
    match run.test.optimizer.distance previous next with
    | .ok distance => ConvergenceTest.isWithin distance run.test.warmupTolerance
    | .error _ => false

def walk (run : Run α) : Nat → Slots α × Nat
  | 0 => (run.baseline.toOption.getD [], 1)
  | count + 1 =>
    let (last, position) := run.walk count
    let next := run.stepped position last
    (next, if run.moves position last next then position + 1 else position)

def stateAfter (run : Run α) (count : Nat) : Slots α :=
  (run.walk count).1

def positionAfter (run : Run α) (count : Nat) : Nat :=
  (run.walk count).2

theorem stateAfter_succ (run : Run α) (count : Nat) : run.stateAfter (count + 1) =
    run.stepped (run.positionAfter count) (run.stateAfter count) := rfl

theorem positionAfter_succ (run : Run α) (count : Nat) : run.positionAfter (count + 1) =
    if run.moves (run.positionAfter count) (run.stateAfter count) (run.stateAfter (count + 1)) then
      run.positionAfter count + 1
    else run.positionAfter count := rfl

/-- Under which position the states up to a count of updates are recorded: where they were computed,
    where the loop went on from them, and the last one where the run stands. -/
def Commits (positions : Nat → Nat) (count standing position iteration : Nat) : Prop :=
  (1 ≤ iteration ∧ iteration ≤ count ∧ position = positions (iteration - 1)) ∨
  (iteration < count ∧ position = positions iteration) ∨
  (iteration = count ∧ position = standing)

theorem commits_succ (positions : Nat → Nat) (count standing position iteration : Nat) :
    Commits positions (count + 1) standing position iteration ↔
      (iteration = count + 1 ∧ (position = positions count ∨ position = standing)) ∨
        Commits positions count (positions count) position iteration := by
  unfold Commits
  by_cases last : iteration = count + 1
  · subst iteration
    rw [Nat.add_sub_cancel]
    omega
  · by_cases before : iteration = count
    · subst iteration
      omega
    · omega

theorem commits_congr {positions other : Nat → Nat} {count : Nat}
    (same : ∀ i < count, other i = positions i) (standing position iteration : Nat) :
    Commits other count standing position iteration ↔
      Commits positions count standing position iteration := by
  unfold Commits
  refine or_congr ?_ (or_congr ?_ Iff.rfl)
  · refine and_congr_right fun some => and_congr_right fun inside => ?_
    rw [same _ (by omega)]
  · refine and_congr_right fun before => ?_
    rw [same _ before]

structure Walked (run : Run α) (origin : Store (Slots α)) (state : RunState α) (count : Nat) :
    Prop where
  iterations : state.progress.iterations = count
  follows : run.Follows run.stateAfter run.positionAfter count
  records : ∀ position iteration recorded,
    state.store.state? (run.key position iteration) = some recorded ↔
      recorded = run.stateAfter iteration ∧
      Commits run.positionAfter count state.progress.phase.position position iteration
  others : ∀ key : StateKey, key.group ≠ run.group → state.store.state? key = origin.state? key

structure Underway (run : Run α) (origin : Store (Slots α)) (state : RunState α) (count : Nat) :
    Prop where
  walked : run.Walked origin state count
  stands : ∃ updates, state.progress.phase = .atPosition (run.positionAfter count) updates
  tracks : run.Tracks state (run.stateAfter count)
  positive : 1 ≤ run.positionAfter count
  quiet : ∀ i < count, ∀ phase, ¬ run.Stops run.stateAfter run.positionAfter i phase
  left : count < run.budget

structure Ended (run : Run α) (origin : Store (Slots α)) (state : RunState α) (total : Nat) :
    Prop where
  walked : run.Walked origin state total
  positive : 1 ≤ total
  bounded : total ≤ run.budget
  stops : run.Stops run.stateAfter run.positionAfter (total - 1) state.progress.phase
  quiet : ∀ i, i + 1 < total → ∀ phase, ¬ run.Stops run.stateAfter run.positionAfter i phase

theorem Stops.isTerminal {run : Run α} {states : Nat → Slots α} {positions : Nat → Nat} {i : Nat}
    {phase : Phase} (stops : run.Stops states positions i phase) : phase.isTerminal = true := by
  cases stops <;> rfl

theorem goes_of_quiet {run : Run α} {states : Nat → Slots α} {positions : Nat → Nat} {i : Nat}
    {status : Status} (told : (states (i + 1)).status = .ok status)
    (quiet : ∀ phase, ¬ run.Stops states positions i phase) : Goes (states (i + 1)) := by
  refine ⟨status, told, ?_, ?_⟩
  · rintro rfl
    exact quiet _ (.diverged told)
  · rintro rfl
    exact quiet _ (.nothingToFit told)

theorem Stops.of_moved {run : Run α} {states : Nat → Slots α} {positions : Nat → Nat} {i : Nat}
    {phase : Phase} (stops : run.Stops states positions i phase)
    (moved : phase.position ≠ positions i) :
    Goes (states (i + 1)) ∧ phase.position = positions (i + 1) := by
  cases stops with
  | diverged _ => exact absurd rfl moved
  | nothingToFit _ => exact absurd rfl moved
  | converged _ target _ _ => exact absurd target.symm moved
  | spent _ target _ _ _ => exact absurd target.symm moved
  | unreached goes _ _ => exact ⟨goes, rfl⟩

theorem start_underway (run : Run α) (paid : 0 < run.budget) (answers : run.Answers)
    {store : Store (Slots α)} (notes : List Note) (fresh : store.history run.group = []) :
    ∃ after, run.start ⟨.start, store, notes⟩ = .ok () after ∧ run.Underway store after 0 := by
  rw [Store.history_eq_nil] at fresh
  have unrecorded : ∀ position iteration, store.state? (run.key position iteration) = none :=
    fun position iteration => fresh _ (group_key run position iteration)
  obtain ⟨strength, held, reached⟩ := run.contextAt_eq_ok (Nat.le_refl 1) (size_pos run.path)
  obtain ⟨first, given⟩ := answers.baseline strength held
  have baseline : run.baseline = .ok first := by
    unfold baseline
    rw [reached]
    exact given
  have same : run.stateAfter 0 = first := by
    unfold stateAfter walk
    rw [baseline]
    rfl
  refine ⟨_, run.start_of_baseline (unrecorded 1 0) baseline, ?_, ⟨0, rfl⟩, ?_, Nat.le_refl 1, ?_,
    paid⟩
  · refine ⟨rfl, ⟨⟨strength, held, ?_⟩, rfl, ?_, ?_⟩, ?_, ?_⟩
    · rw [same]
      exact given
    · intro i before
      cases before
    · intro i before
      cases before
    · intro position iteration recorded
      simp only [Store.state?_put, key_inj, Phase.position, unrecorded]
      split
      · rename_i written
        obtain ⟨rfl, rfl⟩ := written
        rw [same, Option.some_inj, eq_comm]
        simp [Commits]
      · unfold Commits
        simp
        omega
    · intro key other
      have elsewhere : key ≠ run.key 1 0 := by
        rintro rfl
        exact other rfl
      simp only [Store.state?_put, elsewhere, if_false]
  · rw [same]
    exact .started run notes unrecorded first
  · intro i before
    cases before

theorem Underway.stepped {run : Run α} (answers : run.Answers) {origin : Store (Slots α)}
    {state : RunState α} {count : Nat} (underway : run.Underway origin state count) :
    ∃ status distance,
      run.step state = .ok (run.stateAfter (count + 1)) ∧
      (run.stateAfter (count + 1)).status = .ok status ∧
      run.test.optimizer.distance (run.stateAfter count) (run.stateAfter (count + 1)) =
        .ok distance ∧
      run.Follows run.stateAfter run.positionAfter (count + 1) := by
  obtain ⟨updates, stands⟩ := underway.stands
  have inside : run.positionAfter count ≤ run.path.size := by
    have bounded := underway.tracks.bounded
    rw [stands] at bounded
    exact bounded
  obtain ⟨strength, held, reached⟩ := run.contextAt_eq_ok underway.positive inside
  have follows := underway.walked.follows
  obtain ⟨next, status, distance, given, read, measured⟩ :=
    answers.update _ _ count follows underway.quiet underway.left strength held
  have same : run.stateAfter (count + 1) = next := by
    rw [stateAfter_succ]
    unfold Run.stepped
    rw [reached]
    exact congrArg (fun outcome : Except Error (Slots α) => outcome.toOption.getD []) given
  have moved : run.positionAfter (count + 1) =
      if run.positionAfter count < run.path.size ∧ distance < run.test.warmupTolerance then
        run.positionAfter count + 1
      else run.positionAfter count := by
    rw [positionAfter_succ, same]
    unfold Run.moves ConvergenceTest.isWithin
    rw [measured]
    simp only [Bool.and_eq_true, decide_eq_true_eq]
  rw [← same] at given read measured
  refine ⟨status, distance, ?_, read, measured, follows.baseline, follows.first, ?_, ?_⟩
  · rw [step_of_tracks run underway.tracks stands, reached]
    exact given
  · intro i before
    by_cases last : i = count
    · subst i
      exact ⟨strength, held, given⟩
    · exact follows.steps i (by omega)
  · intro i before
    by_cases last : i = count
    · subst i
      exact ⟨distance, measured, moved⟩
    · exact follows.moves i (by omega)

theorem not_stops {run : Run α} {states : Nat → Slots α} {positions : Nat → Nat} {i : Nat}
    {distance : α} (goes : Goes (states (i + 1)))
    (measured : run.test.optimizer.distance (states i) (states (i + 1)) = .ok distance)
    (apart : positions i = run.path.size → ¬ distance < run.test.tolerance)
    (left : i + 1 < run.budget) (phase : Phase) : ¬ run.Stops states positions i phase := by
  obtain ⟨status, read, alive, filled⟩ := goes
  intro stops
  cases stops with
  | diverged diverged =>
    rw [read] at diverged
    cases diverged
    exact alive rfl
  | nothingToFit empty =>
    rw [read] at empty
    cases empty
    exact filled rfl
  | converged _ target same below =>
    rw [measured] at same
    cases same
    exact apart target below
  | spent => omega
  | unreached => omega

/-- An update that the optimizer did not give up on stops the loop, or the run moves as the loop
    does. -/
theorem settledPhase_of_loop {run : Run α} {states : Nat → Slots α} {positions : Nat → Nat}
    {i : Nat} {distance : α} (inside : positions i ≤ run.path.size) (left : i < run.budget)
    (goes : Goes (states (i + 1)))
    (measured : run.test.optimizer.distance (states i) (states (i + 1)) = .ok distance)
    (moved : positions (i + 1) =
      if positions i < run.path.size ∧ distance < run.test.warmupTolerance then positions i + 1
      else positions i) (updates : Nat) :
    let phase := run.settledPhase (positions i) updates (i + 1)
      (ConvergenceTest.isWithin distance (run.test.toleranceAt (positions i) run.path.size))
    run.Stops states positions i phase ∨
      (i + 1 < run.budget ∧ (∃ updates, phase = .atPosition (positions (i + 1)) updates) ∧
        ∀ phase, ¬ run.Stops states positions i phase) := by
  intro phase
  subst phase
  rw [settledPhase_eq]
  unfold ConvergenceTest.isWithin ConvergenceTest.toleranceAt
  by_cases before : positions i < run.path.size
  -- on the way, the last update of the budget stops the loop whether or not it moves on
  · have apart : positions i = run.path.size → ¬ distance < run.test.tolerance := by omega
    by_cases spent : run.budget ≤ i + 1
    · have unreached :
          run.Stops states positions i (.failed .targetNotReached (positions (i + 1))) :=
        .unreached goes before (by omega)
      by_cases below : distance < run.test.warmupTolerance
      · simp only [before, below, and_self, if_true] at moved
        simp only [before, spent, below, decide_true, if_true, ← moved]
        exact .inl unreached
      · simp only [below, and_false, if_false] at moved
        simp only [before, spent, below, decide_false, Bool.false_eq_true, if_true, if_false]
        rw [moved] at unreached
        exact .inl unreached
    · have quiet := not_stops goes measured apart (by omega)
      by_cases below : distance < run.test.warmupTolerance
      · simp only [before, below, and_self, if_true] at moved
        simp only [before, spent, below, decide_true, if_true, if_false, moved]
        exact .inr ⟨by omega, ⟨0, rfl⟩, quiet⟩
      · simp only [below, and_false, if_false] at moved
        simp only [spent, before, below, decide_false, Bool.false_eq_true, if_true, if_false, moved]
        exact .inr ⟨by omega, ⟨_, rfl⟩, quiet⟩
  -- at the target there is nowhere to move on to
  · have target : positions i = run.path.size := by omega
    simp only [before, false_and, if_false] at moved
    by_cases below : distance < run.test.tolerance
    · simp only [before, below, decide_true, if_true, if_false]
      exact .inl (.converged goes target measured below)
    · by_cases spent : run.budget ≤ i + 1
      · simp only [before, spent, below, decide_false, Bool.false_eq_true, if_true, if_false]
        exact .inl (.spent goes target measured below (by omega))
      · have apart : positions i = run.path.size → ¬ distance < run.test.tolerance :=
          fun _ => below
        have quiet := not_stops goes measured apart (by omega)
        simp only [before, spent, below, decide_false, Bool.false_eq_true, if_false, moved]
        exact .inr ⟨by omega, ⟨_, rfl⟩, quiet⟩

theorem verdict_of_loop {run : Run α} {states : Nat → Slots α} {positions : Nat → Nat} {i : Nat}
    {status : Status} {distance : α} (inside : positions i ≤ run.path.size) (left : i < run.budget)
    (read : (states (i + 1)).status = .ok status)
    (measured : run.test.optimizer.distance (states i) (states (i + 1)) = .ok distance)
    (moved : positions (i + 1) =
      if positions i < run.path.size ∧ distance < run.test.warmupTolerance then positions i + 1
      else positions i) (updates : Nat) :
    ∃ phase, run.verdict (positions i) updates (i + 1) (states i) (states (i + 1)) = .ok phase ∧
      (run.Stops states positions i phase ∨
        (i + 1 < run.budget ∧ (∃ updates, phase = .atPosition (positions (i + 1)) updates) ∧
          ∀ phase, ¬ run.Stops states positions i phase)) := by
  unfold verdict
  rw [read]
  have settled := fun goes => settledPhase_of_loop inside left goes measured moved updates
  cases status with
  | terminated => exact ⟨_, rfl, .inl (.diverged read)⟩
  | empty => exact ⟨_, rfl, .inl (.nothingToFit read)⟩
  | _ =>
    change run.test.distance (some (states i)) (some (states (i + 1))) = .ok distance at measured
    simp only [measured]
    exact ⟨_, rfl, settled ⟨_, read, by simp, by simp⟩⟩

theorem Walked.updated {run : Run α} {origin : Store (Slots α)} {state : RunState α} {count : Nat}
    (walked : run.Walked origin state count)
    (standing : state.progress.phase.position = run.positionAfter count)
    (follows : run.Follows run.stateAfter run.positionAfter (count + 1)) (phase : Phase)
    (notes : List Note) :
    run.Walked origin ⟨⟨phase, count + 1⟩,
      run.stored state.store (run.positionAfter count) (count + 1) phase
        (run.stateAfter (count + 1)), notes⟩ (count + 1) := by
  refine ⟨rfl, follows, ?_, ?_⟩
  · intro position iteration recorded
    have records := walked.records position iteration recorded
    rw [standing] at records
    rw [state?_stored, commits_succ]
    simp only [key_inj]
    split
    · rename_i written
      have last : iteration = count + 1 := by omega
      subst iteration
      rw [Option.some_inj, eq_comm]
      simp
      omega
    · rename_i unwritten
      rw [records]
      have old : ¬ (iteration = count + 1 ∧
          (position = run.positionAfter count ∨ position = phase.position)) := by omega
      simp only [old, false_or]
  · intro key other
    have elsewhere : ∀ position, key ≠ run.key position (count + 1) := by
      rintro position rfl
      exact other rfl
    rw [state?_stored]
    simp only [elsewhere, or_self, if_false]
    exact walked.others key other

/-- An update ends the run, or leaves it where the loop is. -/
theorem Underway.tick {run : Run α} (answers : run.Answers) {origin : Store (Slots α)}
    {state : RunState α} {count : Nat} (underway : run.Underway origin state count) :
    ∃ after, run.tick state = .ok () after ∧
      (run.Underway origin after (count + 1) ∨ run.Ended origin after (count + 1)) := by
  obtain ⟨updates, stands⟩ := underway.stands
  obtain rfl := underway.walked.iterations
  have standing : state.progress.phase.position = run.positionAfter state.progress.iterations := by
    rw [stands]
    rfl
  have inside := underway.tracks.bounded
  rw [standing] at inside
  obtain ⟨status, distance, stepped, read, measured, follows⟩ := underway.stepped answers
  obtain ⟨other, same, moved⟩ := follows.moves _ (Nat.lt_succ_self _)
  rw [measured] at same
  cases same
  obtain ⟨phase, decided, outcome⟩ :=
    verdict_of_loop inside underway.left read measured moved updates
  obtain ⟨notes, ticked⟩ := run.tick_of_verdict underway.tracks stands stepped decided
  have walked := underway.walked.updated standing follows phase notes
  refine ⟨_, ticked, ?_⟩
  rcases outcome with stops | ⟨left, stays, quiet⟩
  · right
    exact ⟨walked, Nat.le_add_left 1 _, underway.left, stops,
      fun i before => underway.quiet i (Nat.lt_of_succ_lt_succ before)⟩
  · left
    refine ⟨walked, stays, underway.tracks.updated stands decided notes, ?_, ?_, left⟩
    · have positive := underway.positive
      split at moved <;> omega
    · intro i before
      by_cases last : i = state.progress.iterations
      · subst i
        exact quiet
      · exact underway.quiet i (by omega)

theorem Underway.tickUntilDone {run : Run α} (answers : run.Answers) {origin : Store (Slots α)}
    {state : RunState α} {count : Nat} (underway : run.Underway origin state count) (fuel : Nat) :
    ∃ after, run.tickUntilDone fuel state = .ok () after ∧
      (run.Underway origin after (count + fuel) ∨
        ∃ total, count < total ∧ total ≤ count + fuel ∧ run.Ended origin after total) := by
  induction fuel generalizing state count with
  | zero => exact ⟨state, rfl, .inl underway⟩
  | succ fuel ih =>
    obtain ⟨updates, stands⟩ := underway.stands
    obtain ⟨next, ticked, outcome⟩ := underway.tick answers
    rw [run.tickUntilDone_of_tick fuel (by rw [stands]; rfl) ticked]
    rcases outcome with still | ended
    · obtain ⟨after, ticks, rest⟩ := ih still
      refine ⟨after, ticks, ?_⟩
      rcases rest with further | ⟨total, later, bound, ended⟩
      · left
        rw [Nat.add_right_comm] at further
        exact further
      · exact .inr ⟨total, by omega, by omega, ended⟩
    · refine ⟨next, ?_, .inr ⟨count + 1, by omega, by omega, ended⟩⟩
      exact run.tickUntilDone_of_terminal fuel ended.stops.isTerminal

theorem Ended.current {run : Run α} {origin : Store (Slots α)} {state : RunState α} {total : Nat}
    (ended : run.Ended origin state total) : run.current state = .ok (run.stateAfter total) := by
  have held := (ended.walked.records state.progress.phase.position total _).mpr
    ⟨rfl, .inr (.inr ⟨rfl, rfl⟩)⟩
  have looked := Store.lookup_of_state? held
  have terminal := ended.stops.isTerminal
  rw [← ended.walked.iterations] at looked ⊢
  unfold Run.current
  cases stands : state.progress.phase with
  | start =>
    rw [stands] at terminal
    cases terminal
  | _ =>
    rw [stands] at looked
    exact looked

theorem toEnd_of_start (run : Run α) {state after : RunState α}
    (unstarted : state.progress.phase = .start) (started : run.start state = .ok () after) :
    run.toEnd state = run.tickUntilDone (run.budget - after.progress.iterations + 1) after := by
  unfold toEnd
  rw [get_bind]
  simp only [unstarted, if_true]
  exact bind_of_ok started

theorem toEnd_ended (run : Run α) (paid : 0 < run.budget) (answers : run.Answers)
    {store : Store (Slots α)} (notes : List Note) (fresh : store.history run.group = []) :
    ∃ after total, run.toEnd ⟨.start, store, notes⟩ = .ok () after ∧
      run.Ended store after total := by
  obtain ⟨started, starts, underway⟩ := run.start_underway paid answers notes fresh
  obtain ⟨after, ticks, outcome⟩ := underway.tickUntilDone answers (run.budget + 1)
  refine ⟨after, ?_⟩
  rcases outcome with further | ⟨total, _, _, ended⟩
  · have left := further.left
    omega
  · refine ⟨total, ?_, ended⟩
    rw [run.toEnd_of_start rfl starts, underway.walked.iterations]
    exact ticks

/-- A run to its end, on a store with no record of its group, ends with the update that stops the
    loop, within the budget. It has committed the states of the loop and nothing else, and its last
    state is that of the loop. A distance that is no number moves the loop nowhere. -/
theorem toEnd_follows_loop (run : Run α) (paid : 0 < run.budget) (answers : run.Answers)
    (store : Store (Slots α)) (notes : List Note) (fresh : store.history run.group = []) :
    (∃ after states positions total,
      run.toEnd ⟨.start, store, notes⟩ = .ok () after ∧
      after.progress.iterations = total ∧ 1 ≤ total ∧ total ≤ run.budget ∧
      run.Follows states positions total ∧
      (∀ i, i + 1 < total → ∀ phase, ¬ run.Stops states positions i phase) ∧
      run.Stops states positions (total - 1) after.progress.phase ∧
      (∀ position iteration recorded,
        after.store.lookup (run.key position iteration) = .ok recorded ↔
          recorded = states iteration ∧
          Commits positions total after.progress.phase.position position iteration) ∧
      (∀ key : StateKey, key.group ≠ run.group → after.store.lookup key = store.lookup key) ∧
      run.current after = .ok (states total)) ∧
    ∀ distance tolerance : Float, distance.isNaN = true → ¬ distance < tolerance := by
  refine ⟨?_, fun distance tolerance undefined => not_lt_of_isNaN undefined tolerance⟩
  obtain ⟨after, total, ends, ended⟩ := run.toEnd_ended paid answers notes fresh
  refine ⟨after, run.stateAfter, run.positionAfter, total, ends, ended.walked.iterations,
    ended.positive, ended.bounded, ended.walked.follows, ended.quiet, ended.stops, ?_, ?_,
    ended.current⟩
  · intro position iteration recorded
    rw [Store.lookup_eq_ok]
    exact ended.walked.records position iteration recorded
  · intro key other
    exact Store.lookup_congr (ended.walked.others key other)

def halfway : Run Float where
  group := none
  path := ⟨[3, 1], List.cons_ne_nil 3 [1]⟩
  pass := ⟨Halving.optimizer, .parallel⟩
  test := ⟨Halving.optimizer, 0.5, 10⟩
  context := .default
  source := Halving.lone 4
  budget := 2

theorem toEnd_halfway : ∃ after states positions,
    halfway.toEnd .start = .ok () after ∧ after.progress = ⟨.done 2 false, 2⟩ ∧
    halfway.Follows states positions 2 ∧
    halfway.Stops states positions 1 (.done 2 false) := by
  obtain ⟨⟨after, states, positions, total, ends, counted, _, _, follows, _, stops, _⟩, _⟩ :=
    toEnd_follows_loop halfway (by decide) (Halving.answers halfway rfl rfl) .empty []
      (by decide +kernel)
  have computed : (result halfway.toEnd .start).2.progress = ⟨.done 2 false, 2⟩ := by
    decide +kernel
  have same : (result halfway.toEnd .start).2 = after := by
    unfold result
    rw [show halfway.toEnd .start = .ok () after from ends]
  rw [same] at computed
  rw [computed] at counted stops
  subst total
  exact ⟨after, states, positions, ends, computed, follows, stops⟩

end ElasticNet.Run
