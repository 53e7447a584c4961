import ElasticNet.Proofs.Command
import ElasticNet.Proofs.Store
import ElasticNet.Run

namespace ElasticNet.Run

open Command

variable {α : Type}

theorem size_pos (path : Path α) : 0 < path.size :=
  List.length_pos_iff.mpr path.nonempty

theorem key_inj (run : Run α) {position iteration otherPosition otherIteration : Nat} :
    run.key position iteration = run.key otherPosition otherIteration ↔
      position = otherPosition ∧ iteration = otherIteration := by
  simp [key]

theorem group_key (run : Run α) (position iteration : Nat) :
    (run.key position iteration).group = run.group := rfl

theorem key_of_group (run : Run α) {key : StateKey} (inGroup : key.group = run.group) :
    key = run.key key.position key.iteration := by
  simp [Run.key, ← inGroup]

/-- A run that has started: the last state is in the store, and nothing is recorded for a later
    update. -/
structure Tracks (run : Run α) (state : RunState α) (last : Slots α) : Prop where
  held : state.store.state? (run.key state.progress.phase.position state.progress.iterations) =
    some last
  fresh : ∀ position iteration, state.progress.iterations < iteration →
    state.store.state? (run.key position iteration) = none
  bounded : state.progress.phase.position ≤ run.path.size

/-- The store after an update: the new state stands under the position it was computed at, and under
    the next one if the run moved there. -/
def stored (run : Run α) (store : Store (Slots α)) (position iteration : Nat) (phase : Phase)
    (next : Slots α) : Store (Slots α) :=
  let recorded := store.put (run.key position iteration) next
  if phase.position = position then recorded
  else recorded.put (run.key phase.position iteration) next

theorem stored_of_stays (run : Run α) (store : Store (Slots α)) {position : Nat} (iteration : Nat)
    {phase : Phase} (next : Slots α) (stays : phase.position = position) :
    run.stored store position iteration phase next = store.put (run.key position iteration) next :=
  if_pos stays

theorem stored_failed (run : Run α) (store : Store (Slots α)) (position iteration : Nat)
    (failure : Failure) (next : Slots α) :
    run.stored store position iteration (.failed failure position) next =
      store.put (run.key position iteration) next :=
  stored_of_stays run store iteration next rfl

theorem stored_of_moves (run : Run α) (store : Store (Slots α)) {position : Nat} (iteration : Nat)
    {phase : Phase} (next : Slots α) (moves : phase.position = position + 1) :
    run.stored store position iteration phase next =
      (store.put (run.key position iteration) next).put (run.key (position + 1) iteration)
        next := by
  unfold stored
  rw [moves, if_neg (by omega)]

theorem state?_stored (run : Run α) (store : Store (Slots α)) (position iteration : Nat)
    (phase : Phase) (next : Slots α) (other : StateKey) :
    (run.stored store position iteration phase next).state? other =
      if other = run.key position iteration ∨ other = run.key phase.position iteration then
        some next
      else store.state? other := by
  unfold stored
  by_cases stays : phase.position = position
  · simp [stays, Store.state?_put]
  · by_cases moved : other = run.key phase.position iteration
    · simp [stays, moved, Store.state?_put]
    · simp [stays, moved, Store.state?_put]

theorem held_stored (run : Run α) (store : Store (Slots α)) (position iteration : Nat)
    (phase : Phase) (next : Slots α) (otherPosition otherIteration : Nat) :
    (∃ held, (run.stored store position iteration phase next).state?
        (run.key otherPosition otherIteration) = some held) ↔
      (otherIteration = iteration ∧ (otherPosition = position ∨ otherPosition = phase.position)) ∨
        ∃ held, store.state? (run.key otherPosition otherIteration) = some held := by
  rw [state?_stored]
  split
  · rename_i written
    simp only [key_inj] at written
    simp
    omega
  · rename_i unwritten
    simp only [key_inj] at unwritten
    constructor
    · exact .inr
    · rintro (written | held)
      · omega
      · exact held

theorem length_history_stored (run : Run α) {store : Store (Slots α)} {position iteration : Nat}
    (phase : Phase) (next : Slots α)
    (fresh : ∀ position, store.state? (run.key position iteration) = none) :
    ((run.stored store position iteration phase next).history run.group).length =
      (store.history run.group).length + if phase.position = position then 1 else 2 := by
  have once := Store.length_history_put (group_key run position iteration) (fresh position) next
  unfold stored
  split
  · exact once
  · rename_i moved
    have still : (store.put (run.key position iteration) next).state?
        (run.key phase.position iteration) = none := by
      simp [Store.state?_put, key_inj, moved, fresh]
    simp only [Store.length_history_put (group_key run phase.position iteration) still next, once]

theorem record_of_fresh (run : Run α) (progress : Progress) {store : Store (Slots α)}
    (notes : List Note) {position iteration : Nat}
    (fresh : store.state? (run.key position iteration) = none) (next : Slots α) :
    run.record position iteration (some next) ⟨progress, store, notes⟩ =
      .ok () ⟨progress, store.put (run.key position iteration) next, notes⟩ := by
  unfold record
  rw [get_bind, Store.append_of_fresh fresh next, lift_ok_bind]
  rfl

theorem lookup_previous (run : Run α) {store : Store (Slots α)} {position iteration : Nat}
    {previous : Slots α} (next : Slots α)
    (held : store.state? (run.key position iteration) = some previous) :
    (store.put (run.key position (iteration + 1)) next).lookup
      (run.key position (iteration + 1 - 1)) = .ok previous := by
  apply Store.lookup_of_state?
  simpa [Store.state?_put, key_inj] using held

def settledPhase (run : Run α) (position updates iteration : Nat) (converged : Bool) : Phase :=
  if run.budget ≤ iteration then run.exhausted (run.nextPhase position updates converged)
  else run.nextPhase position updates converged

/-- The phases in full: the run moves on or is done when it converged, and fails or stops when the
    budget is spent. -/
theorem settledPhase_eq (run : Run α) (position updates iteration : Nat) (converged : Bool) :
    run.settledPhase position updates iteration converged =
      if converged then
        if position < run.path.size then
          if run.budget ≤ iteration then .failed .targetNotReached (position + 1)
          else .atPosition (position + 1) 0
        else .done run.path.size true
      else if run.budget ≤ iteration then
        if position < run.path.size then .failed .targetNotReached position
        else .done run.path.size false
      else .atPosition position (updates + 1) := by
  unfold settledPhase nextPhase
  by_cases spent : run.budget ≤ iteration <;> by_cases before : position < run.path.size <;>
    cases converged <;> simp [spent, before, exhausted]

theorem position_settledPhase (run : Run α) {position : Nat} (bounded : position ≤ run.path.size)
    (updates iteration : Nat) (converged : Bool) :
    (run.settledPhase position updates iteration converged).position =
      if converged ∧ position < run.path.size then position + 1 else position := by
  rw [settledPhase_eq]
  by_cases before : position < run.path.size
  · cases converged <;> by_cases spent : run.budget ≤ iteration <;>
      simp [before, spent, Phase.position]
  · have target : run.path.size = position := by omega
    cases converged <;> by_cases spent : run.budget ≤ iteration <;>
      simp [spent, Phase.position, target]

theorem contextAt_eq_ok (run : Run α) {position : Nat} (positive : 1 ≤ position)
    (inside : position ≤ run.path.size) : ∃ strength,
      run.path.strengths[position - 1]? = some strength ∧
      run.contextAt position = .ok { run.context with strength := strength } := by
  unfold Path.size at inside
  have held : run.path.strengths[position - 1]? = some run.path.strengths[position - 1] :=
    List.getElem?_eq_getElem (by omega)
  refine ⟨_, held, ?_⟩
  unfold contextAt Path.get
  rw [if_neg (by omega), held]
  rfl

def baseline (run : Run α) : Except Error (Slots α) := do
  run.pass.baseline (← run.contextAt 1)

theorem start_of_baseline (run : Run α) {iterations : Nat} {store : Store (Slots α)}
    {notes : List Note} {first : Slots α} (fresh : store.state? (run.key 1 0) = none)
    (given : run.baseline = .ok first) :
    run.start ⟨⟨.start, iterations⟩, store, notes⟩ =
      .ok () ⟨⟨.atPosition 1 0, iterations⟩, store.put (run.key 1 0) first, notes⟩ := by
  unfold baseline at given
  unfold start
  rw [get_bind]
  simp only
  cases reached : run.contextAt 1 with
  | error error =>
    rw [reached] at given
    cases given
  | ok context =>
    rw [reached] at given
    change run.pass.baseline context = .ok first at given
    rw [lift_ok_bind, given, lift_ok_bind, bind_of_ok (run.record_of_fresh _ _ fresh first)]
    rfl

theorem start_eq_ok (run : Run α) {state after : RunState α}
    (fresh : state.store.state? (run.key 1 0) = none) (ended : run.start state = .ok () after) :
    state.progress.phase = .start ∧ ∃ first, run.baseline = .ok first ∧
      after = ⟨⟨.atPosition 1 0, state.progress.iterations⟩,
        state.store.put (run.key 1 0) first, state.notes⟩ := by
  obtain ⟨⟨phase, iterations⟩, store, notes⟩ := state
  cases phase with
  | start =>
    cases given : run.baseline with
    | ok first =>
      rw [run.start_of_baseline fresh given] at ended
      cases ended
      exact ⟨rfl, first, rfl, rfl⟩
    | error error =>
      unfold baseline at given
      simp only [start, get_bind] at ended
      cases reached : run.contextAt 1 with
      | error raised =>
        rw [reached, lift_error_bind] at ended
        cases ended
      | ok context =>
        rw [reached] at given
        change run.pass.baseline context = .error error at given
        rw [reached, lift_ok_bind, given, lift_error_bind] at ended
        cases ended
  | _ =>
    simp only [start, get_bind] at ended
    cases ended

theorem Tracks.started (run : Run α) {store : Store (Slots α)} (notes : List Note)
    (fresh : ∀ position iteration, store.state? (run.key position iteration) = none)
    (first : Slots α) :
    run.Tracks ⟨⟨.atPosition 1 0, 0⟩, store.put (run.key 1 0) first, notes⟩ first := by
  constructor
  · simp [Store.state?_put, Phase.position]
  · intro position iteration later
    simp only at later
    have other : iteration ≠ 0 := by omega
    simp only [Store.state?_put, key_inj, other, and_false, if_false]
    exact fresh position iteration
  · exact size_pos run.path

theorem current_of_tracks (run : Run α) {state : RunState α} {last : Slots α}
    (tracked : run.Tracks state last) (started : state.progress.phase ≠ .start) :
    run.current state = .ok last := by
  have held := Store.lookup_of_state? tracked.held
  unfold current
  cases stands : state.progress.phase with
  | start => exact absurd stands started
  | _ =>
    rw [stands] at held
    exact held

variable [Scalar α]

/-- What an update comes to, from the state before it and the new one. -/
def verdict (run : Run α) (position updates iteration : Nat) (previous next : Slots α) :
    Except Error Phase := do
  match ← Slots.status next with
  | .terminated => return .failed (.diverged (run.strengthText position) iteration) position
  | .empty => return .failed .nothingToFit position
  | _ =>
    let distance ← run.test.distance (some previous) (some next)
    return run.settledPhase position updates iteration
      (ConvergenceTest.isWithin distance (run.test.toleranceAt position run.path.size))

theorem verdict_eq_ok (run : Run α) {position updates iteration : Nat} {previous next : Slots α}
    {phase : Phase} (decided : run.verdict position updates iteration previous next = .ok phase) :
    (next.status = .ok .terminated ∧
      phase = .failed (.diverged (run.strengthText position) iteration) position) ∨
    (next.status = .ok .empty ∧ phase = .failed .nothingToFit position) ∨
    ∃ status distance, next.status = .ok status ∧ status ≠ .terminated ∧ status ≠ .empty ∧
      run.test.distance (some previous) (some next) = .ok distance ∧
      phase = run.settledPhase position updates iteration
        (ConvergenceTest.isWithin distance (run.test.toleranceAt position run.path.size)) := by
  unfold verdict at decided
  cases read : next.status with
  | error error =>
    rw [read] at decided
    cases decided
  | ok status =>
    rw [read] at decided
    cases status with
    | terminated =>
      cases decided
      exact .inl ⟨rfl, rfl⟩
    | empty =>
      cases decided
      exact .inr (.inl ⟨rfl, rfl⟩)
    | _ =>
      cases measured : run.test.distance (some previous) (some next) with
      | error error =>
        simp only [measured] at decided
        cases decided
      | ok distance =>
        simp only [measured] at decided
        cases decided
        exact .inr (.inr ⟨_, distance, rfl, by simp, by simp, rfl, rfl⟩)

theorem verdict_eq_error (run : Run α) {position updates iteration : Nat} {previous next : Slots α}
    {error : Error}
    (refused : run.verdict position updates iteration previous next = .error error) :
    next.status = .error error ∨ run.test.distance (some previous) (some next) = .error error := by
  unfold verdict at refused
  cases read : next.status with
  | error raised =>
    rw [read] at refused
    cases refused
    exact .inl rfl
  | ok status =>
    rw [read] at refused
    cases status with
    | terminated => cases refused
    | empty => cases refused
    | _ =>
      cases measured : run.test.distance (some previous) (some next) with
      | ok distance =>
        simp only [measured] at refused
        cases refused
      | error raised =>
        simp only [measured] at refused
        cases refused
        exact .inr rfl

theorem position_verdict (run : Run α) {position updates iteration : Nat} {previous next : Slots α}
    {phase : Phase} (bounded : position ≤ run.path.size)
    (decided : run.verdict position updates iteration previous next = .ok phase) :
    phase.position = position ∨ (position < run.path.size ∧ phase.position = position + 1) := by
  rcases verdict_eq_ok run decided with ⟨_, rfl⟩ | ⟨_, rfl⟩ | ⟨_, distance, _, _, _, _, rfl⟩
  · exact .inl rfl
  · exact .inl rfl
  · rw [position_settledPhase run bounded]
    split
    · rename_i moves
      exact .inr ⟨moves.2, rfl⟩
    · exact .inl rfl

theorem settle_of_distance (run : Run α) {store : Store (Slots α)} {position iteration : Nat}
    {previous next : Slots α} {distance : α} (updates : Nat) (phase : Phase) (notes : List Note)
    (bounded : position ≤ run.path.size)
    (held : store.state? (run.key position iteration) = some previous)
    (fresh : store.state? (run.key (position + 1) (iteration + 1)) = none)
    (measured : run.test.distance (some previous) (some next) = .ok distance) :
    let after := run.settledPhase position updates (iteration + 1)
      (ConvergenceTest.isWithin distance (run.test.toleranceAt position run.path.size))
    ∃ told, run.settle position updates (iteration + 1) next
        ⟨⟨phase, iteration + 1⟩, store.put (run.key position (iteration + 1)) next, notes⟩ =
      .ok ()
        ⟨⟨after, iteration + 1⟩, run.stored store position (iteration + 1) after next, told⟩ := by
  intro after
  have looked := run.lookup_previous next held
  have unrecorded : (store.put (run.key position (iteration + 1)) next).state?
      (run.key (position + 1) (iteration + 1)) = none := by
    simpa [Store.state?_put, key_inj] using fresh
  have moved := position_settledPhase run bounded updates (iteration + 1)
    (ConvergenceTest.isWithin distance (run.test.toleranceAt position run.path.size))
  unfold settle
  rw [get_bind, looked, lift_ok_bind, measured, lift_ok_bind]
  subst after
  generalize ConvergenceTest.isWithin distance (run.test.toleranceAt position run.path.size) =
    converged at moved ⊢
  by_cases moves : converged = true ∧ position < run.path.size
  · rw [if_pos moves] at moved
    rw [stored_of_moves run store _ next moved]
    simp only [moves, and_self, if_true]
    rw [bind_of_ok (run.record_of_fresh _ _ unrecorded next)]
    unfold settledPhase
    by_cases spent : run.budget ≤ iteration + 1
    · simp only [spent, if_true]
      exact ⟨_, rfl⟩
    · simp only [spent, if_false]
      exact ⟨_, rfl⟩
  · rw [if_neg moves] at moved
    rw [stored_of_stays run store _ next moved]
    simp only [moves, if_false]
    unfold settledPhase
    by_cases spent : run.budget ≤ iteration + 1
    · simp only [spent, if_true]
      cases converged <;> exact ⟨_, rfl⟩
    · simp only [spent, if_false]
      cases converged <;> exact ⟨_, rfl⟩

theorem settle_of_error (run : Run α) {store : Store (Slots α)} {position iteration : Nat}
    {previous next : Slots α} {error : Error} (updates : Nat) (phase : Phase) (notes : List Note)
    (held : store.state? (run.key position iteration) = some previous)
    (failed : run.test.distance (some previous) (some next) = .error error) :
    run.settle position updates (iteration + 1) next
        ⟨⟨phase, iteration + 1⟩, store.put (run.key position (iteration + 1)) next, notes⟩ =
      .error error
        ⟨⟨phase, iteration + 1⟩, store.put (run.key position (iteration + 1)) next, notes⟩ := by
  unfold settle
  rw [get_bind, run.lookup_previous next held, lift_ok_bind, failed, lift_error_bind]

theorem advance_some (run : Run α) {state : RunState α} {position updates : Nat}
    (stands : state.progress.phase = .atPosition position updates)
    (fresh : state.store.state? (run.key position (state.progress.iterations + 1)) = none)
    (next : Slots α) :
    run.advance (some next) state =
      (do
        match ← Command.lift (Slots.status next) with
        | .terminated =>
          run.fail (.diverged (run.strengthText position) (state.progress.iterations + 1)) position
        | .empty => run.fail .nothingToFit position
        | _ => run.settle position updates (state.progress.iterations + 1) next : RunCommand α Unit)
      ⟨⟨state.progress.phase, state.progress.iterations + 1⟩,
        state.store.put (run.key position (state.progress.iterations + 1)) next, state.notes⟩ := by
  obtain ⟨⟨_, iterations⟩, store, notes⟩ := state
  cases stands
  have recorded := run.record_of_fresh ⟨.atPosition position updates, iterations + 1⟩ notes
    fresh next
  unfold advance
  rw [get_bind]
  simp only
  rw [bind_of_ok (rfl : countUpdate _ = .ok (iterations + 1) _), bind_of_ok recorded]
  rfl

theorem advance_of_verdict (run : Run α) {state : RunState α} {position updates : Nat}
    {previous next : Slots α} {phase : Phase} (tracked : run.Tracks state previous)
    (stands : state.progress.phase = .atPosition position updates)
    (decided : run.verdict position updates (state.progress.iterations + 1) previous next =
      .ok phase) :
    ∃ notes, run.advance (some next) state = .ok ()
      ⟨⟨phase, state.progress.iterations + 1⟩,
        run.stored state.store position (state.progress.iterations + 1) phase next, notes⟩ := by
  have held := tracked.held
  have bounded := tracked.bounded
  have unrecorded : ∀ other,
      state.store.state? (run.key other (state.progress.iterations + 1)) = none :=
    fun other => tracked.fresh other _ (Nat.lt_succ_self _)
  rw [stands] at held bounded
  rw [run.advance_some stands (unrecorded position)]
  rcases verdict_eq_ok run decided with
    ⟨read, rfl⟩ | ⟨read, rfl⟩ | ⟨status, distance, read, alive, filled, measured, rfl⟩
  · rw [stored_failed, read, lift_ok_bind]
    exact ⟨_, rfl⟩
  · rw [stored_failed, read, lift_ok_bind]
    exact ⟨_, rfl⟩
  · rw [read, lift_ok_bind]
    have settled := run.settle_of_distance updates state.progress.phase state.notes bounded held
      (unrecorded (position + 1)) measured
    cases status with
    | terminated => exact absurd rfl alive
    | empty => exact absurd rfl filled
    | _ => exact settled

theorem advance_of_error (run : Run α) {state : RunState α} {position updates : Nat}
    {previous next : Slots α} {error : Error} (tracked : run.Tracks state previous)
    (stands : state.progress.phase = .atPosition position updates)
    (refused : run.verdict position updates (state.progress.iterations + 1) previous next =
      .error error) :
    run.advance (some next) state = .error error
      ⟨⟨state.progress.phase, state.progress.iterations + 1⟩,
        state.store.put (run.key position (state.progress.iterations + 1)) next, state.notes⟩ := by
  have held := tracked.held
  rw [stands] at held
  rw [run.advance_some stands (tracked.fresh position _ (Nat.lt_succ_self _))]
  unfold verdict at refused
  cases read : next.status with
  | error raised =>
    rw [read] at refused
    cases refused
    rw [lift_error_bind]
  | ok status =>
    rw [read] at refused
    rw [lift_ok_bind]
    cases status with
    | terminated => cases refused
    | empty => cases refused
    | _ =>
      cases measured : run.test.distance (some previous) (some next) with
      | ok distance =>
        simp only [measured] at refused
        cases refused
      | error raised =>
        simp only [measured] at refused
        cases refused
        exact run.settle_of_error updates state.progress.phase state.notes held measured

theorem advance_eq_ok (run : Run α) {state after : RunState α} {previous : Slots α}
    {next? : Option (Slots α)} (tracked : run.Tracks state previous)
    (ended : run.advance next? state = .ok () after) :
    ∃ position updates next phase notes,
      state.progress.phase = .atPosition position updates ∧ next? = some next ∧
      run.verdict position updates (state.progress.iterations + 1) previous next = .ok phase ∧
      after = ⟨⟨phase, state.progress.iterations + 1⟩,
        run.stored state.store position (state.progress.iterations + 1) phase next, notes⟩ := by
  cases stands : state.progress.phase with
  | atPosition position updates =>
    cases next? with
    | none =>
      simp only [advance, get_bind, stands] at ended
      cases ended
    | some next =>
      cases decided :
          run.verdict position updates (state.progress.iterations + 1) previous next with
      | ok phase =>
        obtain ⟨notes, advanced⟩ := run.advance_of_verdict tracked stands decided
        rw [advanced] at ended
        cases ended
        exact ⟨position, updates, next, phase, notes, rfl, rfl, decided, rfl⟩
      | error error =>
        rw [run.advance_of_error tracked stands decided] at ended
        cases ended
  | _ =>
    simp only [advance, get_bind, stands] at ended
    cases ended

theorem Tracks.updated {run : Run α} {state : RunState α} {position updates : Nat}
    {previous next : Slots α} {phase : Phase} (tracked : run.Tracks state previous)
    (stands : state.progress.phase = .atPosition position updates)
    (decided : run.verdict position updates (state.progress.iterations + 1) previous next =
      .ok phase) (notes : List Note) :
    run.Tracks ⟨⟨phase, state.progress.iterations + 1⟩,
      run.stored state.store position (state.progress.iterations + 1) phase next, notes⟩ next := by
  have bounded := tracked.bounded
  rw [stands] at bounded
  constructor
  · simp only [state?_stored, or_true, if_true]
  · intro otherPosition iteration later
    simp only at later
    have other : iteration ≠ state.progress.iterations + 1 := by omega
    simp only [state?_stored, key_inj, other, and_false, or_false, if_false]
    exact tracked.fresh otherPosition iteration (by omega)
  · simp only [Phase.position] at bounded
    rcases position_verdict run bounded decided with same | ⟨before, moved⟩
    · simp only [same, bounded]
    · simp only [moved]
      omega

theorem step_of_tracks (run : Run α) {state : RunState α} {last : Slots α} {position updates : Nat}
    (tracked : run.Tracks state last)
    (stands : state.progress.phase = .atPosition position updates) :
    run.step state = (do run.pass.step (some last) (← run.contextAt position) run.source) := by
  have reads := run.current_of_tracks tracked (by rw [stands]; simp)
  unfold step
  rw [stands]
  simp only [reads]
  rfl

theorem tick_of_verdict (run : Run α) {state : RunState α} {position updates : Nat}
    {last next : Slots α} {phase : Phase} (tracked : run.Tracks state last)
    (stands : state.progress.phase = .atPosition position updates)
    (stepped : run.step state = .ok next)
    (decided : run.verdict position updates (state.progress.iterations + 1) last next =
      .ok phase) :
    ∃ notes, run.tick state = .ok ()
      ⟨⟨phase, state.progress.iterations + 1⟩,
        run.stored state.store position (state.progress.iterations + 1) phase next, notes⟩ := by
  unfold tick
  rw [get_bind, stepped, lift_ok_bind]
  exact run.advance_of_verdict tracked stands decided

end ElasticNet.Run
