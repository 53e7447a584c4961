import ElasticNet.Proofs.Run.History
import ElasticNet.Proofs.Run.Loop

namespace ElasticNet.Run

open Command

variable {α : Type}

structure Counted (run : Run α) (count : Nat) (state : RunState α) : Prop where
  iterations : state.progress.iterations = count
  fresh : ∀ position iteration, count < iteration →
    state.store.state? (run.key position iteration) = none

theorem record_eq_error (run : Run α) {position iteration : Nat} {state? : Option (Slots α)}
    {state after : RunState α} {error : Error}
    (failed : run.record position iteration state? state = .error error after) : after = state := by
  unfold record at failed
  rw [get_bind] at failed
  cases appended : state.store.append (run.key position iteration) state? <;>
    rw [appended] at failed <;> cases failed
  rfl

theorem start_eq_error (run : Run α) {state after : RunState α} {error : Error}
    (failed : run.start state = .error error after) : after = state := by
  unfold start at failed
  rw [get_bind] at failed
  cases stands : state.progress.phase <;> simp only [stands] at failed
  case start =>
    cases reached : run.contextAt 1 with
    | error raised =>
      rw [reached, lift_error_bind] at failed
      cases failed
      rfl
    | ok context =>
      cases given : run.pass.baseline context with
      | error raised =>
        rw [reached, lift_ok_bind, given, lift_error_bind] at failed
        cases failed
        rfl
      | ok first =>
        rw [reached, lift_ok_bind, given, lift_ok_bind] at failed
        cases recorded : run.record 1 0 (some first) state with
        | ok answer begun =>
          rw [bind_of_ok recorded] at failed
          cases failed
        | error raised unchanged =>
          rw [bind_of_error recorded] at failed
          cases failed
          exact run.record_eq_error recorded
  all_goals
    cases failed
    rfl

section Counted

variable {run : Run α} {count : Nat}

theorem Counted.setPhase (phase : Phase) :
    Keeps (run.Counted count) (setPhase phase : RunCommand α Unit) :=
  fun _ counted => ⟨counted.iterations, counted.fresh⟩

theorem Counted.tell (notes : List Note) :
    Keeps (run.Counted count) (tell notes : RunCommand α Unit) :=
  fun _ counted => ⟨counted.iterations, counted.fresh⟩

theorem Counted.record {iteration : Nat} (before : iteration ≤ count) (position : Nat)
    (state? : Option (Slots α)) :
    Keeps (run.Counted count) (run.record position iteration state?) := by
  rintro ⟨progress, store, notes⟩ counted
  unfold result
  cases state? with
  | none => exact counted
  | some recorded =>
    cases held : store.state? (run.key position iteration) with
    | some earlier =>
      unfold Run.record
      rw [get_bind, Store.append_of_held held, lift_error_bind]
      exact counted
    | none =>
      rw [run.record_of_fresh progress notes held]
      refine ⟨counted.iterations, ?_⟩
      intro other later passed
      have apart : later ≠ iteration := by omega
      simpa [Store.state?_put, key_inj, apart] using counted.fresh other later passed

theorem Counted.start : Keeps (run.Counted count) run.start := by
  unfold Run.start
  refine Keeps.get.bind fun state => ?_
  cases state.progress.phase with
  | start =>
    exact (Keeps.lift _).bind fun _ => (Keeps.lift _).bind fun _ =>
      (Counted.record (Nat.zero_le _) 1 _).bind fun _ => Counted.setPhase _
  | _ => exact fun _ counted => counted

theorem Counted.fail (failure : Failure) (position : Nat) :
    Keeps (run.Counted count) (run.fail failure position) :=
  (Counted.setPhase _).bind fun _ => Counted.tell _

variable [Scalar α]

theorem Counted.settle (position updates : Nat) (next : Slots α) :
    Keeps (run.Counted count) (run.settle position updates count next) := by
  have closes : ∀ phase, Keeps (run.Counted count) (if run.budget ≤ count then do
      Run.setPhase (run.exhausted phase)
      Run.tell (run.exhaustedNotes phase)
      else pure () : RunCommand α Unit) :=
    fun phase => .ite ((Counted.setPhase _).bind fun _ => Counted.tell _) (.pure ())
  have rests : ∀ (converged : Bool) (phase : Phase) (notes : List Note),
      Keeps (run.Counted count) (do
        Run.setPhase phase
        if converged then Run.tell notes
        if run.budget ≤ count then
          Run.setPhase (run.exhausted phase)
          Run.tell (run.exhaustedNotes phase) : RunCommand α Unit) :=
    fun _ phase _ => (Counted.setPhase _).bind fun _ =>
      .ite ((Counted.tell _).bind fun _ => closes phase) (closes phase)
  exact Keeps.get.bind fun state => (Keeps.lift _).bind fun previous =>
    (Keeps.lift _).bind fun distance =>
      .ite ((Counted.record (Nat.le_refl _) _ _).bind fun _ => rests _ _ _) (rests _ _ _)

theorem Counted.advance {state : RunState α} (counted : run.Counted count state)
    (next? : Option (Slots α)) :
    ∃ later, run.Counted later (result (run.advance next?) state).2 := by
  obtain ⟨⟨phase, iterations⟩, store, notes⟩ := state
  cases counted.iterations
  cases phase with
  | atPosition position updates =>
    -- the update is counted first, and from there on the count stays
    have fresh : run.Counted (iterations + 1)
        ⟨⟨.atPosition position updates, iterations + 1⟩, store, notes⟩ :=
      ⟨rfl, fun other later passed => counted.fresh other later (Nat.lt_of_succ_lt passed)⟩
    refine ⟨iterations + 1, ?_⟩
    refine ((Counted.record (Nat.le_refl _) position next?).bind fun _ =>
      (Keeps.lift (Slots.status (next?.getD []))).bind fun status => ?_) _ fresh
    cases status with
    | terminated => exact Counted.fail _ _
    | empty => exact Counted.fail _ _
    | _ => exact Counted.settle _ _ _
  | _ => exact ⟨iterations, counted⟩

end Counted

variable [Scalar α]

theorem tick_of_step_error (run : Run α) {state : RunState α} {error : Error}
    (failed : run.step state = .error error) : run.tick state = .error error state := by
  unfold tick
  rw [get_bind, failed, lift_error_bind]

theorem advance_elsewhere (run : Run α) {state : RunState α}
    (elsewhere : ∀ position updates, state.progress.phase ≠ .atPosition position updates)
    (next? : Option (Slots α)) :
    run.advance next? state = .error .runNotAtPosition state := by
  unfold advance
  rw [get_bind]
  cases stands : state.progress.phase with
  | atPosition position updates => exact absurd stands (elsewhere position updates)
  | _ => rfl

theorem advance_none (run : Run α) {state : RunState α} {position updates : Nat}
    (stands : state.progress.phase = .atPosition position updates) :
    run.advance none state = .error .recordOfNothing
      ⟨⟨state.progress.phase, state.progress.iterations + 1⟩, state.store, state.notes⟩ := by
  obtain ⟨⟨_, iterations⟩, store, notes⟩ := state
  cases stands
  rfl

theorem settle_eq_error (run : Run α) {state after : RunState α} {position updates iteration : Nat}
    {next : Slots α} {error : Error}
    (fresh : state.store.state? (run.key (position + 1) iteration) = none)
    (failed : run.settle position updates iteration next state = .error error after) :
    after = state := by
  unfold settle at failed
  rw [get_bind] at failed
  cases looked : state.store.lookup (run.key position (iteration - 1)) with
  | error raised =>
    rw [looked, lift_error_bind] at failed
    cases failed
    rfl
  | ok previous =>
    rw [looked, lift_ok_bind] at failed
    cases measured : run.test.distance (some previous) (some next) with
    | error raised =>
      rw [measured, lift_error_bind] at failed
      cases failed
      rfl
    | ok distance =>
      rw [measured, lift_ok_bind] at failed
      simp only at failed
      -- nothing that is left can fail
      split at failed
      · rw [bind_of_ok (run.record_of_fresh _ _ fresh next)] at failed
        split at failed <;> split at failed <;> cases failed
      · split at failed <;> split at failed <;> cases failed

theorem advance_some_eq_error (run : Run α) {state after : RunState α} {position updates : Nat}
    {next : Slots α} {error : Error} (stands : state.progress.phase = .atPosition position updates)
    (fresh : ∀ position, state.store.state? (run.key position (state.progress.iterations + 1)) =
      none)
    (failed : run.advance (some next) state = .error error after) :
    after = ⟨⟨state.progress.phase, state.progress.iterations + 1⟩,
      state.store.put (run.key position (state.progress.iterations + 1)) next, state.notes⟩ := by
  rw [run.advance_some stands (fresh position)] at failed
  cases read : next.status with
  | error raised =>
    rw [read, lift_error_bind] at failed
    cases failed
    rfl
  | ok status =>
    rw [read, lift_ok_bind] at failed
    cases status with
    | terminated => cases failed
    | empty => cases failed
    | _ =>
      apply run.settle_eq_error _ failed
      simpa [Store.state?_put, key_inj] using fresh (position + 1)

theorem advance_of_missing (run : Run α) (state : RunState α) {position updates : Nat}
    {next : Slots α} (stands : state.progress.phase = .atPosition position updates)
    (missing : state.store.state? (run.key position state.progress.iterations) = none)
    (fresh : state.store.state? (run.key position (state.progress.iterations + 1)) = none)
    (goes : Goes next) :
    run.advance (some next) state =
      .error (.notRecorded (run.key position state.progress.iterations).text)
        ⟨⟨state.progress.phase, state.progress.iterations + 1⟩,
          state.store.put (run.key position (state.progress.iterations + 1)) next,
          state.notes⟩ := by
  have unrecorded : (state.store.put (run.key position (state.progress.iterations + 1)) next).state?
      (run.key position (state.progress.iterations + 1 - 1)) = none := by
    simpa [Store.state?_put, key_inj] using missing
  obtain ⟨status, read, alive, filled⟩ := goes
  rw [run.advance_some stands fresh, read, lift_ok_bind]
  cases status with
  | terminated => exact absurd rfl alive
  | empty => exact absurd rfl filled
  | _ =>
    simp only
    unfold settle
    rw [get_bind, Store.lookup_of_missing unrecorded, lift_error_bind]
    rfl

omit [Scalar α] in
theorem current_of_held (run : Run α) (state : RunState α) {position updates : Nat}
    {last : Slots α} (stands : state.progress.phase = .atPosition position updates)
    (held : state.store.state? (run.key position state.progress.iterations) = some last) :
    run.current state = .ok last := by
  unfold current
  rw [stands]
  exact Store.lookup_of_state? held

omit [Scalar α] in
theorem current_of_missing (run : Run α) (state : RunState α) {position updates : Nat}
    (stands : state.progress.phase = .atPosition position updates)
    (missing : state.store.state? (run.key position state.progress.iterations) = none) :
    run.current state =
      .error (.notRecorded (run.key position state.progress.iterations).text) := by
  unfold current
  rw [stands]
  exact Store.lookup_of_missing missing

/-- The states that calls of `start` and `advance` lead to, whether they succeed or fail, while
    others record for other groups. -/
inductive Calls (run : Run α) : RunState α → Prop
  | created (store : Store (Slots α)) (notes : List Note) (fresh : store.history run.group = []) :
    Calls run ⟨.start, store, notes⟩
  | start {state : RunState α} (called : Calls run state) : Calls run (result run.start state).2
  | advance {state : RunState α} (called : Calls run state) (next? : Option (Slots α)) :
    Calls run (result (run.advance next?) state).2
  | elsewhere {state : RunState α} (called : Calls run state) (store : Store (Slots α))
      (notes : List Note)
      (same : ∀ key : StateKey, key.group = run.group → store.state? key = state.store.state? key) :
    Calls run ⟨state.progress, store, notes⟩

theorem Calls.counted {run : Run α} {state : RunState α} (called : run.Calls state) :
    run.Counted state.progress.iterations state := by
  induction called with
  | created store notes fresh =>
    refine ⟨rfl, ?_⟩
    intro position iteration _
    exact (Store.history_eq_nil store run.group).mp fresh _ (group_key run position iteration)
  | start called ih =>
    have kept := Counted.start _ ih
    rwa [kept.iterations]
  | advance called next? ih =>
    obtain ⟨later, kept⟩ := ih.advance next?
    rwa [kept.iterations]
  | elsewhere called store notes same ih =>
    refine ⟨rfl, ?_⟩
    intro position iteration later
    rw [same _ (group_key run position iteration)]
    exact ih.fresh position iteration later

/-- What failed calls leave. A start, a step and an update elsewhere than at a position leave the
    run as it was. An update at a position counts although it failed. Without a state the run has
    lost its last one: the next update is refused whatever it brings, and the run goes on from
    there. With a state, the run goes on from the state that was refused. -/
theorem failed_calls (run : Run α) {state : RunState α} (called : run.Calls state) :
    (∀ error after, run.start state = .error error after → after = state) ∧
    (∀ error, run.step state = .error error → run.tick state = .error error state) ∧
    ((∀ position updates, state.progress.phase ≠ .atPosition position updates) →
      ∀ next?, run.advance next? state = .error .runNotAtPosition state) ∧
    ∀ position updates, state.progress.phase = .atPosition position updates →
      let key := run.key position (state.progress.iterations + 1)
      let counted : Progress := ⟨state.progress.phase, state.progress.iterations + 1⟩
      let lost : RunState α := ⟨counted, state.store, state.notes⟩
      run.advance none state = .error .recordOfNothing lost ∧
      run.current lost = .error (.notRecorded key.text) ∧
      (∀ next, Goes next → ∃ after, run.advance (some next) lost = .error (.notRecorded key.text)
        after ∧ after.progress.iterations = state.progress.iterations + 2 ∧
        run.current after = .ok next) ∧
      ∀ next error after, run.advance (some next) state = .error error after →
        after = ⟨counted, state.store.put key next, state.notes⟩ ∧
        run.current after = .ok next := by
  refine ⟨fun _ _ => run.start_eq_error, fun _ => run.tick_of_step_error, run.advance_elsewhere, ?_⟩
  intro position updates stands key counted lost
  have fresh : ∀ position later, state.progress.iterations < later →
      state.store.state? (run.key position later) = none := called.counted.fresh
  have missing : state.store.state? key = none := fresh position _ (by omega)
  have recorded : ∀ next, (state.store.put key next).state? key = some next := by
    simp [Store.state?_put]
  refine ⟨run.advance_none stands, run.current_of_missing lost stands missing, ?_, ?_⟩
  · intro next goes
    have unrecorded : state.store.state? (run.key position (state.progress.iterations + 1 + 1)) =
        none := fresh position _ (by omega)
    refine ⟨_, run.advance_of_missing lost stands missing unrecorded goes, rfl, ?_⟩
    exact run.current_of_held ⟨⟨state.progress.phase, _⟩, _, _⟩ stands
      (by simp [lost, counted, Store.state?_put])
  · intro next error after failed
    cases run.advance_some_eq_error stands (fun other => fresh other _ (by omega)) failed
    exact ⟨rfl, run.current_of_held ⟨counted, _, _⟩ stands (recorded next)⟩

theorem failed_calls_hurried :
    hurried.Calls hurriedStart ∧ ∃ lost after,
      hurried.advance none hurriedStart = .error .recordOfNothing lost ∧
      hurried.advance (some [0, 2, 1, 0, 0, 0]) lost =
        .error (.notRecorded (hurried.key 1 1).text) after ∧
      after.progress.iterations = 2 ∧ hurried.current after = .ok [0, 2, 1, 0, 0, 0] := by
  have called : hurried.Calls hurriedStart := .start (.created .empty [] (by decide +kernel))
  have progress : hurriedStart.progress = ⟨.atPosition 1 0, 0⟩ := by decide +kernel
  have stands : hurriedStart.progress.phase = .atPosition 1 0 := by rw [progress]
  have status : Status.ofSlot (0 : Float) = .inProcess := by decide +kernel
  have goes : Goes ([0, 2, 1, 0, 0, 0] : Slots Float) :=
    ⟨.inProcess, congrArg Except.ok status, nofun, nofun⟩
  obtain ⟨refused, _, again, _⟩ := (failed_calls hurried called).2.2.2 1 0 stands
  obtain ⟨after, failed, count, reads⟩ := again _ goes
  rw [progress] at failed count
  exact ⟨called, _, after, refused, by simpa only [progress] using failed, count, reads⟩

/-- The call that failed is the difference: without it, the same state is taken in. -/
theorem failed_call_counts :
    hurried.Calls hurriedStart ∧
    hurriedStart.progress.iterations = 0 ∧
    (result (hurried.advance none) hurriedStart).1.isOk = false ∧
    (result (hurried.advance none) hurriedStart).2.progress.iterations = 1 ∧
    (result (hurried.advance (some [0, 2, 1, 0, 0, 0])) hurriedStart).1.isOk = true ∧
    (result (hurried.advance (some [0, 2, 1, 0, 0, 0]))
      (result (hurried.advance none) hurriedStart).2).1.isOk = false :=
  ⟨.start (.created .empty [] (by decide +kernel)), by decide +kernel, by decide +kernel,
    by decide +kernel, by decide +kernel, by decide +kernel⟩

end ElasticNet.Run
