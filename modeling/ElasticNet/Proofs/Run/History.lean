import ElasticNet.Halving
import ElasticNet.Proofs.Run.Update

namespace ElasticNet.Run

open Command

variable {α : Type}

/-- The history of a run that has come to each position up to its own after a number of updates. -/
structure HasHistory (run : Run α) (state : RunState α) (arrival : Nat → Nat) : Prop where
  first : arrival 1 = 0
  rising : ∀ position, 1 ≤ position → position < state.progress.phase.position →
    arrival position < arrival (position + 1)
  latest : arrival state.progress.phase.position ≤ state.progress.iterations
  keys : ∀ position iteration,
    (∃ held, state.store.state? (run.key position iteration) = some held) ↔
      (1 ≤ position ∧ position < state.progress.phase.position ∧
        arrival position ≤ iteration ∧ iteration ≤ arrival (position + 1)) ∨
      (position = state.progress.phase.position ∧
        arrival position ≤ iteration ∧ iteration ≤ state.progress.iterations)
  carried : ∀ position, 1 ≤ position → position < state.progress.phase.position →
    state.store.state? (run.key position (arrival (position + 1))) =
      state.store.state? (run.key (position + 1) (arrival (position + 1)))
  count : (state.store.history run.group).length =
    state.progress.iterations + state.progress.phase.position
  positive : 1 ≤ state.progress.phase.position
  bounded : state.progress.phase.position ≤ run.path.size
  underway : ∀ position updates, state.progress.phase = .atPosition position updates →
    updates = state.progress.iterations - arrival position ∧ state.progress.iterations < run.budget
  ended : ∀ position converged, state.progress.phase = .done position converged →
    position = run.path.size ∧ run.path.size ≤ state.progress.iterations

/-- The states that calls of `start` and `advance` lead to, while others record for other groups. -/
inductive Reaches [Scalar α] (run : Run α) : RunState α → Prop
  | created (store : Store (Slots α)) (notes : List Note) (fresh : store.history run.group = []) :
    Reaches run ⟨.start, store, notes⟩
  | started {state after : RunState α} (reached : Reaches run state)
      (ended : run.start state = .ok () after) : Reaches run after
  | advanced {state after : RunState α} (reached : Reaches run state) (next? : Option (Slots α))
      (ended : run.advance next? state = .ok () after) : Reaches run after
  | elsewhere {state : RunState α} (reached : Reaches run state) (store : Store (Slots α))
      (notes : List Note)
      (same : ∀ key : StateKey, key.group = run.group → store.state? key = state.store.state? key) :
    Reaches run ⟨state.progress, store, notes⟩

namespace HasHistory

variable {run : Run α} {state : RunState α} {arrival : Nat → Nat}

theorem arrival_mono (history : run.HasHistory state arrival) {position later : Nat}
    (positive : 1 ≤ position) (order : position ≤ later)
    (inside : later ≤ state.progress.phase.position) : arrival position ≤ arrival later := by
  induction later with
  | zero => omega
  | succ later ih =>
    by_cases same : position = later + 1
    · subst position
      exact Nat.le_refl _
    · have before := ih (by omega) (by omega)
      have step := history.rising later (by omega) (by omega)
      omega

theorem le_arrival (history : run.HasHistory state arrival) {position : Nat}
    (positive : 1 ≤ position) (inside : position ≤ state.progress.phase.position) :
    position ≤ arrival position + 1 := by
  induction position with
  | zero => omega
  | succ position ih =>
    by_cases zero : position = 0
    · omega
    · have before := ih (by omega) (by omega)
      have step := history.rising position (by omega) (by omega)
      omega

theorem tracks (history : run.HasHistory state arrival) : ∃ last, run.Tracks state last := by
  have latest := history.latest
  obtain ⟨last, held⟩ := (history.keys state.progress.phase.position state.progress.iterations).mpr
    (.inr ⟨rfl, latest, Nat.le_refl _⟩)
  refine ⟨last, held, ?_, history.bounded⟩
  intro position iteration later
  rw [Option.eq_none_iff_forall_ne_some]
  intro found recorded
  rcases (history.keys position iteration).mp ⟨found, recorded⟩ with
    ⟨positive, before, _, atMost⟩ | ⟨rfl, _, atMost⟩
  · have order : arrival (position + 1) ≤ arrival state.progress.phase.position :=
      history.arrival_mono (by omega) before (Nat.le_refl _)
    omega
  · omega

end HasHistory

theorem HasHistory.of_start (run : Run α) (paid : 0 < run.budget) {store : Store (Slots α)}
    (notes : List Note) (fresh : store.history run.group = []) (first : Slots α) :
    run.HasHistory ⟨⟨.atPosition 1 0, 0⟩, store.put (run.key 1 0) first, notes⟩ fun _ => 0 := by
  rw [Store.history_eq_nil] at fresh
  constructor <;> simp only [Phase.position]
  · intro position positive before
    omega
  · exact Nat.le_refl 0
  · intro position iteration
    simp only [Store.state?_put, key_inj, fresh (run.key position iteration) rfl]
    by_cases baseline : position = 1 ∧ iteration = 0
    · simp only [baseline, and_self, if_true]
      simp
    · simp only [baseline, if_false]
      simp
      omega
  · intro position positive before
    omega
  · rw [Store.length_history_put (group_key run 1 0) (fresh _ rfl) first,
      (Store.history_eq_nil store run.group).mpr fresh]
    rfl
  · exact Nat.le_refl 1
  · exact size_pos run.path
  · rintro position updates ⟨⟩
    exact ⟨rfl, paid⟩
  · rintro position converged ⟨⟩

theorem HasHistory.elsewhere {run : Run α} {state : RunState α} {arrival : Nat → Nat}
    (history : run.HasHistory state arrival) {store : Store (Slots α)} (notes : List Note)
    (same : ∀ key : StateKey, key.group = run.group → store.state? key = state.store.state? key) :
    run.HasHistory ⟨state.progress, store, notes⟩ arrival := by
  have records : ∀ position iteration, store.state? (run.key position iteration) =
      state.store.state? (run.key position iteration) :=
    fun position iteration => same _ (group_key run position iteration)
  obtain ⟨first, rising, latest, keys, carried, count, positive, bounded, underway, ended⟩ :=
    history
  refine ⟨first, rising, latest, ?_, ?_, ?_, positive, bounded, underway, ended⟩
  · intro position iteration
    rw [records]
    exact keys position iteration
  · intro position atLeast before
    rw [records, records]
    exact carried position atLeast before
  · rw [Store.history_congr same]
    exact count

theorem HasHistory.maxIteration {run : Run α} {state : RunState α} {arrival : Nat → Nat}
    (history : run.HasHistory state arrival) :
    state.store.maxIteration run.group = some state.progress.iterations := by
  obtain ⟨last, tracked⟩ := history.tracks
  apply Store.maxIteration_eq_some ⟨last, tracked.held⟩ (group_key run _ _) rfl
  rintro other inGroup ⟨found, held⟩
  rw [key_of_group run inGroup] at held
  by_cases later : other.iteration ≤ state.progress.iterations
  · exact later
  · rw [tracked.fresh other.position other.iteration (by omega)] at held
    cases held

/-- When positions are reached, once an update has been taken at a position: the next one is reached
    with this update, if it is reached at all. -/
def arrivalAfter (arrival : Nat → Nat) (position iteration other : Nat) : Nat :=
  if other ≤ position then arrival other else iteration

theorem arrivalAfter_of_le (arrival : Nat → Nat) {position other : Nat} (iteration : Nat)
    (before : other ≤ position) : arrivalAfter arrival position iteration other = arrival other :=
  if_pos before

theorem arrivalAfter_of_lt (arrival : Nat → Nat) {position other : Nat} (iteration : Nat)
    (behind : position < other) : arrivalAfter arrival position iteration other = iteration :=
  if_neg (Nat.not_le_of_lt behind)

namespace HasHistory

variable {run : Run α} {state : RunState α} {arrival : Nat → Nat} {position : Nat}
  {next : Slots α} {phase : Phase}

theorem arrival_le (history : run.HasHistory state arrival)
    (standing : state.progress.phase.position = position) {other : Nat} (positive : 1 ≤ other)
    (inside : other ≤ position) : arrival other ≤ state.progress.iterations := by
  have order := history.arrival_mono positive inside (Nat.le_of_eq standing.symm)
  have latest := history.latest
  rw [standing] at latest
  omega

theorem keys_updated (history : run.HasHistory state arrival)
    (standing : state.progress.phase.position = position)
    (moved : phase.position = position ∨ phase.position = position + 1) (other iteration : Nat) :
    (∃ held, (run.stored state.store position (state.progress.iterations + 1) phase next).state?
        (run.key other iteration) = some held) ↔
      (1 ≤ other ∧ other < phase.position ∧
        arrivalAfter arrival position (state.progress.iterations + 1) other ≤ iteration ∧
        iteration ≤ arrivalAfter arrival position (state.progress.iterations + 1) (other + 1)) ∨
      (other = phase.position ∧
        arrivalAfter arrival position (state.progress.iterations + 1) other ≤ iteration ∧
        iteration ≤ state.progress.iterations + 1) := by
  have positive := history.positive
  have latest := history.latest
  rw [standing] at positive latest
  rw [held_stored, history.keys, standing]
  -- a position before the current one, the current one, or one that is only reached now
  by_cases below : other + 1 ≤ position
  · have kept := history.arrival_le standing (Nat.le_add_left 1 other) below
    rw [arrivalAfter_of_le _ _ below, arrivalAfter_of_le _ _ (Nat.le_of_lt below)]
    omega
  · rw [arrivalAfter_of_lt _ _ (Nat.lt_of_not_le below)]
    by_cases here : other = position
    · subst other
      rw [arrivalAfter_of_le _ _ (Nat.le_refl _)]
      omega
    · rw [arrivalAfter_of_lt _ _ (by omega)]
      omega

theorem carried_updated (history : run.HasHistory state arrival)
    (standing : state.progress.phase.position = position)
    (moved : phase.position = position ∨ phase.position = position + 1) {other : Nat}
    (positive : 1 ≤ other) (before : other < phase.position) :
    let after := run.stored state.store position (state.progress.iterations + 1) phase next
    let hand := arrivalAfter arrival position (state.progress.iterations + 1) (other + 1)
    after.state? (run.key other hand) = after.state? (run.key (other + 1) hand) := by
  intro after hand
  subst after hand
  by_cases below : other + 1 ≤ position
  · have kept := history.arrival_le standing (Nat.le_add_left 1 other) below
    rw [arrivalAfter_of_le _ _ below]
    simp only [state?_stored, key_inj]
    rw [if_neg (by omega), if_neg (by omega)]
    exact history.carried other positive (by omega)
  · have here : other = position := by omega
    have there : phase.position = position + 1 := by omega
    subst other
    rw [arrivalAfter_of_lt _ _ (Nat.lt_succ_self _)]
    simp only [state?_stored, key_inj, there, true_or, or_true, if_true]

theorem rising_updated (history : run.HasHistory state arrival)
    (standing : state.progress.phase.position = position)
    (moved : phase.position = position ∨ phase.position = position + 1) {other : Nat}
    (positive : 1 ≤ other) (before : other < phase.position) :
    arrivalAfter arrival position (state.progress.iterations + 1) other <
      arrivalAfter arrival position (state.progress.iterations + 1) (other + 1) := by
  have kept := history.arrival_le standing positive (by omega)
  rw [arrivalAfter_of_le _ _ (by omega)]
  by_cases below : other + 1 ≤ position
  · rw [arrivalAfter_of_le _ _ below]
    exact history.rising other positive (by omega)
  · rw [arrivalAfter_of_lt _ _ (Nat.lt_of_not_le below)]
    omega

end HasHistory

variable [Scalar α]

theorem verdict_atPosition (run : Run α) {position updates iteration : Nat}
    {previous next : Slots α} {later count : Nat}
    (decided : run.verdict position updates iteration previous next =
      .ok (.atPosition later count)) :
    iteration < run.budget ∧ ((later = position ∧ count = updates + 1) ∨
      (later = position + 1 ∧ count = 0)) := by
  rcases verdict_eq_ok run decided with ⟨_, ⟨⟩⟩ | ⟨_, ⟨⟩⟩ | ⟨_, distance, _, _, _, _, settled⟩
  rw [settledPhase_eq] at settled
  split at settled <;> split at settled <;> try split at settled
  all_goals cases settled
  · exact ⟨by omega, .inr ⟨rfl, rfl⟩⟩
  · exact ⟨by omega, .inl ⟨rfl, rfl⟩⟩

theorem verdict_done (run : Run α) {position updates iteration : Nat} {previous next : Slots α}
    {last : Nat} {target : Bool}
    (decided : run.verdict position updates iteration previous next = .ok (.done last target)) :
    run.path.size ≤ position ∧ last = run.path.size := by
  rcases verdict_eq_ok run decided with ⟨_, ⟨⟩⟩ | ⟨_, ⟨⟩⟩ | ⟨_, distance, _, _, _, _, settled⟩
  rw [settledPhase_eq] at settled
  split at settled <;> split at settled <;> try split at settled
  all_goals cases settled
  · exact ⟨by omega, rfl⟩
  · exact ⟨by omega, rfl⟩

/-- An update adds a record at its position, and the first record of the next one if it moves there,
    which is then reached after this update. -/
theorem HasHistory.updated {run : Run α} {state : RunState α} {arrival : Nat → Nat}
    {position updates : Nat} {previous next : Slots α} {phase : Phase}
    (history : run.HasHistory state arrival)
    (stands : state.progress.phase = .atPosition position updates)
    (decided : run.verdict position updates (state.progress.iterations + 1) previous next =
      .ok phase) (notes : List Note) :
    run.HasHistory ⟨⟨phase, state.progress.iterations + 1⟩,
      run.stored state.store position (state.progress.iterations + 1) phase next, notes⟩
      (arrivalAfter arrival position (state.progress.iterations + 1)) := by
  have standing : state.progress.phase.position = position := by rw [stands]; rfl
  have bounded := history.bounded
  have positive := history.positive
  have enough := history.le_arrival positive (Nat.le_refl _)
  rw [standing] at bounded positive enough
  have kept := history.arrival_le standing positive (Nat.le_refl _)
  have moved := position_verdict run bounded decided
  have near : phase.position = position ∨ phase.position = position + 1 := by omega
  constructor
  · rw [arrivalAfter_of_le _ _ positive]
    exact history.first
  · exact fun other => history.rising_updated standing near
  · dsimp only
    rcases near with stays | moves
    · rw [stays, arrivalAfter_of_le _ _ (Nat.le_refl _)]
      omega
    · rw [moves]
      exact Nat.le_of_eq (arrivalAfter_of_lt _ _ (Nat.lt_succ_self _))
  · exact history.keys_updated standing near
  · exact fun other => history.carried_updated standing near
  · obtain ⟨last, tracked⟩ := history.tracks
    dsimp only
    rw [length_history_stored run phase next
      (fun other => tracked.fresh other _ (Nat.lt_succ_self _)), history.count, standing]
    split <;> omega
  · dsimp only
    omega
  · dsimp only
    omega
  · intro later count same
    dsimp only at same ⊢
    subst phase
    obtain ⟨left, rest⟩ := verdict_atPosition run decided
    have before := (history.underway position updates stands).1
    rcases rest with ⟨rfl, rfl⟩ | ⟨rfl, rfl⟩
    · rw [arrivalAfter_of_le _ _ (Nat.le_refl _)]
      omega
    · rw [arrivalAfter_of_lt _ _ (Nat.lt_succ_self _)]
      omega
  · intro last target same
    dsimp only at same ⊢
    subst phase
    have reached := verdict_done run decided
    omega

theorem Reaches.history {run : Run α} (paid : 0 < run.budget) {state : RunState α}
    (reached : run.Reaches state) :
    (state.progress = .start ∧ state.store.history run.group = []) ∨
      ∃ arrival, run.HasHistory state arrival := by
  induction reached with
  | created store notes fresh => exact .inl ⟨rfl, fresh⟩
  | @started state after reached ended ih =>
    right
    rcases ih with ⟨unstarted, empty⟩ | ⟨arrival, history⟩
    · have fresh := (Store.history_eq_nil _ _).mp empty (run.key 1 0) (group_key run 1 0)
      obtain ⟨_, first, _, rfl⟩ := start_eq_ok run fresh ended
      rw [unstarted]
      exact ⟨_, .of_start run paid state.notes empty first⟩
    · have positive := history.positive
      cases stands : state.progress.phase with
      | start =>
        rw [stands] at positive
        cases positive
      | _ =>
        simp only [start, get_bind, stands] at ended
        cases ended
  | @advanced state after reached next? ended ih =>
    right
    rcases ih with ⟨unstarted, _⟩ | ⟨arrival, history⟩
    · simp only [advance, get_bind, unstarted] at ended
      cases ended
    · obtain ⟨last, tracked⟩ := history.tracks
      obtain ⟨position, updates, next, phase, notes, stands, _, decided, rfl⟩ :=
        advance_eq_ok run tracked ended
      exact ⟨_, history.updated stands decided notes⟩
  | @elsewhere state reached store notes same ih =>
    rcases ih with ⟨unstarted, empty⟩ | ⟨arrival, history⟩
    · left
      rw [Store.history_congr same]
      exact ⟨unstarted, empty⟩
    · exact .inr ⟨arrival, history.elsewhere notes same⟩

/-- The whole history of a run, after any calls that succeed: nothing before the start, and from
    then on the records of each position from its first to its last update. So an update finds
    the state before it, records under new keys only, and can but fail in the optimizer. -/
theorem history_of_reached (run : Run α) (paid : 0 < run.budget) {state : RunState α}
    (reached : run.Reaches state) :
    (state.progress.phase = .start → state.store.history run.group = []) ∧
    (state.progress.phase ≠ .start →
      (∃ arrival, run.HasHistory state arrival) ∧
      state.store.maxIteration run.group = some state.progress.iterations ∧
      ∃ last, run.current state = .ok last) ∧
    ∀ position updates, state.progress.phase = .atPosition position updates → ∀ next : Slots α,
      (∃ recorded previous moved,
        state.store.append (run.key position (state.progress.iterations + 1)) (some next) =
          .ok recorded ∧
        recorded.lookup (run.key position state.progress.iterations) = .ok previous ∧
        recorded.append (run.key (position + 1) (state.progress.iterations + 1)) (some next) =
          .ok moved) ∧
      ∀ error after, run.advance (some next) state = .error error after →
        next.status = .error error ∨ ∃ previous, run.current state = .ok previous ∧
          run.test.distance (some previous) (some next) = .error error := by
  rcases reached.history paid with ⟨unstarted, empty⟩ | ⟨arrival, history⟩
  · rw [unstarted]
    refine ⟨fun _ => empty, fun started => absurd rfl started, ?_⟩
    rintro position updates ⟨⟩
  · obtain ⟨last, tracked⟩ := history.tracks
    have started : state.progress.phase ≠ .start := by
      intro unstarted
      have positive := history.positive
      rw [unstarted] at positive
      cases positive
    have reads := run.current_of_tracks tracked started
    refine ⟨fun unstarted => absurd unstarted started,
      fun _ => ⟨⟨arrival, history⟩, history.maxIteration, last, reads⟩, ?_⟩
    intro position updates stands next
    have held := tracked.held
    rw [stands] at held
    refine ⟨?_, ?_⟩
    · have fresh := tracked.fresh position _ (Nat.lt_succ_self state.progress.iterations)
      have unrecorded : (state.store.put (run.key position (state.progress.iterations + 1))
          next).state? (run.key (position + 1) (state.progress.iterations + 1)) = none := by
        simpa [Store.state?_put, key_inj] using
          tracked.fresh (position + 1) _ (Nat.lt_succ_self state.progress.iterations)
      exact ⟨_, last, _, Store.append_of_fresh fresh next, run.lookup_previous next held,
        Store.append_of_fresh unrecorded next⟩
    · intro error after failed
      cases decided : run.verdict position updates (state.progress.iterations + 1) last next with
      | ok phase =>
        obtain ⟨notes, advanced⟩ := run.advance_of_verdict tracked stands decided
        rw [advanced] at failed
        cases failed
      | error raised =>
        rw [run.advance_of_error tracked stands decided] at failed
        cases failed
        rcases verdict_eq_error run decided with unread | unmeasured
        · exact .inl unread
        · exact .inr ⟨last, reads, unmeasured⟩

def hurried : Run Float where
  group := some ""
  path := ⟨[2, 1], List.cons_ne_nil 2 [1]⟩
  pass := ⟨Halving.optimizer, .single⟩
  test := ⟨Halving.optimizer, 0.5, 0.5⟩
  context := .default
  source := .empty 0
  budget := 1

def hurriedStart : RunState Float :=
  (result hurried.start .start).2

def hurriedEnd : RunState Float :=
  (result (hurried.advance (some [0, 2, 1, 0, 0, 0])) hurriedStart).2

theorem history_of_hurried :
    hurriedEnd.progress = ⟨.failed .targetNotReached 2, 1⟩ ∧
    (∃ arrival, hurried.HasHistory hurriedEnd arrival) ∧
    hurriedEnd.store.maxIteration hurried.group = some 1 ∧
    ∃ last, hurried.current hurriedEnd = .ok last := by
  have ended : hurriedEnd.progress = ⟨.failed .targetNotReached 2, 1⟩ := by decide +kernel
  have created : hurried.Reaches .start := .created .empty [] (by decide +kernel)
  have started : hurried.Reaches hurriedStart := created.started (ends_of_isOk (by decide +kernel))
  have advanced : hurried.Reaches hurriedEnd :=
    started.advanced (some [0, 2, 1, 0, 0, 0]) (ends_of_isOk (by decide +kernel))
  have begun : hurriedEnd.progress.phase ≠ .start := by
    rw [ended]
    exact nofun
  obtain ⟨history, count, last⟩ := (history_of_reached hurried (by decide) advanced).2.1 begun
  rw [ended] at count
  exact ⟨ended, history, count, last⟩

end ElasticNet.Run
