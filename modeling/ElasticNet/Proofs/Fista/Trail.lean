import ElasticNet.Proofs.Fista.Outcomes
import ElasticNet.Proofs.Run.States

namespace ElasticNet.Fista

open Run

variable {α : Type} [Scalar α]

structure OnFista (family : Family) (run : Run α) : Prop where
  optimizer : run.pass.optimizer = Fista.optimizer family
  tested : run.test.optimizer = Fista.optimizer family
  dimension : run.context.dimension = run.source.dimension
  features : run.source.dimension ≠ 0
  small : slotCount run.source.dimension < UInt32.size
  paid : 0 < run.budget

/-- What a run has recorded that has ended: the state of each update at the position where it was
    computed, and where the run went on from it. -/
structure Recorded (run : Run α) (after : RunState α) (states : ℕ → State α) (positions : ℕ → ℕ) :
    Prop where
  first : positions 0 = 1
  standing : positions after.progress.iterations = after.progress.phase.position
  positive : 1 ≤ after.progress.iterations
  bounded : after.progress.iterations ≤ run.budget
  records : ∀ position iteration slots,
    after.store.lookup (run.key position iteration) = .ok slots ↔
      slots = layout.write (states iteration) ∧
      Commits positions after.progress.iterations after.progress.phase.position position iteration

def Leads (family : Family) (run : Run α) (position : ℕ) (before after : State α) : Prop :=
  ∃ strength, run.path.strengths[position - 1]? = some strength ∧
    after = (kernel family).pass run.pass.mode before { run.context with strength := strength }
      run.source.partitions

structure Trail (family : Family) (run : Run α) (phase : Phase) (total : ℕ) (states : ℕ → State α)
    (positions : ℕ → ℕ) : Prop where
  positive : 1 ≤ total
  baseline : ∃ strength, run.path.strengths[0]? = some strength ∧
    states 0 = initialState { run.context with strength := strength }
  first : positions 0 = 1
  leads : ∀ i < total, Leads family run (positions i) (states i) (states (i + 1))
  sized : ∀ i ≤ total, (states i).Sized run.source.dimension
  goes : ∀ i, i + 1 < total → Goes (layout.write (states (i + 1)))
  moves : ∀ i < total, positions (i + 1) ≠ positions i →
    positions (i + 1) = positions i + 1 ∧ Goes (layout.write (states (i + 1))) ∧
      (states i).distance (states (i + 1)) < run.test.warmupTolerance
  converged : ∀ position, phase = .done position true →
    position = run.path.size ∧ positions (total - 1) = position ∧
      Goes (layout.write (states total)) ∧
      (states (total - 1)).distance (states total) < run.test.tolerance

namespace OnFista

variable [Scalar.KeepsCounts α] {family : Family} {run : Run α} (sure : OnFista family run)
include sure

theorem onKernel : run.OnKernel (kernel family) initialState layout
    (State.Sized run.source.dimension) :=
  Fista.onKernel sure.optimizer sure.dimension rfl (Nat.pos_of_ne_zero sure.features) sure.small

theorem answers : run.Answers := by
  refine Answers.of_closed
    (fun slots => ∃ state : State α, state.Sized run.source.dimension ∧ slots = layout.write state)
    ?_ ?_ ?_ ?_
  · intro strength
    obtain ⟨sized, given⟩ := sure.onKernel.baseline strength
    exact ⟨_, given, _, sized, rfl⟩
  · rintro _ strength ⟨state, sized, rfl⟩
    obtain ⟨next, stepped⟩ := sure.onKernel.step sized strength
    exact ⟨_, stepped, _, next, rfl⟩
  · rintro _ ⟨state, _, rfl⟩
    exact ⟨_, statusLast.read_status state⟩
  · rintro _ _ ⟨state, sized, rfl⟩ ⟨other, otherSized, rfl⟩
    rw [sure.tested]
    exact ⟨_, distance_write sized otherSized family⟩

theorem toEnd {store : Store (Slots α)} (notes : List Note) (fresh : store.history run.group = []) :
    ∃ after states positions, run.toEnd ⟨.start, store, notes⟩ = .ok () after ∧
      Recorded run after states positions ∧
      Trail family run after.progress.phase after.progress.iterations states positions := by
  obtain ⟨after, total, ends, ended⟩ := run.toEnd_ended sure.paid sure.answers notes fresh
  obtain rfl := ended.walked.iterations
  have follows := ended.walked.follows
  obtain ⟨states, through, held⟩ := sure.onKernel.exists_states follows
  let positions := fun i =>
    if i < after.progress.iterations then run.positionAfter i else after.progress.phase.position
  have along {i : ℕ} (before : i < after.progress.iterations) :
      positions i = run.positionAfter i := if_pos before
  have standing : positions after.progress.iterations = after.progress.phase.position :=
    if_neg (Nat.lt_irrefl _)
  have positive := ended.positive
  have first : positions 0 = 1 := along positive
  have measured {i : ℕ} (before : i < after.progress.iterations) :
      run.test.optimizer.distance (run.stateAfter i) (run.stateAfter (i + 1)) =
        .ok ((states i).distance (states (i + 1))) := by
    obtain ⟨sized, same⟩ := held i (Nat.le_of_lt before)
    obtain ⟨nextSized, nextSame⟩ := held (i + 1) before
    rw [sure.tested, same, nextSame, distance_write sized nextSized]
  have told {i : ℕ} (before : i < after.progress.iterations) :
      (run.stateAfter (i + 1)).status = .ok (.ofSlot (states (i + 1)).status) := by
    rw [(held (i + 1) before).2, statusLast.read_status]
  refine ⟨after, states, positions, ends,
    ⟨first, standing, positive, ended.bounded, ?_⟩, positive, through.baseline, first, ?_, ?_, ?_,
    ?_, ?_⟩
  · intro position iteration slots
    rw [Store.lookup_eq_ok, ended.walked.records, commits_congr fun i before => along before]
    refine and_congr_left fun commits => ?_
    have inside : iteration ≤ after.progress.iterations := by
      unfold Commits at commits
      omega
    rw [(held iteration inside).2]
  · intro i before
    rw [along before]
    exact through.passes i before
  · exact fun i inside => (held i inside).1
  · intro i before
    rw [← (held (i + 1) (Nat.le_of_lt before)).2]
    exact goes_of_quiet (told (Nat.lt_of_succ_lt before)) (ended.quiet i before)
  · intro i before moved
    have same := (held (i + 1) before).2
    obtain ⟨arrived, goes⟩ : positions (i + 1) = run.positionAfter (i + 1) ∧
        Goes (run.stateAfter (i + 1)) := by
      by_cases last : i + 1 < after.progress.iterations
      · exact ⟨along last, goes_of_quiet (told before) (ended.quiet i last)⟩
      · have newest : i + 1 = after.progress.iterations := by omega
        have stops := ended.stops
        rw [← newest, Nat.add_sub_cancel] at stops
        rw [newest, standing, along before] at moved
        obtain ⟨goes, stands⟩ := stops.of_moved moved
        rw [newest, standing, ← newest]
        exact ⟨stands, goes⟩
    obtain ⟨distance, given, next⟩ := follows.moves i before
    rw [measured before] at given
    cases given
    rw [arrived, along before, next] at moved ⊢
    rw [same] at goes
    split at moved
    · next close =>
      rw [if_pos close]
      exact ⟨rfl, goes, close.2⟩
    · exact absurd rfl moved
  · intro position done
    have stops := ended.stops
    rw [done] at stops
    have before : after.progress.iterations - 1 < after.progress.iterations := by omega
    have newest : after.progress.iterations - 1 + 1 = after.progress.iterations := by omega
    cases stops with
    | converged goes target given below =>
      rw [measured before] at given
      cases given
      rw [newest] at below goes
      rw [(held _ (Nat.le_refl _)).2] at goes
      exact ⟨rfl, (along before).trans target, goes, below⟩

end OnFista

end ElasticNet.Fista
