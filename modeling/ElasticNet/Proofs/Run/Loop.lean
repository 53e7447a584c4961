import ElasticNet.Proofs.Run.Update

namespace ElasticNet

theorem not_lt_of_isNaN {distance : Float} (undefined : distance.isNaN = true)
    (tolerance : Float) : ¬ distance < tolerance := by
  have unpacked : distance.toModel.unpack = .notANumber := by
    change distance.toModel.unpack.isNaN = true at undefined
    cases shape : distance.toModel.unpack with
    | notANumber => rfl
    | _ =>
      rw [shape] at undefined
      cases undefined
  have compared : distance.toModel.unpack.compare tolerance.toModel.unpack = none := by
    rw [unpacked]
    rfl
  change ¬ decide ((distance.toModel.unpack.compare tolerance.toModel.unpack == some .lt) = true) =
    true
  rw [compared]
  decide

namespace Run

variable {α : Type} [Scalar α]

/-- States and positions of the loop, up to a number of updates: the baseline of the first strength,
    and then one step after another at the strength of the position, which moves on when two states
    in a row are closer than the tolerance on the way. -/
structure Follows (run : Run α) (states : Nat → Slots α) (positions : Nat → Nat) (count : Nat) :
    Prop where
  baseline : ∃ strength, run.path.strengths[0]? = some strength ∧
    run.pass.baseline { run.context with strength := strength } = .ok (states 0)
  first : positions 0 = 1
  steps : ∀ i < count, ∃ strength, run.path.strengths[positions i - 1]? = some strength ∧
    run.pass.step (some (states i)) { run.context with strength := strength } run.source =
      .ok (states (i + 1))
  moves : ∀ i < count, ∃ distance,
    run.test.optimizer.distance (states i) (states (i + 1)) = .ok distance ∧
    positions (i + 1) =
      if positions i < run.path.size ∧ distance < run.test.warmupTolerance then positions i + 1
      else positions i

def Goes (state : Slots α) : Prop :=
  ∃ status, state.status = .ok status ∧ status ≠ .terminated ∧ status ≠ .empty

inductive Stops (run : Run α) (states : Nat → Slots α) (positions : Nat → Nat) (i : Nat) :
    Phase → Prop
  | diverged (status : (states (i + 1)).status = .ok .terminated) :
    Stops run states positions i
      (.failed (.diverged (run.strengthText (positions i)) (i + 1)) (positions i))
  | nothingToFit (status : (states (i + 1)).status = .ok .empty) :
    Stops run states positions i (.failed .nothingToFit (positions i))
  | converged {distance : α} (goes : Goes (states (i + 1))) (target : positions i = run.path.size)
      (measured : run.test.optimizer.distance (states i) (states (i + 1)) = .ok distance)
      (below : distance < run.test.tolerance) :
    Stops run states positions i (.done run.path.size true)
  | spent {distance : α} (goes : Goes (states (i + 1))) (target : positions i = run.path.size)
      (measured : run.test.optimizer.distance (states i) (states (i + 1)) = .ok distance)
      (above : ¬ distance < run.test.tolerance) (last : i + 1 = run.budget) :
    Stops run states positions i (.done run.path.size false)
  | unreached (goes : Goes (states (i + 1))) (before : positions i < run.path.size)
      (last : i + 1 = run.budget) :
    Stops run states positions i (.failed .targetNotReached (positions (i + 1)))

structure Answers (run : Run α) : Prop where
  baseline : ∀ strength, run.path.strengths[0]? = some strength →
    ∃ first, run.pass.baseline { run.context with strength := strength } = .ok first
  update : ∀ states positions count, run.Follows states positions count →
    (∀ i < count, ∀ phase, ¬ run.Stops states positions i phase) → count < run.budget →
    ∀ strength, run.path.strengths[positions count - 1]? = some strength →
    ∃ next status distance,
      run.pass.step (some (states count)) { run.context with strength := strength } run.source =
        .ok next ∧
      next.status = .ok status ∧ run.test.optimizer.distance (states count) next = .ok distance

theorem Follows.invariant {run : Run α} {states : Nat → Slots α} {positions : Nat → Nat}
    {count : Nat} (follows : run.Follows states positions count) (Sound : Slots α → Prop)
    (baseline : ∀ strength first,
      run.pass.baseline { run.context with strength := strength } = .ok first → Sound first)
    (step : ∀ state strength next, Sound state →
      run.pass.step (some state) { run.context with strength := strength } run.source = .ok next →
      Sound next) : ∀ i ≤ count, Sound (states i) := by
  intro i
  induction i with
  | zero =>
    intro _
    obtain ⟨strength, _, given⟩ := follows.baseline
    exact baseline strength (states 0) given
  | succ i ih =>
    intro inside
    obtain ⟨strength, _, stepped⟩ := follows.steps i inside
    exact step (states i) strength (states (i + 1)) (ih (Nat.le_of_lt inside)) stepped

theorem Answers.of_closed {run : Run α} (Sound : Slots α → Prop)
    (baseline : ∀ strength, ∃ first,
      run.pass.baseline { run.context with strength := strength } = .ok first ∧ Sound first)
    (step : ∀ state strength, Sound state → ∃ next,
      run.pass.step (some state) { run.context with strength := strength } run.source = .ok next ∧
      Sound next)
    (status : ∀ state, Sound state → ∃ status, state.status = .ok status)
    (distance : ∀ previous next, Sound previous → Sound next →
      ∃ distance, run.test.optimizer.distance previous next = .ok distance) : run.Answers := by
  constructor
  · intro strength _
    obtain ⟨first, given, _⟩ := baseline strength
    exact ⟨first, given⟩
  · intro states positions count follows _ _ strength _
    have sound : ∀ i ≤ count, Sound (states i) := by
      refine follows.invariant Sound ?_ ?_
      · intro weight given baselineGiven
        obtain ⟨first, same, sound⟩ := baseline weight
        cases baselineGiven.symm.trans same
        exact sound
      · intro state weight given sound stepped
        obtain ⟨next, same, kept⟩ := step state weight sound
        cases stepped.symm.trans same
        exact kept
    obtain ⟨next, stepped, reached⟩ := step (states count) strength (sound count (Nat.le_refl _))
    obtain ⟨code, read⟩ := status next reached
    obtain ⟨apart, measured⟩ := distance (states count) next (sound count (Nat.le_refl _)) reached
    exact ⟨next, code, apart, stepped, read, measured⟩

end Run

end ElasticNet
