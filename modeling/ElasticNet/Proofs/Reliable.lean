import ElasticNet.Optimizer.Named
import ElasticNet.Proofs.Counts
import ElasticNet.Proofs.Fista.Slots
import ElasticNet.Proofs.Igd.Slots
import ElasticNet.Proofs.Run.Regrouped

namespace ElasticNet

open Command

variable {α : Type} [Scalar α]

/-- An optimizer that never fails on the slots of some states, over contexts and data of one
    dimension. -/
structure Optimizer.Reliable (optimizer : Optimizer α) (dimension : Nat)
    (Sound : Slots α → Prop) : Prop where
  initial : ∀ context : StepContext α, context.dimension = dimension →
    context.means.length = dimension → ∃ first, optimizer.initial context = .ok first ∧ Sound first
  step : ∀ {slots}, Sound slots → ∀ (mode : PassMode) (context : StepContext α) (source : Source α),
    source.dimension = dimension →
    ∃ next, Pass.step ⟨optimizer, mode⟩ (some slots) context source = .ok next ∧ Sound next ∧
      ((∀ part ∈ source.partitions, part.complete = []) → next.status = .ok .empty)
  status : ∀ {slots}, Sound slots → ∃ status, slots.status = .ok status
  distance : ∀ {before after}, Sound before → Sound after →
    ∃ distance, optimizer.distance before after = .ok distance
  model : ∀ {slots}, Sound slots → ∀ (spreads : List α) (tolerance : α),
    spreads.length = dimension →
    ∃ model, optimizer.model slots spreads tolerance = .ok model ∧
      model.coefficients.length = dimension

theorem Kernel.CarriedOut.exists_step {σ : Type} {kernel : Kernel α σ} {optimizer : Optimizer α}
    {write : σ → Slots α} {Sized : σ → Prop} {dimension : Nat}
    (carried : kernel.CarriedOut optimizer write Sized dimension)
    (idle : ∀ state context, kernel.merge (kernel.begin state context)
      (kernel.begin state context) = kernel.begin state context)
    (empty : ∀ state context,
      Slots.status (write (kernel.finalize (kernel.begin state context))) = .ok .empty)
    {state : σ} (sized : Sized state) (mode : PassMode) (context : StepContext α)
    (source : Source α) (fitting : source.dimension = dimension) :
    ∃ next, Pass.step ⟨optimizer, mode⟩ (some (write state)) context source = .ok next ∧
      (∃ after, Sized after ∧ next = write after) ∧
      ((∀ part ∈ source.partitions, part.complete = []) → next.status = .ok .empty) := by
  obtain ⟨next, stepped⟩ := carried.step fitting sized mode context
  refine ⟨_, stepped, ⟨_, next, rfl⟩, ?_⟩
  intro none
  unfold Kernel.pass
  rw [Kernel.gather_of_none _ mode state context none (idle state context)]
  exact empty state context

/-- A way to end passes that flags what had no rows as empty, and anything else by whether it is
    finite. -/
structure Concludes {σ : Type} (finalize : σ → σ) (rows status : σ → α) : Prop where
  none : ∀ {state}, Scalar.toUInt64 (rows state) = 0 →
    status (finalize state) = Status.empty.slot
  some : ∀ {state}, Scalar.toUInt64 (rows state) ≠ 0 → ∃ finite : Bool,
    status (finalize state) = (if finite then Status.inProcess else Status.terminated).slot

theorem Status.ofSlot_ne_empty [Scalar.KeepsCounts α] (finite : Bool) :
    Status.ofSlot ((if finite then Status.inProcess else Status.terminated).slot : α) ≠
      .empty := by
  cases finite with
  | true =>
    have given : Status.ofSlot (Status.inProcess.slot : α) = .inProcess := Status.ofSlot_slot nofun
    exact given.trans_ne nofun
  | false =>
    have given : Status.ofSlot (Status.terminated.slot : α) = .terminated :=
      Status.ofSlot_slot nofun
    exact given.trans_ne nofun

theorem Concludes.status_eq_empty_iff [Scalar.KeepsCounts α] {σ : Type} {finalize : σ → σ}
    {rows status : σ → α} (concludes : Concludes finalize rows status) {layout : Layout α σ}
    {flag : σ → α → σ} (last : layout.StatusLast status flag) {state : σ} :
    Slots.status (layout.write (finalize state)) = .ok .empty ↔
      Scalar.toUInt64 (rows state) = 0 := by
  rw [last.read_status, Except.ok.injEq]
  constructor
  · intro empty
    by_contra some
    obtain ⟨finite, told⟩ := concludes.some some
    rw [told] at empty
    exact Status.ofSlot_ne_empty finite empty
  · intro none
    rw [concludes.none none]
    exact Status.ofSlot_slot nofun

namespace Igd

theorem concludes (family : Family) :
    Concludes (State.finalize family : State α → State α) State.rows State.status where
  none given := (congrArg State.status (if_pos given) :)
  some given := ⟨_, (congrArg State.status (if_neg given) :)⟩

theorem sized_initialState [Scalar.KeepsCounts α] (family : Family) {context : StepContext α}
    (small : context.dimension < UInt32.size)
    (means : context.means.length = context.dimension) :
    (initialState family context).Sized context.dimension :=
  ⟨Scalar.KeepsCounts.toUInt32_natCast _ small, means,
    (length_link _ _).trans List.length_replicate, List.length_replicate⟩

theorem reliable [Scalar.KeepsCounts α] (family : Family) {dimension : Nat}
    (positive : 0 < dimension) (small : dimension < UInt32.size) :
    (optimizer family : Optimizer α).Reliable dimension fun slots =>
      ∃ state : State α, state.Sized dimension ∧ slots = layout.write state where
  initial := by
    rintro context rfl means
    refine ⟨layout.write (initialState family context), ?_, _,
      sized_initialState family small means,
      rfl⟩
    exact if_pos ⟨positive, means⟩
  step := by
    rintro _ ⟨state, sized, rfl⟩ mode context source fitting
    refine (carriedOut family dimension).exists_step (fun _ _ => if_pos Scalar.toUInt64_zero)
      (fun state context => ?_) sized mode context source fitting
    have cleared : Scalar.toUInt64 (state.begin context).rows = 0 := Scalar.toUInt64_zero
    exact ((concludes family).status_eq_empty_iff statusLast).mpr cleared
  status := by
    rintro _ ⟨state, sized, rfl⟩
    exact ⟨_, statusLast.read_status state⟩
  distance := by
    rintro _ _ ⟨before, sized, rfl⟩ ⟨after, other, rfl⟩
    exact ⟨_, distance_write sized other family⟩
  model := by
    rintro _ ⟨state, sized, rfl⟩ spreads tolerance fitting
    refine ⟨state.model spreads tolerance, ?_, ?_⟩
    · change (layout.view (layout.write state)).map _ = _
      rw [(readsBack sized).view]
      rfl
    · change (state.keptCoefficients spreads tolerance).length = _
      unfold State.keptCoefficients
      rw [List.length_zipWith, List.length_zipWith, sized.coefficients, fitting, Nat.min_self,
        Nat.min_self]

end Igd

namespace Fista

theorem concludes : Concludes (State.finalize : State α → State α) State.rows State.status where
  none given := (congrArg State.status (if_pos given) :)
  some given := ⟨_, (congrArg State.status (if_neg given) :)⟩

theorem sized_initialState [Scalar.KeepsCounts α] {context : StepContext α}
    (small : context.dimension < UInt32.size) :
    (initialState context).Sized context.dimension :=
  ⟨Scalar.KeepsCounts.toUInt32_natCast _ small, List.length_replicate, List.length_replicate,
    List.length_replicate, List.length_replicate⟩

theorem reliable [Scalar.KeepsCounts α] (family : Family) {dimension : Nat}
    (positive : 0 < dimension) (fits : slotCount dimension < UInt32.size) :
    (optimizer family : Optimizer α).Reliable dimension fun slots =>
      ∃ state : State α, state.Sized dimension ∧ slots = layout.write state where
  initial := by
    rintro context rfl _
    refine ⟨layout.write (initialState context), ?_, _,
      sized_initialState (lt_of_slotCount_lt fits), rfl⟩
    exact (if_neg (Nat.ne_of_gt positive)).trans (if_pos fits)
  step := by
    rintro _ ⟨state, sized, rfl⟩ mode context source fitting
    refine (carriedOut family dimension).exists_step (fun _ _ => if_pos Scalar.toUInt64_zero)
      (fun state context => ?_) sized mode context source fitting
    have cleared : Scalar.toUInt64 (state.begin context).rows = 0 := Scalar.toUInt64_zero
    exact (concludes.status_eq_empty_iff statusLast).mpr cleared
  status := by
    rintro _ ⟨state, sized, rfl⟩
    exact ⟨_, statusLast.read_status state⟩
  distance := by
    rintro _ _ ⟨before, sized, rfl⟩ ⟨after, other, rfl⟩
    exact ⟨_, distance_write sized other family⟩
  model := by
    rintro _ ⟨state, sized, rfl⟩ spreads tolerance _
    refine ⟨state.model, ?_, sized.coefficients⟩
    change (layout.view (layout.write state)).map _ = _
    rw [(readsBack sized).view]
    rfl

end Fista

/-- Both methods are reliable where a word can count the slots of the larger of their states. -/
theorem Optimizer.exists_reliable [Scalar.KeepsCounts α] (family : Family) (method : Method)
    {dimension : Nat} (positive : 0 < dimension)
    (fits : Fista.slotCount dimension < UInt32.size) :
    ∃ Sound, (Optimizer.ofMethod family method : Optimizer α).Reliable dimension Sound := by
  have small := Fista.lt_of_slotCount_lt fits
  cases method with
  | igd => exact ⟨_, Igd.reliable family positive small⟩
  | fista => exact ⟨_, Fista.reliable family positive fits⟩

namespace Run

variable {run : Run α} {dimension : Nat} {Sound : Slots α → Prop}

structure OnReliable (run : Run α) (dimension : Nat) (Sound : Slots α → Prop) : Prop where
  reliable : run.pass.optimizer.Reliable dimension Sound
  tested : run.test.optimizer = run.pass.optimizer
  context : run.context.dimension = dimension
  means : run.context.means.length = dimension
  source : run.source.dimension = dimension
  paid : 0 < run.budget

namespace OnReliable

variable (sure : run.OnReliable dimension Sound)
include sure

theorem answers : run.Answers := by
  refine Answers.of_closed Sound ?_ ?_ ?_ ?_
  · intro strength
    exact sure.reliable.initial _ sure.context sure.means
  · intro state strength sound
    obtain ⟨next, stepped, kept, _⟩ := sure.reliable.step sound run.pass.mode
      { run.context with strength := strength } run.source sure.source
    exact ⟨next, stepped, kept⟩
  · intro state sound
    exact sure.reliable.status sound
  · intro previous next sound kept
    rw [sure.tested]
    exact sure.reliable.distance sound kept

theorem ended : run.Ended .empty (run.alone run.updatesAlone) run.updatesAlone :=
  ended_alone sure.paid sure.answers (Nat.le_refl _)

theorem sound_walk (count : Nat) : Sound (run.stateAfter count) ∧
    1 ≤ run.positionAfter count ∧ run.positionAfter count ≤ run.path.size := by
  induction count with
  | zero =>
    obtain ⟨strength, _, context⟩ := run.contextAt_eq_ok (Nat.le_refl 1) (size_pos run.path)
    obtain ⟨first, given, sound⟩ := sure.reliable.initial { run.context with strength := strength }
      sure.context sure.means
    have started : run.baseline = .ok first := by
      unfold baseline
      rw [context]
      exact given
    have state : run.stateAfter 0 = first := by
      change run.baseline.toOption.getD [] = first
      rw [started]
      rfl
    exact ⟨state ▸ sound, Nat.le_refl _, size_pos run.path⟩
  | succ count ih =>
    obtain ⟨sound, positive, within⟩ := ih
    obtain ⟨strength, _, context⟩ := run.contextAt_eq_ok positive within
    obtain ⟨next, given, kept, _⟩ := sure.reliable.step sound run.pass.mode
      { run.context with strength := strength } run.source sure.source
    have state : run.stateAfter (count + 1) = next := by
      rw [stateAfter_succ]
      unfold stepped
      rw [context, ok_bind]
      exact congrArg (fun result => result.toOption.getD []) given
    refine ⟨state ▸ kept, ?_⟩
    rw [positionAfter_succ]
    split
    · next moved =>
      unfold moves at moved
      rw [Bool.and_eq_true, decide_eq_true_eq] at moved
      exact ⟨Nat.le_succ_of_le positive, moved.1⟩
    · exact ⟨positive, within⟩

theorem sound_stateAfter (count : Nat) : Sound (run.stateAfter count) :=
  (sure.sound_walk count).1

/-- A run walks the same loop as another one if it starts from the same states along the same path,
    and takes the same steps from states that do not fail. -/
theorem sameLoop {other : Run α} (path : other.path = run.path) (test : other.test = run.test)
    (baseline : ∀ strength, other.pass.baseline { other.context with strength := strength } =
      run.pass.baseline { run.context with strength := strength })
    (step : ∀ {slots}, Sound slots → ∀ strength,
      other.pass.step (some slots) { other.context with strength := strength } other.source =
        run.pass.step (some slots) { run.context with strength := strength } run.source) :
    run.SameLoop other := by
  refine ⟨path, test, fun count => ?_⟩
  induction count with
  | zero =>
    have first : other.baseline = run.baseline := by
      unfold Run.baseline contextAt
      rw [path]
      cases run.path.get 1 with
      | ok strength => exact baseline strength
      | error error => rfl
    unfold walk
    rw [first]
  | succ count ih =>
    have next : other.stepped (run.positionAfter count) (run.stateAfter count) =
        run.stepped (run.positionAfter count) (run.stateAfter count) := by
      unfold stepped contextAt
      rw [path]
      cases run.path.get (run.positionAfter count) with
      | ok strength =>
        exact congrArg (fun result => result.toOption.getD [])
          (step (sure.sound_stateAfter count) strength)
      | error error => rfl
    have moved (position : Nat) : other.moves position = run.moves position := by
      funext previous next
      unfold moves
      rw [path, test]
    have states : other.stateAfter count = run.stateAfter count := congrArg Prod.fst ih
    have positions : other.positionAfter count = run.positionAfter count := congrArg Prod.snd ih
    have state : other.stateAfter (count + 1) = run.stateAfter (count + 1) := by
      rw [stateAfter_succ, stateAfter_succ, states, positions, next]
    refine Prod.ext state ?_
    change other.positionAfter (count + 1) = run.positionAfter (count + 1)
    rw [positionAfter_succ, positionAfter_succ, state, states, positions, moved]

theorem nothingToFit (none : ∀ part ∈ run.source.partitions, part.complete = []) :
    (run.alone run.updatesAlone).progress = ⟨.failed .nothingToFit 1, 1⟩ := by
  have ended := sure.ended
  have follows := ended.walked.follows
  have positive := ended.positive
  obtain ⟨strength, _, given⟩ := follows.steps 0 positive
  obtain ⟨next, stepped, _, status⟩ := sure.reliable.step (sure.sound_stateAfter 0)
    run.pass.mode { run.context with strength := strength } run.source sure.source
  cases given.symm.trans stepped
  have stops : run.Stops run.stateAfter run.positionAfter 0
      (.failed .nothingToFit (run.positionAfter 0)) := .nothingToFit (status none)
  have once : run.updatesAlone = 1 := by
    by_contra more
    exact ended.quiet 0 (by omega) _ stops
  have iterations := ended.walked.iterations
  have last := ended.stops
  rw [once] at last iterations ⊢
  have phase : (run.alone 1).progress.phase = .failed .nothingToFit 1 := last.unique stops
  exact congrArg₂ Progress.mk phase iterations

end OnReliable

end Run

end ElasticNet
