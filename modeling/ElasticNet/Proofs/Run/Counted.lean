import ElasticNet.Proofs.Fista.Means
import ElasticNet.Proofs.Run.States

namespace ElasticNet

open Command

variable {α σ : Type} [Scalar α]

namespace Run

def RecordsSteps (run : Run α) (last : RunState α) (layout : Layout α σ)
    (Step : StepContext α → σ → σ → Prop) : Prop :=
  ∀ position iteration slots, last.store.lookup (run.key position (iteration + 1)) = .ok slots →
    ∃ earlier previous before after strength,
      last.store.lookup (run.key earlier iteration) = .ok previous ∧
      layout.view? previous = some before ∧ layout.view? slots = some after ∧
      strength ∈ run.path.strengths ∧ Step { run.context with strength := strength } before after

/-- The passes of a method that a run has recorded. Those of proximal steps leave means over the
    rows, where there are any. -/
def RecordsCounted (family : Family) (run : Run α) (last : RunState α) : Method → Prop
  | .igd => run.RecordsSteps last Igd.layout fun context before after =>
    (Igd.kernel family).CountedPass Igd.State.totalRows Igd.State.rows run.pass.mode context
      run.source before after
  | .fista => run.RecordsSteps last Fista.layout fun context before after =>
    (Fista.kernel family).CountedPass Fista.State.totalRows Fista.State.rows run.pass.mode context
      run.source before after ∧
    (run.source.completeCount ≠ 0 →
      Fista.Means family (before.begin context) after (run.source.rows.filter Row.isComplete))

structure CountsRows (family : Family) (method : Method) (run : Run α) (last : RunState α) :
    Prop where
  told : run.context.totalRows = run.source.completeCount
  updated : 1 ≤ last.progress.iterations
  recorded : ∀ iteration ≤ last.progress.iterations, ∃ position slots,
    last.store.lookup (run.key position iteration) = .ok slots
  steps : run.RecordsCounted family last method
  nothing : run.source.completeCount = 0 ↔ last.progress = ⟨.failed .nothingToFit 1, 1⟩

theorem CountsRows.congr {family : Family} {method : Method} {run : Run α} {last other : RunState α}
    (counts : run.CountsRows family method last) (progress : other.progress = last.progress)
    (own : ∀ key : StateKey, key.group = run.group →
      other.store.lookup key = last.store.lookup key) : run.CountsRows family method other := by
  have records (position iteration : Nat) : other.store.lookup (run.key position iteration) =
      last.store.lookup (run.key position iteration) := own _ rfl
  obtain ⟨told, updated, recorded, steps, nothing⟩ := counts
  refine ⟨told, progress ▸ updated, ?_, ?_, progress ▸ nothing⟩
  · simp only [records, progress]
    exact recorded
  · cases method with
    | igd =>
      simp only [RecordsCounted, RecordsSteps, records] at steps ⊢
      exact steps
    | fista =>
      simp only [RecordsCounted, RecordsSteps, records] at steps ⊢
      exact steps

theorem Stops.status_of_nothingToFit {run : Run α} {states : Nat → Slots α} {positions : Nat → Nat}
    {i position : Nat} {phase : Phase} (stops : run.Stops states positions i phase)
    (failed : phase = .failed .nothingToFit position) : (states (i + 1)).status = .ok .empty := by
  cases stops with
  | nothingToFit status => exact status
  | diverged _ | converged _ _ _ _ | spent _ _ _ _ _ | unreached _ _ _ => cases failed

section Records

variable {run : Run α} {dimension : Nat} {Sound : Slots α → Prop}
  (sure : run.OnReliable dimension Sound)
include sure

theorem OnReliable.lookup_ended {iteration : Nat} (inside : iteration ≤ run.updatesAlone) :
    ∃ position, (run.alone run.updatesAlone).store.lookup (run.key position iteration) =
      .ok (run.stateAfter iteration) := by
  have records := sure.ended.walked.records
  by_cases last : iteration = run.updatesAlone
  · exact ⟨_, Store.lookup_of_state? ((records _ _ _).mpr ⟨rfl, .inr (.inr ⟨last, rfl⟩)⟩)⟩
  · have before : iteration < run.updatesAlone := by omega
    exact ⟨_, Store.lookup_of_state? ((records _ _ _).mpr ⟨rfl, .inr (.inl ⟨before, rfl⟩)⟩)⟩

theorem OnReliable.of_lookup_ended {position iteration : Nat} {slots : Slots α}
    (held : (run.alone run.updatesAlone).store.lookup (run.key position iteration) = .ok slots) :
    iteration ≤ run.updatesAlone ∧ slots = run.stateAfter iteration := by
  obtain ⟨same, commits⟩ :=
    (sure.ended.walked.records _ _ _).mp ((Store.lookup_eq_ok _ _ _).mp held)
  unfold Commits at commits
  exact ⟨by omega, same⟩

end Records

section Counted

variable {kernel : Kernel α σ} {start : StepContext α → σ} {layout : Layout α σ}
  {Sized : σ → Prop} {dimension : Nat} {run : Run α} {Sound : Slots α → Prop} {total rows : σ → α}
  (carries : run.OnKernel kernel start layout Sized) (counts : kernel.Counts total rows)
  (sure : run.OnReliable dimension Sound)
include carries counts sure

variable [Scalar.AddsCounts α] (few : run.source.completeCount < 2 ^ 53)
include few

theorem nothing_iff (told : ∀ state, Slots.status (layout.write (kernel.finalize state)) =
      .ok .empty → Scalar.toUInt64 (rows state) = 0) :
    run.source.completeCount = 0 ↔
      (run.alone run.updatesAlone).progress = ⟨.failed .nothingToFit 1, 1⟩ := by
  refine ⟨fun none => sure.nothingToFit (Source.complete_of_completeCount none), fun failed => ?_⟩
  have ended := sure.ended
  have positive := ended.positive
  obtain ⟨states, through, held⟩ := carries.exists_states ended.walked.follows
  obtain ⟨strength, _, passed⟩ := through.passes (run.updatesAlone - 1) (by omega)
  have last : run.updatesAlone - 1 + 1 = run.updatesAlone := by omega
  have status := ended.stops.status_of_nothingToFit (congrArg Progress.phase failed)
  rw [last] at status passed
  rw [(held _ (Nat.le_refl _)).2, passed] at status
  have counted := told _ status
  rwa [counts.rows_gather _ _ few, Scalar.toUInt64_natCast_eq_zero few] at counted

theorem recordsSteps_counted (starts : ∀ context, total (start context) = (context.totalRows : α))
    (known : run.context.totalRows = run.source.completeCount) :
    run.RecordsSteps (run.alone run.updatesAlone) layout fun context before after =>
      kernel.CountedPass total rows run.pass.mode context run.source before after := by
  obtain ⟨states, through, held⟩ := carries.exists_states sure.ended.walked.follows
  have expected : ∀ i ≤ run.updatesAlone, total (states i) = (run.source.completeCount : α) := by
    intro i
    induction i with
    | zero =>
      intro _
      obtain ⟨strength, _, first⟩ := through.baseline
      rw [first, starts, ← known]
    | succ i ih =>
      intro inside
      obtain ⟨strength, _, passed⟩ := through.passes i inside
      rw [passed]
      exact (counts.countedPass _ _ few (ih (Nat.le_of_lt inside))).known
  intro position iteration slots recorded
  obtain ⟨inside, rfl⟩ := sure.of_lookup_ended recorded
  obtain ⟨earlier, previous⟩ := sure.lookup_ended (Nat.le_of_lt inside)
  obtain ⟨strength, stands, passed⟩ := through.passes iteration inside
  obtain ⟨sized, before⟩ := held iteration (Nat.le_of_lt inside)
  obtain ⟨nextSized, after⟩ := held (iteration + 1) inside
  refine ⟨earlier, _, states iteration, states (iteration + 1), strength, previous, ?_, ?_,
    List.mem_of_getElem? stands, ?_⟩
  · rw [before]
    exact carries.view sized
  · rw [after]
    exact carries.view nextSized
  · rw [passed]
    exact counts.countedPass _ _ few (expected iteration (Nat.le_of_lt inside))

end Counted

end Run

namespace Run

theorem OnReliable.countsRows [Scalar.AddsCounts α] {run : Run α} {dimension : Nat}
    {Sound : Slots α → Prop} (sure : run.OnReliable dimension Sound) {family : Family}
    {method : Method} (own : run.pass.optimizer = Optimizer.ofMethod family method)
    (positive : 0 < dimension) (fits : Fista.slotCount dimension < UInt32.size)
    (known : run.context.totalRows = run.source.completeCount)
    (few : run.source.completeCount < 2 ^ 53) :
    run.CountsRows family method (run.alone run.updatesAlone) := by
  have iterations := sure.ended.walked.iterations
  have updated := sure.ended.positive.trans_eq iterations.symm
  have recorded : ∀ iteration ≤ (run.alone run.updatesAlone).progress.iterations,
      ∃ position slots,
        (run.alone run.updatesAlone).store.lookup (run.key position iteration) = .ok slots := by
    intro iteration inside
    rw [iterations] at inside
    obtain ⟨position, held⟩ := sure.lookup_ended inside
    exact ⟨position, _, held⟩
  have small := Fista.lt_of_slotCount_lt fits
  cases method with
  | igd =>
    have carries := Igd.onKernel own sure.context sure.means sure.source positive small
    have counts := Igd.counts (α := α) family
    exact ⟨known, updated, recorded,
      recordsSteps_counted carries counts sure few (fun _ => rfl) known,
      nothing_iff carries counts sure few fun _ =>
        ((Igd.concludes family).status_eq_empty_iff Igd.statusLast).mp⟩
  | fista =>
    have carries := Fista.onKernel own sure.context sure.source positive fits
    have counts := Fista.counts (α := α) family
    refine ⟨known, updated, recorded, ?_,
      nothing_iff carries counts sure few fun _ =>
        (Fista.concludes.status_eq_empty_iff Fista.statusLast).mp⟩
    intro position iteration slots held
    obtain ⟨earlier, previous, before, after, strength, found, view, next, along, passed⟩ :=
      recordsSteps_counted carries counts sure few (fun _ => rfl) known position iteration slots
        held
    refine ⟨earlier, previous, before, after, strength, found, view, next, along, passed, ?_⟩
    intro some
    rw [passed.made]
    exact Fista.means_pass family _ _ some few passed.expected

end Run

end ElasticNet
