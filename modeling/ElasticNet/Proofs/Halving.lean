import ElasticNet.Halving
import ElasticNet.Proofs.Run.Loop
import Mathlib.Tactic.Choose

namespace ElasticNet.Halving

open Command Editing

variable {α : Type}

def Regular (slots : Slots α) : Prop :=
  slots.length = 6

theorem read_regular {slots : Slots α} (regular : Regular slots) (place : Nat)
    (inside : place < 6) : ∃ number, Slots.read slots place = .ok number := by
  unfold Regular at regular
  unfold Slots.read
  rw [List.getElem?_eq_getElem (by omega)]
  exact ⟨_, rfl⟩

theorem readSlot_regular {place : Nat} (inside : place < 6) :
    Succeeds (Regular (α := α)) (readSlot place) := by
  intro slots regular
  unfold Regular at regular
  unfold readSlot
  rw [List.getElem?_eq_getElem (by omega)]
  exact ⟨_, slots, rfl, regular⟩

theorem writeSlot_regular {place : Nat} (inside : place < 6) (number : α) :
    Succeeds Regular (writeSlot place number) := by
  intro slots regular
  unfold Regular at regular
  unfold writeSlot
  rw [if_pos (by omega)]
  exact ⟨(), slots.set place number, rfl, (List.length_set ..).trans regular⟩

variable [Scalar α]

theorem addToSlot_regular {place : Nat} (inside : place < 6) (number : α) :
    Succeeds Regular (addToSlot place number) :=
  (readSlot_regular inside).bind fun _ => writeSlot_regular inside _

theorem begin_regular (context : StepContext α) : Succeeds Regular (begin context) := by
  have fresh : Succeeds Regular (do
      writeSlot rowsSlot (0 : α)
      writeSlot sumSlot 0
      writeSlot statusSlot Status.inProcess.slot) :=
    (writeSlot_regular (by decide) _).bind fun _ => (writeSlot_regular (by decide) _).bind fun _ =>
      writeSlot_regular (by decide) _
  exact (readSlot_regular (by decide)).bind fun strength =>
    .ite ((writeSlot_regular (by decide) _).bind fun _ =>
      (writeSlot_regular (by decide) _).bind fun _ => fresh) fresh

theorem merge_regular {other : Slots α} (regular : Regular other) :
    Succeeds Regular (merge other) := by
  unfold Regular at regular
  unfold merge
  rw [List.getElem?_eq_getElem (i := sumSlot) (by rw [regular]; decide),
    List.getElem?_eq_getElem (i := rowsSlot) (by rw [regular]; decide)]
  exact (addToSlot_regular (by decide) _).bind fun _ => addToSlot_regular (by decide) _

theorem finalize_regular : Succeeds Regular (finalize : Editing α Unit) := by
  refine (readSlot_regular (by decide)).bind fun rows => .ite (writeSlot_regular (by decide) _) ?_
  exact (readSlot_regular (by decide)).bind fun sum => (readSlot_regular (by decide)).bind fun _ =>
    (readSlot_regular (by decide)).bind fun value => (writeSlot_regular (by decide) _).bind fun _ =>
    (addToSlot_regular (by decide) _).bind fun _ => writeSlot_regular (by decide) _

theorem foldRows_regular (rows : List (Row α)) :
    Succeeds Regular (Pass.foldRows optimizer rows) := by
  induction rows with
  | nil => exact .pure ()
  | cons row rest ih =>
    exact ((addToSlot_regular (by decide) _).bind fun _ => addToSlot_regular (by decide) _).bind
      fun _ => ih

theorem foldPartitions_regular (partitions : List (Partition α)) :
    Succeeds Regular (Pass.foldPartitions optimizer partitions) := by
  induction partitions with
  | nil => exact .pure ()
  | cons part rest ih => exact (foldRows_regular part.complete).bind fun _ => ih

theorem mergeAll_regular {states : List (Slots α)} (regular : ∀ state ∈ states, Regular state) :
    Succeeds Regular (Pass.mergeAll optimizer states) := by
  induction states with
  | nil => exact .pure ()
  | cons state rest ih =>
    exact (merge_regular (regular state List.mem_cons_self)).bind fun _ =>
      ih fun other member => regular other (List.mem_cons_of_mem state member)

theorem begin_eq_ok {previous : Slots α} (regular : Regular previous) (context : StepContext α) :
    ∃ state, optimizer.begin (some previous) context = .ok state ∧ Regular state :=
  (begin_regular context).apply_eq_ok regular

theorem partialState_eq_ok {previous : Slots α} (regular : Regular previous)
    (context : StepContext α) (part : Partition α) :
    ∃ state, Pass.partialState optimizer previous context part = .ok state ∧ Regular state := by
  obtain ⟨begun, given, kept⟩ := begin_eq_ok regular context
  obtain ⟨state, folded, last⟩ := (foldRows_regular part.complete).apply_eq_ok kept
  refine ⟨state, ?_, last⟩
  unfold Pass.partialState
  rw [given]
  exact folded

theorem parallelPass_eq_ok {previous : Slots α} (regular : Regular previous)
    (context : StepContext α) (partitions : List (Partition α)) :
    ∃ state, Pass.parallelPass optimizer previous context partitions = .ok state ∧
      Regular state := by
  choose state given kept using partialState_eq_ok regular context
  unfold Pass.parallelPass
  rw [mapM_eq_ok fun part _ => given part]
  cases partitions with
  | nil =>
    obtain ⟨begun, begins, fresh⟩ := begin_eq_ok regular context
    obtain ⟨last, ended, closed⟩ := (finalize_regular (α := α)).apply_eq_ok fresh
    refine ⟨last, ?_, closed⟩
    change (do Command.apply finalize (← optimizer.begin (some previous) context)) = Except.ok last
    rw [begins]
    exact ended
  | cons first rest =>
    have others : ∀ other ∈ rest.map state, Regular other := by
      intro other member
      obtain ⟨part, _, rfl⟩ := List.mem_map.mp member
      exact kept part
    exact ((mergeAll_regular others).bind fun _ => finalize_regular).apply_eq_ok (kept first)

theorem singlePass_eq_ok {previous : Slots α} (regular : Regular previous)
    (context : StepContext α) (partitions : List (Partition α)) :
    ∃ state, Pass.singlePass optimizer previous context partitions = .ok state ∧
      Regular state := by
  obtain ⟨begun, given, kept⟩ := begin_eq_ok regular context
  obtain ⟨state, folded, last⟩ :=
    ((foldPartitions_regular partitions).bind fun _ => finalize_regular).apply_eq_ok kept
  refine ⟨state, ?_, last⟩
  unfold Pass.singlePass
  rw [given]
  exact folded

theorem distance_eq_ok {previous current : Slots α} (regular : Regular previous)
    (last : Regular current) : ∃ distance, optimizer.distance previous current = .ok distance := by
  obtain ⟨passes, readPasses⟩ := read_regular last passesSlot (by decide)
  obtain ⟨after, readAfter⟩ := read_regular last valueSlot (by decide)
  obtain ⟨before, readBefore⟩ := read_regular regular valueSlot (by decide)
  simp only [optimizer, readPasses, readAfter, readBefore]
  exact ⟨_, rfl⟩

theorem answers (run : Run α) (pass : run.pass.optimizer = optimizer)
    (test : run.test.optimizer = optimizer) : run.Answers := by
  apply Run.Answers.of_closed Regular
  · intro strength
    unfold Pass.baseline
    rw [pass]
    exact ⟨_, rfl, rfl⟩
  · intro state strength regular
    unfold Pass.step
    rw [pass]
    cases run.pass.mode with
    | parallel => exact parallelPass_eq_ok regular _ _
    | single => exact singlePass_eq_ok regular _ _
  · intro state regular
    have held : state ≠ [] := by
      rintro rfl
      cases regular
    unfold Slots.status
    rw [List.getLast?_eq_some_getLast held]
    exact ⟨_, rfl⟩
  · intro previous next regular last
    rw [test]
    exact distance_eq_ok regular last

def lone (response : Float) : Source Float where
  dimension := 0
  partitions := [⟨0, [⟨[], response, ""⟩], List.forall_mem_singleton.mpr rfl⟩]
  uniform := List.forall_mem_singleton.mpr rfl

end ElasticNet.Halving
