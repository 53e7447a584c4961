import ElasticNet.Proofs.Command
import ElasticNet.Proofs.Store
import ElasticNet.Run

namespace ElasticNet.Run

open Command

variable {α : Type}

/-- What a run sees in a shared store, beside what it would see in a store of its own, and beside
    the records of others, which stay as they are. -/
structure Apart (run : Run α) (outside : Store (Slots α)) (shared alone : RunState α) : Prop where
  progress : shared.progress = alone.progress
  own : ∀ key : StateKey, key.group = run.group →
    shared.store.state? key = alone.store.state? key
  others : ∀ key : StateKey, key.group ≠ run.group →
    shared.store.state? key = outside.state? key

section Commands

variable {run : Run α} {outside : Store (Slots α)}

theorem lookup_apart {shared alone : RunState α} (apart : run.Apart outside shared alone)
    (position iteration : Nat) :
    shared.store.lookup (run.key position iteration) =
      alone.store.lookup (run.key position iteration) :=
  Store.lookup_congr (apart.own _ rfl)

theorem current_apart {shared alone : RunState α} (apart : run.Apart outside shared alone) :
    run.current shared = run.current alone := by
  unfold current
  rw [apart.progress]
  cases alone.progress.phase with
  | start => rfl
  | _ => exact lookup_apart apart _ _

theorem tell_apart (notes : List Note) : Same (run.Apart outside) (tell notes) (tell notes) :=
  fun _ _ apart => .ok () ⟨apart.progress, apart.own, apart.others⟩

theorem setPhase_apart (phase : Phase) :
    Same (run.Apart outside) (setPhase phase) (setPhase phase) := by
  intro shared alone apart
  refine .ok () ⟨?_, apart.own, apart.others⟩
  simp only [apart.progress]

theorem countUpdate_apart : Same (run.Apart outside) countUpdate countUpdate := by
  intro shared alone apart
  have counted : (countUpdate shared : EStateM.Result _ _ _) = .ok (alone.progress.iterations + 1)
      ⟨⟨alone.progress.phase, alone.progress.iterations + 1⟩, shared.store, shared.notes⟩ := by
    rw [← apart.progress]
    rfl
  rw [counted]
  exact .ok _ ⟨rfl, apart.own, apart.others⟩

theorem record_apart (position iteration : Nat) (state? : Option (Slots α)) :
    Same (run.Apart outside) (run.record position iteration state?)
      (run.record position iteration state?) := by
  intro shared alone apart
  have same := apart.own (run.key position iteration) rfl
  unfold record
  rw [get_bind, get_bind]
  cases state? with
  | none => exact .error _ apart
  | some state =>
    cases held : alone.store.state? (run.key position iteration) with
    | some old =>
      rw [Store.append_of_held held, Store.append_of_held (same.trans held)]
      exact .error _ apart
    | none =>
      rw [Store.append_of_fresh held, Store.append_of_fresh (same.trans held)]
      refine .ok () ⟨apart.progress, ?_, ?_⟩
      · intro key inGroup
        simp only [Store.state?_put, apart.own key inGroup]
      · intro key other
        have elsewhere : key ≠ run.key position iteration := by
          rintro rfl
          exact other rfl
        simp only [Store.state?_put, elsewhere, if_false]
        exact apart.others key other

theorem fail_apart (failure : Failure) (position : Nat) :
    Same (run.Apart outside) (run.fail failure position) (run.fail failure position) :=
  (setPhase_apart _).bind fun _ => tell_apart _

theorem start_apart : Same (run.Apart outside) run.start run.start := by
  apply Same.get_bind
  intro shared alone apart
  rw [apart.progress]
  cases alone.progress.phase with
  | start =>
    exact ((Same.lift _).bind fun context => (Same.lift _).bind fun baseline =>
      (record_apart 1 0 _).bind fun _ => setPhase_apart _) _ _ apart
  | _ => exact .error _ apart

variable [Scalar α]

theorem step_apart {shared alone : RunState α} (apart : run.Apart outside shared alone) :
    run.step shared = run.step alone := by
  unfold step
  rw [current_apart apart, apart.progress]

theorem settle_apart (position updates iteration : Nat) (next : Slots α) :
    Same (run.Apart outside) (run.settle position updates iteration next)
      (run.settle position updates iteration next) := by
  apply Same.get_bind
  intro shared alone apart
  rw [lookup_apart apart]
  refine ((Same.lift _).bind fun previous => (Same.lift _).bind fun distance => ?_) _ _ apart
  have ended (phase : Phase) : Same (run.Apart outside)
      (do
        if run.budget ≤ iteration then
          setPhase (run.exhausted phase)
          tell (run.exhaustedNotes phase))
      (do
        if run.budget ≤ iteration then
          setPhase (run.exhausted phase)
          tell (run.exhaustedNotes phase)) :=
    .ite ((setPhase_apart _).bind fun _ => tell_apart _) (.pure ())
  exact .ite
    ((record_apart _ _ _).bind fun _ => (setPhase_apart _).bind fun _ =>
      .ite ((tell_apart _).bind fun _ => ended _) (ended _))
    ((setPhase_apart _).bind fun _ => .ite ((tell_apart _).bind fun _ => ended _) (ended _))

theorem advance_apart (next? : Option (Slots α)) :
    Same (run.Apart outside) (run.advance next?) (run.advance next?) := by
  apply Same.get_bind
  intro shared alone apart
  rw [apart.progress]
  cases alone.progress.phase with
  | atPosition position updates =>
    refine (countUpdate_apart.bind fun iteration => (record_apart _ _ _).bind fun _ =>
      (Same.lift _).bind fun status => ?_) _ _ apart
    cases status with
    | terminated => exact fail_apart _ _
    | empty => exact fail_apart _ _
    | _ => exact settle_apart _ _ _ _
  | _ => exact .error _ apart

end Commands

inductive Call (α : Type) where
  | start
  | step
  | advance (next? : Option (Slots α))
  | current

/-- What a call shows of a run: its answer, a state if it computes or reads one, and how far the run
    is afterwards and what it has recorded. -/
structure Report (α : Type) where
  answer : Except Error (Option (Slots α))
  progress : Progress
  history : List (StateKey × Slots α)

structure Shared (ι α : Type) where
  progress : ι → Progress
  store : Store (Slots α)
  notes : List Note

def ownOf {ι β : Type} [DecidableEq ι] (i : ι) (entries : List (ι × β)) : List β :=
  entries.filterMap fun entry => if entry.1 = i then some entry.2 else none

theorem ownOf_cons_self {ι β : Type} [DecidableEq ι] (i : ι) (given : β) (entries : List (ι × β)) :
    ownOf i ((i, given) :: entries) = given :: ownOf i entries := by
  simp [ownOf]

theorem ownOf_cons_of_ne {ι β : Type} [DecidableEq ι] {i other : ι} (elsewhere : other ≠ i)
    (given : β) (entries : List (ι × β)) :
    ownOf i ((other, given) :: entries) = ownOf i entries := by
  simp [ownOf, elsewhere]

namespace Shared

variable {ι : Type} [DecidableEq ι]

def view (state : Shared ι α) (i : ι) : RunState α :=
  ⟨state.progress i, state.store, state.notes⟩

def put (state : Shared ι α) (i : ι) (after : RunState α) : Shared ι α where
  progress other := if other = i then after.progress else state.progress other
  store := after.store
  notes := after.notes

theorem view_put (state : Shared ι α) (i : ι) (after : RunState α) :
    (state.put i after).view i = after := by
  simp only [view, put, if_true]

theorem view_put_of_ne (state : Shared ι α) {i other : ι} (elsewhere : other ≠ i)
    (after : RunState α) :
    (state.put other after).view i = ⟨state.progress i, after.store, after.notes⟩ := by
  simp only [view, put, elsewhere.symm, if_false]

end Shared

variable [Scalar α]

def perform (run : Run α) : Call α → RunCommand α (Option (Slots α))
  | .start => do
    run.start
    return none
  | .step => do
    return some (← Command.lift (run.step (← get)))
  | .advance next? => do
    run.advance next?
    return none
  | .current => do
    return some (← Command.lift (run.current (← get)))

def call (run : Run α) (asked : Call α) (state : RunState α) : Report α × RunState α :=
  let (answer, after) := (run.perform asked).result state
  (⟨answer, after.progress, after.store.history run.group⟩, after)

def play (run : Run α) : List (Call α) → RunState α → List (Report α) × RunState α
  | [], state => ([], state)
  | asked :: rest, state =>
    let (report, after) := run.call asked state
    let (reports, last) := run.play rest after
    (report :: reports, last)

theorem perform_apart {run : Run α} {outside : Store (Slots α)} (asked : Call α) :
    Same (run.Apart outside) (run.perform asked) (run.perform asked) := by
  cases asked with
  | start => exact start_apart.bind fun _ => .pure none
  | advance next? => exact (advance_apart next?).bind fun _ => .pure none
  | step =>
    apply Same.get_bind
    intro shared alone apart
    rw [step_apart apart]
    exact ((Same.lift _).bind fun next => .pure (some next)) _ _ apart
  | current =>
    apply Same.get_bind
    intro shared alone apart
    rw [current_apart apart]
    exact ((Same.lift _).bind fun last => .pure (some last)) _ _ apart

theorem call_apart {run : Run α} {outside : Store (Slots α)} {shared alone : RunState α}
    (apart : run.Apart outside shared alone) (asked : Call α) :
    (run.call asked shared).1 = (run.call asked alone).1 ∧
      run.Apart outside (run.call asked shared).2 (run.call asked alone).2 := by
  have same := perform_apart asked shared alone apart
  unfold call result
  cases outcome : run.perform asked shared <;> cases otherOutcome : run.perform asked alone <;>
    rw [outcome, otherOutcome] at same <;> cases same
  all_goals
    rename_i after
    refine ⟨?_, after⟩
    simp only [after.progress, Store.history_congr after.own]

namespace Shared

variable {ι : Type} [DecidableEq ι]

def play (runs : ι → Run α) :
    List (ι × Call α) → Shared ι α → List (ι × Report α) × Shared ι α
  | [], state => ([], state)
  | (i, asked) :: rest, state =>
    let (report, after) := (runs i).call asked (state.view i)
    let (reports, last) := play runs rest (state.put i after)
    ((i, report) :: reports, last)

def Agrees (runs : ι → Run α) (state : Shared ι α) (i : ι) (alone : RunState α) : Prop :=
  (runs i).Apart state.store (state.view i) alone

variable {runs : ι → Run α} {state : Shared ι α}

theorem Agrees.called {i : ι} {alone : RunState α} (agrees : state.Agrees runs i alone)
    (asked : Call α) :
    ((runs i).call asked (state.view i)).1 = ((runs i).call asked alone).1 ∧
      (state.put i ((runs i).call asked (state.view i)).2).Agrees runs i
        ((runs i).call asked alone).2 := by
  obtain ⟨same, apart⟩ := call_apart agrees asked
  refine ⟨same, ?_⟩
  unfold Agrees
  rw [view_put]
  exact ⟨apart.progress, apart.own, fun _ _ => rfl⟩

theorem Agrees.passed (distinct : Function.Injective fun i => (runs i).group) {i other : ι}
    {alone : RunState α} (agrees : state.Agrees runs i alone) (elsewhere : other ≠ i)
    (asked : Call α) :
    (state.put other ((runs other).call asked (state.view other)).2).Agrees runs i alone := by
  have itself : (runs other).Apart state.store (state.view other) (state.view other) :=
    ⟨rfl, fun _ _ => rfl, fun _ _ => rfl⟩
  have kept := (call_apart itself asked).2.others
  unfold Agrees
  rw [view_put_of_ne state elsewhere]
  refine ⟨agrees.progress, ?_, fun _ _ => rfl⟩
  intro key inGroup
  have outside : key.group ≠ (runs other).group := by
    rw [inGroup]
    exact fun same => elsewhere (distinct same).symm
  exact (kept key outside).trans (agrees.own key inGroup)

theorem Agrees.play (distinct : Function.Injective fun i => (runs i).group) {i : ι}
    {alone : RunState α} (agrees : state.Agrees runs i alone) (schedule : List (ι × Call α)) :
    ownOf i (play runs schedule state).1 = ((runs i).play (ownOf i schedule) alone).1 ∧
      (Shared.play runs schedule state).2.Agrees runs i
        ((runs i).play (ownOf i schedule) alone).2 := by
  -- the calls of the run itself move both sides, the calls of others neither
  induction schedule generalizing state alone with
  | nil => exact ⟨rfl, agrees⟩
  | cons entry rest ih =>
    obtain ⟨other, asked⟩ := entry
    by_cases own : other = i
    · subst other
      obtain ⟨same, after⟩ := agrees.called asked
      obtain ⟨reports, last⟩ := ih after
      rw [ownOf_cons_self]
      refine ⟨?_, last⟩
      simp only [Shared.play, Run.play, ownOf_cons_self, same, reports]
    · have after := agrees.passed distinct own asked
      obtain ⟨reports, last⟩ := ih after
      rw [ownOf_cons_of_ne own]
      refine ⟨?_, last⟩
      simp only [Shared.play, ownOf_cons_of_ne own, reports]

end Shared

end ElasticNet.Run
