import ElasticNet.Convergence
import ElasticNet.Note
import ElasticNet.Pass
import ElasticNet.Path
import ElasticNet.Run.Phase
import ElasticNet.Store

namespace ElasticNet

structure Run (α : Type) where
  group : Option String
  path : Path α
  pass : Pass α
  test : ConvergenceTest α
  context : StepContext α
  source : Source α
  budget : Nat

structure Progress where
  phase : Phase
  iterations : Nat
deriving DecidableEq

structure RunState (α : Type) where
  progress : Progress
  store : Store (Slots α)
  notes : List Note

abbrev RunCommand (α β : Type) := Command (RunState α) β

def Progress.start : Progress := ⟨.start, 0⟩

def RunState.start {α : Type} : RunState α := ⟨.start, .empty, []⟩

namespace Run

variable {α : Type} [Scalar α]

def create (group : Option String) (path : Path α) (pass : Pass α) (test : ConvergenceTest α)
    (context : StepContext α) (source? : Option (Source α)) (budget : Nat) :
    Except Error (Run α) :=
  match source? with
  | none => .error .runWithoutData
  | some source =>
    if budget = 0 then .error .runWithoutBudget
    else .ok { group, path, pass, test, context, source, budget }

def label (run : Run α) : String :=
  match run.group with
  | some key => "Group \"" ++ key ++ "\": "
  | none => ""

def key (run : Run α) (position iteration : Nat) : StateKey :=
  ⟨run.group, position, iteration⟩

def contextAt (run : Run α) (position : Nat) : Except Error (StepContext α) :=
  (run.path.get position).map fun strength => { run.context with strength := strength }

def strengthText (run : Run α) (position : Nat) : String :=
  match run.path.get position with
  | .ok strength => Scalar.text strength
  | .error _ => ""

def nextPhase (run : Run α) (position updates : Nat) (converged : Bool) : Phase :=
  if converged then
    if position < run.path.size then .atPosition (position + 1) 0
    else .done run.path.size true
  else .atPosition position (updates + 1)

/-- The phase when the budget is used up. A position that the run has just come to has had no update
    of its own. -/
def exhausted (run : Run α) : Phase → Phase
  | .atPosition position updates =>
    if position < run.path.size ∨ updates = 0 then .failed .targetNotReached position
    else .done run.path.size false
  | phase => phase

def convergedNotes (run : Run α) (position updates iteration : Nat) (distance : α) : List Note :=
  if position < run.path.size then
    [.info (run.label ++ "Regularization strength " ++ run.strengthText position
      ++ " converged after " ++ toString (updates + 1) ++ " iterations (distance "
      ++ Scalar.text distance ++ "), continuing with " ++ run.strengthText (position + 1))]
  else
    [.info (run.label ++ "Target regularization strength " ++ run.strengthText run.path.size
      ++ " converged after " ++ toString iteration ++ " iterations")]

def exhaustedNotes (run : Run α) (phase : Phase) : List Note :=
  match run.exhausted phase with
  | .done _ false =>
    [.warning (run.label ++ "Maximum number of iterations (" ++ toString run.budget
      ++ ") reached before convergence at the target regularization strength "
      ++ run.strengthText run.path.size ++ ".")]
  | _ => []

def tell (notes : List Note) : RunCommand α Unit :=
  modify fun state => { state with notes := state.notes ++ notes }

def setPhase (phase : Phase) : RunCommand α Unit :=
  modify fun state => { state with progress := { state.progress with phase := phase } }

def countUpdate : RunCommand α Nat := do
  let iteration := (← get).progress.iterations + 1
  modify fun state => { state with progress := { state.progress with iterations := iteration } }
  return iteration

def record (run : Run α) (position iteration : Nat) (state? : Option (Slots α)) :
    RunCommand α Unit := do
  let store ← Command.lift ((← get).store.append (run.key position iteration) state?)
  modify fun state => { state with store := store }

def fail (run : Run α) (failure : Failure) (position : Nat) : RunCommand α Unit := do
  setPhase (.failed failure position)
  tell [.warning (run.label ++ failure.message)]

def start (run : Run α) : RunCommand α Unit := do
  match (← get).progress.phase with
  | .start =>
    let context ← Command.lift (run.contextAt 1)
    let baseline ← Command.lift (run.pass.baseline context)
    run.record 1 0 (some baseline)
    setPhase (.atPosition 1 0)
  | _ => throw .runStarted

def current (run : Run α) (state : RunState α) : Except Error (Slots α) :=
  match state.progress.phase with
  | .start => .error .runNotStarted
  | phase => state.store.lookup (run.key phase.position state.progress.iterations)

def step (run : Run α) (state : RunState α) : Except Error (Slots α) :=
  match state.progress.phase with
  | .atPosition position _ => do
    let current ← run.current state
    let context ← run.contextAt position
    run.pass.step (some current) context run.source
  | _ => .error .runNotAtPosition

/-- Takes in an update that did not fail: compares it with the state before it, moves on if the two
    have converged, and ends the run when it is through or the budget is used up. -/
def settle (run : Run α) (position updates iteration : Nat) (next : Slots α) :
    RunCommand α Unit := do
  let previous ← Command.lift ((← get).store.lookup (run.key position (iteration - 1)))
  let distance ← Command.lift (run.test.distance (some previous) (some next))
  let converged :=
    ConvergenceTest.isWithin distance (run.test.toleranceAt position run.path.size)
  let phase := run.nextPhase position updates converged
  if converged ∧ position < run.path.size then run.record (position + 1) iteration (some next)
  setPhase phase
  if converged then tell (run.convergedNotes position updates iteration distance)
  if run.budget ≤ iteration then
    setPhase (run.exhausted phase)
    tell (run.exhaustedNotes phase)

/-- Takes in an update at the current position. The update is counted and recorded first. -/
def advance (run : Run α) (next? : Option (Slots α)) : RunCommand α Unit := do
  match (← get).progress.phase with
  | .atPosition position updates =>
    let iteration ← countUpdate
    run.record position iteration next?
    let next := next?.getD []
    match ← Command.lift (Slots.status next) with
    | .terminated => run.fail (.diverged (run.strengthText position) iteration) position
    | .empty => run.fail .nothingToFit position
    | _ => run.settle position updates iteration next
  | _ => throw .runNotAtPosition

def tick (run : Run α) : RunCommand α Unit := do
  let next ← Command.lift (run.step (← get))
  run.advance (some next)

def tickUntilDone (run : Run α) : Nat → RunCommand α Unit
  | 0 => pure ()
  | fuel + 1 => do
    unless (← get).progress.phase.isTerminal do
      run.tick
      run.tickUntilDone fuel

/-- Starts the run if need be, and updates until it has ended. As every update counts toward the
    budget, no more are taken than the budget has left, or one if it has none. -/
def toEnd (run : Run α) : RunCommand α Unit := do
  if (← get).progress.phase = .start then run.start
  run.tickUntilDone (run.budget - (← get).progress.iterations + 1)

end Run

end ElasticNet
