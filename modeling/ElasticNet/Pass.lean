import ElasticNet.Data
import ElasticNet.Optimizer

namespace ElasticNet

inductive PassMode where
  | parallel
  | single
deriving DecidableEq

def PassMode.name : PassMode → String
  | parallel => "parallel"
  | single => "single"

structure Pass (α : Type) where
  optimizer : Optimizer α
  mode : PassMode

namespace Pass

variable {α : Type} [Scalar α]

def create (optimizer? : Option (Optimizer α)) (mode : PassMode) : Except Error (Pass α) :=
  match optimizer? with
  | some optimizer => .ok ⟨optimizer, mode⟩
  | none => .error .passWithoutOptimizer

def baseline (pass : Pass α) (context : StepContext α) : Except Error (Slots α) :=
  pass.optimizer.initial context

def foldRows (optimizer : Optimizer α) : List (Row α) → Editing α Unit
  | [] => pure ()
  | row :: rest => do
    optimizer.transition row.features row.response
    foldRows optimizer rest

def foldPartitions (optimizer : Optimizer α) : List (Partition α) → Editing α Unit
  | [] => pure ()
  | part :: rest => do
    foldRows optimizer part.complete
    foldPartitions optimizer rest

def mergeAll (optimizer : Optimizer α) : List (Slots α) → Editing α Unit
  | [] => pure ()
  | state :: rest => do
    optimizer.merge state
    mergeAll optimizer rest

def partialState (optimizer : Optimizer α) (previous : Slots α) (context : StepContext α)
    (part : Partition α) : Except Error (Slots α) := do
  let state ← optimizer.begin (some previous) context
  Command.apply (foldRows optimizer part.complete) state

def parallelPass (optimizer : Optimizer α) (previous : Slots α) (context : StepContext α)
    (partitions : List (Partition α)) : Except Error (Slots α) := do
  match ← partitions.mapM (partialState optimizer previous context) with
  | [] => Command.apply optimizer.finalize (← optimizer.begin (some previous) context)
  | first :: rest =>
    Command.apply (do mergeAll optimizer rest; optimizer.finalize) first

def singlePass (optimizer : Optimizer α) (previous : Slots α) (context : StepContext α)
    (partitions : List (Partition α)) : Except Error (Slots α) := do
  let state ← optimizer.begin (some previous) context
  Command.apply (do foldPartitions optimizer partitions; optimizer.finalize) state

/-- The state after one pass from a state, which there has to be. -/
def step (pass : Pass α) (previous? : Option (Slots α)) (context : StepContext α)
    (source : Source α) : Except Error (Slots α) :=
  match previous? with
  | none => .error .passFromNothing
  | some previous =>
    match pass.mode with
    | .parallel => parallelPass pass.optimizer previous context source.partitions
    | .single => singlePass pass.optimizer previous context source.partitions

end Pass

end ElasticNet
