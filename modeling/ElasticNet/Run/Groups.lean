import ElasticNet.Run

namespace ElasticNet

structure Member (α : Type) where
  key : String
  run : Run α
  progress : Progress

structure Groups (α : Type) where
  path : Path α
  pass : Pass α
  test : ConvergenceTest α
  budget : Nat

structure GroupsState (α : Type) where
  members : List (Member α)
  started : Bool
  ticks : Nat
  store : Store (Slots α)
  notes : List Note

abbrev GroupsCommand (α β : Type) := Command (GroupsState α) β

namespace Member

variable {α : Type}

def isPending (member : Member α) : Bool :=
  !member.progress.phase.isTerminal

def insert (member : Member α) : List (Member α) → List (Member α)
  | [] => [member]
  | first :: rest =>
    if member.key < first.key then member :: first :: rest else first :: insert member rest

def setProgress (key : String) (progress : Progress) (members : List (Member α)) :
    List (Member α) :=
  members.map fun member =>
    if member.key = key then { member with progress := progress } else member

end Member

namespace GroupsState

variable {α : Type}

def start : GroupsState α := ⟨[], false, 0, .empty, []⟩

def keys (state : GroupsState α) : List String :=
  state.members.map Member.key

def pending (state : GroupsState α) : List (Member α) :=
  state.members.filter Member.isPending

def pendingKeys (state : GroupsState α) : List String :=
  state.pending.map Member.key

def failedCount (state : GroupsState α) : Nat :=
  (state.members.filter fun member => member.progress.phase.isFailed).length

def member (state : GroupsState α) (key : String) : Except Error (Member α) :=
  match state.members.find? fun member => member.key = key with
  | some member => .ok member
  | none => .error (.unknownGroup key)

def view (state : GroupsState α) (member : Member α) : RunState α :=
  ⟨member.progress, state.store, state.notes⟩

def put (key : String) (state : GroupsState α) (after : RunState α) : GroupsState α :=
  { state with
    members := Member.setProgress key after.progress state.members
    store := after.store
    notes := after.notes }

end GroupsState

namespace Groups

variable {α : Type} [Scalar α]

def onMember {β : Type} (member : Member α) (command : RunCommand α β) : GroupsCommand α β :=
  Command.onPart (GroupsState.view · member) (GroupsState.put member.key) command

def add (groups : Groups α) (key : String) (context : StepContext α)
    (source? : Option (Source α)) : GroupsCommand α Unit := do
  let state ← get
  if state.started then throw .groupAfterStart
  if key ∈ state.keys then throw (.groupTwice key)
  let run ← Command.lift (Run.create (some key) groups.path groups.pass groups.test context source?
    groups.budget)
  set { state with members := Member.insert ⟨key, run, .start⟩ state.members }

def startAll : List (Member α) → GroupsCommand α Unit
  | [] => pure ()
  | member :: rest => do
    onMember member member.run.start
    startAll rest

def start : GroupsCommand α Unit := do
  if (← get).started then throw .groupsStarted
  modify fun state => { state with started := true }
  startAll (← get).members

def advanceAll : List (Member α × Slots α) → GroupsCommand α Unit
  | [] => pure ()
  | (member, next) :: rest => do
    onMember member (member.run.advance (some next))
    advanceAll rest

def nextStates (state : GroupsState α) : Except Error (List (Member α × Slots α)) :=
  state.pending.mapM fun member =>
    (member.run.step (state.view member)).map fun next => (member, next)

/-- One update of every group that is under way; answers whether any group still is. -/
def tick : GroupsCommand α Bool := do
  let state ← get
  if !state.started then throw .groupsNotStarted
  if state.pending.isEmpty then return false
  let next ← Command.lift (nextStates state)
  advanceAll next
  modify fun state => { state with ticks := state.ticks + 1 }
  return !(← get).pending.isEmpty

def tickUntilDone : Nat → GroupsCommand α Unit
  | 0 => pure ()
  | fuel + 1 => do
    if ← tick then tickUntilDone fuel

/-- Starts the groups if need be, and ticks until all have ended. Every tick is an update of every
    group that is under way, so the budget of one group bounds their number. -/
def toEnd (groups : Groups α) : GroupsCommand α Unit := do
  if !(← get).started then start
  tickUntilDone (groups.budget + 1)
  let state ← get
  let note : Note := .info ("Grouped run finished after " ++ toString state.ticks ++ " ticks, "
    ++ toString state.failedCount ++ " of " ++ toString state.members.length ++ " groups failed")
  set { state with notes := state.notes ++ [note] }

end Groups

end ElasticNet
