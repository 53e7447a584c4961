import ElasticNet.Error

namespace ElasticNet

abbrev Command (σ β : Type) := EStateM Error σ β

namespace Command

variable {σ β : Type}

def lift (result : Except Error β) : Command σ β := fun state =>
  match result with
  | .ok answer => .ok answer state
  | .error error => .error error state

def apply (command : Command σ Unit) (state : σ) : Except Error σ :=
  match command state with
  | .ok _ changed => .ok changed
  | .error error _ => .error error

def onPart {τ : Type} (read : σ → τ) (put : σ → τ → σ) (command : Command τ β) :
    Command σ β := fun state =>
  match command (read state) with
  | .ok answer part => .ok answer (put state part)
  | .error error part => .error error (put state part)

def result (command : Command σ β) (state : σ) : Except Error β × σ :=
  match command state with
  | .ok answer after => (.ok answer, after)
  | .error error after => (.error error, after)

end Command

end ElasticNet
