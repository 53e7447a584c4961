import ElasticNet.Proofs.Run.SameLoop

namespace ElasticNet.Run

variable {α : Type}

def regroup (run : Run α) (group : Option String) : Run α :=
  { run with group := group }

variable [Scalar α]

theorem walk_regroup (run : Run α) (group : Option String) (count : Nat) :
    (run.regroup group).walk count = run.walk count := by
  induction count with
  | zero => rfl
  | succ count ih =>
    unfold walk
    rw [ih]
    rfl

theorem sameLoop_regroup (run : Run α) (group : Option String) :
    run.SameLoop (run.regroup group) :=
  ⟨rfl, rfl, run.walk_regroup group⟩

theorem Answers.regroup {run : Run α} (answers : run.Answers) (group : Option String) :
    (run.regroup group).Answers where
  baseline := answers.baseline
  update := by
    intro states positions count follows quiet left
    refine answers.update states positions count
      ⟨follows.baseline, follows.first, follows.steps, follows.moves⟩ ?_ left
    intro i before phase stops
    exact quiet i before phase ((run.sameLoop_regroup group).stops (fun _ => id) stops)

theorem alone_regroup {run : Run α} (paid : 0 < run.budget) (answers : run.Answers)
    (group : Option String) :
    (run.regroup group).updatesAlone = run.updatesAlone ∧
    ((run.regroup group).alone (run.regroup group).updatesAlone).progress =
      (run.alone run.updatesAlone).progress ∧
    (run.regroup group).current ((run.regroup group).alone (run.regroup group).updatesAlone) =
      run.current (run.alone run.updatesAlone) :=
  (run.sameLoop_regroup group).alone rfl paid answers (answers.regroup group)

end ElasticNet.Run
