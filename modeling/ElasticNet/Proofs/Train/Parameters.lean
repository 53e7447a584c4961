import ElasticNet.Proofs.Params.Bounds
import ElasticNet.Proofs.Train.Plan

namespace ElasticNet

variable {α : Type} [Scalar α]

namespace Params

/-- Every field that a text does not set has its default. -/
def KeepsDefaults (text method : String) (params : Params α) : Prop :=
  ∃ named entries, Method.ofName? method = some named ∧ split text = .ok entries ∧
    ∀ field, Unset named entries field → field.get params = field.get default

theorem keepsDefaults_of_parse {text method : String} {params : Params α}
    (read : parse text method = .ok params) : params.KeepsDefaults text method := by
  obtain ⟨named, entries, found, cut, assignments, assigns, _, rfl⟩ := parse_eq_ok_iff.mp read
  exact ⟨named, entries, found, cut, fun field unset => get_of_unset assigns unset default⟩

theorem method_of_parse {text method : String} {params : Params α}
    (read : parse text method = .ok params) : ∃ named, Method.ofName? method = some named := by
  obtain ⟨named, _, found, _⟩ := parse_eq_ok_iff.mp read
  exact ⟨named, found⟩

theorem Accepted.falling [Scalar.OrdersFinite α] {params : Params α} (accepted : params.Accepted)
    {path : Path α} (given : params.warmupPath = some path) : Path.Falling path.strengths :=
  have proper := accepted.bounds.warmupPath path given
  ⟨path.nonempty, proper.nonneg, proper.pairwise⟩

end Params

namespace Train

/-- Parameters of which training can make what it needs: the path that is given with them passes
    the checks once more and is taken, and there are an optimizer and a test of convergence. -/
structure Serves (options : TrainOptions α) (params : Params α) : Prop where
  path : ∀ path, params.warmupPath = some path → Path.ofList path.strengths = .ok path ∧
    (params.warmup = true → ∀ scales, (layPath options params scales).1 = .ok path)
  optimizer : ∃ optimizer : Optimizer α,
    Optimizer.ofNames options.family options.method = .ok optimizer ∧
    ∃ test, ConvergenceTest.create (some optimizer) options.tolerance
      (params.warmupTolerance.getD options.tolerance) = .ok test

theorem layPath_of_given {options : TrainOptions α} {params : Params α} {path : Path α}
    (warm : params.warmup = true) (given : params.warmupPath = some path) (scales : Scales α) :
    (layPath options params scales).1 = .ok path := by
  unfold layPath
  rw [warm, given]
  rfl

theorem serves_of_accepted [Scalar.OrdersFinite α] {options : TrainOptions α} {family : Family}
    {method : Method} {params : Params α} (passed : checkOptions options = .ok family)
    (named : Method.ofName? options.method = some method) (accepted : params.Accepted) :
    Serves options params := by
  have pass := checkOptions_eq_ok_iff.mp passed
  refine ⟨fun path given => ⟨?_, fun warm => layPath_of_given warm given⟩, ?_⟩
  · exact Path.ofList_eq_ok_iff.mpr ⟨rfl, accepted.bounds.warmupPath path given⟩
  · refine ⟨Optimizer.ofMethod family method, ?_, ?_⟩
    · unfold Optimizer.ofNames
      rw [pass.named, named]
    · obtain ⟨finite, above⟩ := pass.tolerance
      have tolerance : 0 ≤ options.tolerance :=
        Scalar.OrdersFinite.le_of_not_lt finite Scalar.OrdersFinite.isFinite_zero above
      have warmupTolerance : 0 ≤ params.warmupTolerance.getD options.tolerance := by
        cases given : params.warmupTolerance with
        | none => exact tolerance
        | some number => exact accepted.bounds.warmupTolerance number given
      exact ⟨_, if_pos ⟨tolerance, warmupTolerance⟩⟩

/-- A text of parameters is refused as such, or its parameters are valid and serve every training
    whose options pass their checks. -/
theorem parse_refused_or_serves (text method : String) :
    (∃ error, (Params.parse text method : Except Error (Params Float)) = .error error ∧
      error.kind = .parameter) ∨
    ∃ params : Params Float, Params.parse text method = .ok params ∧ params.Accepted ∧
      (∀ path, params.warmupPath = some path → Path.Falling path.strengths) ∧
      params.KeepsDefaults text method ∧
      ∀ options family, options.params = text → options.method = method →
        checkOptions options = .ok family → Serves options params := by
  cases read : (Params.parse text method : Except Error (Params Float)) with
  | error error =>
    exact .inl ⟨error, rfl, List.mem_singleton.mp (Params.parse_raises text method error read)⟩
  | ok params =>
    have accepted := Params.accepted_of_parse Params.accepted_default_float read
    refine .inr ⟨params, rfl, accepted, fun path given => accepted.falling given,
      Params.keepsDefaults_of_parse read, ?_⟩
    rintro options family rfl rfl passed
    obtain ⟨named, found⟩ := Params.method_of_parse read
    exact serves_of_accepted passed found accepted

end Train

end ElasticNet
