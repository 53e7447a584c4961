import ElasticNet.Proofs.Command
import ElasticNet.Proofs.Params.Errors
import ElasticNet.Train

namespace ElasticNet.Train

open Command

variable {α : Type}

theorem tell_bind {β : Type} (notes : List Note) (second : Unit → TrainCommand α β)
    (state : TrainState α) :
    (tell notes >>= second) state = second () { state with notes := state.notes ++ notes } := rfl

theorem tell_leaves (kinds : List ErrorKind) (notes : List Note) :
    Leaves kinds TrainState.reports (tell notes : TrainCommand α Unit) where
  of_ok := by
    rintro _ _ _ ⟨⟩
    rfl
  of_error := nofun

variable [Scalar α]

structure Checked (source : Source α) (options : TrainOptions α) (family : Family)
    (method : Method) (params : Params α) (path : Path α) (test : ConvergenceTest α) : Prop where
  optionsPass : checkOptions options = .ok family
  paramsRead : Params.parse options.params options.method = .ok params
  named : Optimizer.ofNames options.family options.method =
    .ok (Optimizer.ofMethod family method : Optimizer α)
  rowsPass : checkRows source = .ok ()
  responsesPass : checkResponses family source = .ok ()
  pathLaid : (layPath options params (Scales.measure source)).1 = .ok path
  testMade : ConvergenceTest.create (some (Optimizer.ofMethod family method)) options.tolerance
    (params.warmupTolerance.getD options.tolerance) = .ok test

def planOf (source : Source α) (options : TrainOptions α) (family : Family) (method : Method)
    (params : Params α) (path : Path α) (test : ConvergenceTest α) : Plan α where
  options := options
  center := family = .gaussian
  base := baseContext options params source.dimension
  path := path
  pass := ⟨Optimizer.ofMethod family method, if params.parallel then .parallel else .single⟩
  test := test
  source := source

theorem ofNames_eq_ok {family method : String} {optimizer : Optimizer α}
    (named : Optimizer.ofNames family method = .ok optimizer) :
    ∃ kind way, Family.ofName? family = some kind ∧ optimizer = Optimizer.ofMethod kind way := by
  unfold Optimizer.ofNames at named
  split at named
  · cases named
  · cases named
  · next kind way found _ =>
    cases named
    exact ⟨kind, way, found, rfl⟩

structure OptionsPass (options : TrainOptions α) (family : Family) : Prop where
  named : Family.ofName? options.family = some family
  mixing : 0 ≤ options.mixing ∧ options.mixing ≤ 1
  strength : Scalar.isFinite options.strength = true ∧ ¬options.strength < 0
  paid : options.budget ≠ 0
  tolerance : Scalar.isFinite options.tolerance = true ∧ ¬options.tolerance < 0

theorem checkOptions_eq_ok_iff {options : TrainOptions α} {family : Family} :
    checkOptions options = .ok family ↔ OptionsPass options family := by
  unfold checkOptions
  constructor
  · intro passed
    split at passed
    · cases passed
    · next kind found =>
      dsimp only at passed
      split at passed
      · cases passed
      next share =>
      split at passed
      · cases passed
      next finite =>
      split at passed
      · cases passed
      next paid =>
      split at passed
      · cases passed
      next known =>
      cases passed
      simp only [Bool.or_eq_true, Bool.not_eq_true', decide_eq_true_eq, not_or,
        Bool.not_eq_false] at finite known
      exact ⟨found, Decidable.not_not.mp share, finite, paid, known⟩
  · intro pass
    have strength : ¬(!Scalar.isFinite options.strength || options.strength < 0) = true := by
      simp [pass.strength]
    have tolerance : ¬(!Scalar.isFinite options.tolerance || options.tolerance < 0) = true := by
      simp [pass.tolerance]
    rw [pass.named]
    dsimp only
    rw [if_neg (Decidable.not_not.mpr pass.mixing), if_neg strength, if_neg pass.paid,
      if_neg tolerance]
    rfl

theorem plan_eq_ok {source? : Option (Source α)} {options : TrainOptions α}
    {state after : TrainState α} {result : Plan α}
    (laid : plan source? options state = .ok result after) :
    ∃ source family method params path test, source? = some source ∧
      Checked source options family method params path test ∧
      result = planOf source options family method params path test := by
  obtain ⟨family, optionsPass, laid⟩ := lift_bind_eq_ok laid
  obtain ⟨params, paramsRead, laid⟩ := lift_bind_eq_ok laid
  obtain ⟨optimizer, named, laid⟩ := lift_bind_eq_ok laid
  cases source? with
  | none => cases laid
  | some source =>
    obtain ⟨_, rowsPass, laid⟩ := lift_bind_eq_ok laid
    obtain ⟨_, _, _, laid⟩ := bind_eq_ok laid
    obtain ⟨_, responsesPass, laid⟩ := lift_bind_eq_ok laid
    obtain ⟨_, _, _, laid⟩ := bind_eq_ok laid
    obtain ⟨path, pathLaid, laid⟩ := lift_bind_eq_ok laid
    obtain ⟨_, _, _, laid⟩ := bind_eq_ok laid
    obtain ⟨pass, created, laid⟩ := lift_bind_eq_ok laid
    obtain ⟨test, testMade, ends⟩ := lift_bind_eq_ok laid
    obtain ⟨kind, method, found, rfl⟩ := ofNames_eq_ok named
    have same := found.symm.trans (checkOptions_eq_ok_iff.mp optionsPass).named
    cases same
    cases created
    cases ends
    exact ⟨source, family, method, params, path, test, rfl,
      ⟨optionsPass, paramsRead, named, rowsPass, responsesPass, pathLaid, testMade⟩, rfl⟩

theorem Checked.fista {source : Source α} {options : TrainOptions α} {family : Family}
    {method : Method} {params : Params α} {path : Path α} {test : ConvergenceTest α}
    (checked : Checked source options family method params path test)
    (asked : Method.ofName? options.method = some .fista) :
    (Optimizer.ofMethod family method : Optimizer α) = Fista.optimizer family := by
  have named := checked.named
  unfold Optimizer.ofNames at named
  rw [(checkOptions_eq_ok_iff.mp checked.optionsPass).named, asked] at named
  exact (Except.ok.inj named).symm

theorem checkOptions_raises (options : TrainOptions α) :
    RaisesOnly [.parameter] (checkOptions options) := by
  have bad {error : Error} (kind : error.kind = .parameter) :
      RaisesOnly [.parameter] (.error error : Except Error Family) :=
    .error (List.mem_singleton.mpr kind)
  unfold checkOptions
  split
  · exact bad rfl
  · exact .ite (bad rfl) (.ite (bad rfl) (.ite (bad rfl) (.ite (bad rfl) (.ok _))))

theorem ofNames_raises (family method : String) :
    RaisesOnly [.parameter] (Optimizer.ofNames family method : Except Error (Optimizer α)) := by
  unfold Optimizer.ofNames
  split
  · exact .error (List.mem_singleton.mpr rfl)
  · exact .error (List.mem_singleton.mpr rfl)
  · exact .ok _

theorem checkRows_raises (source : Source α) : RaisesOnly [.data] (checkRows source) := by
  have bad {error : Error} (kind : error.kind = .data) :
      RaisesOnly [.data] (.error error : Except Error Unit) :=
    .error (List.mem_singleton.mpr kind)
  exact .ite (bad rfl) (.ite (bad rfl) (.ite (bad rfl) (.ok ())))

theorem checkResponses_raises (family : Family) (source : Source α) :
    RaisesOnly [.data] (checkResponses family source) := by
  unfold checkResponses
  split
  · exact .ok ()
  · split
    · exact .error (List.mem_singleton.mpr rfl)
    · exact .ok ()

theorem layPath_raises (options : TrainOptions α) (params : Params α) (scales : Scales α) :
    RaisesOnly [.parameter, .invalidArgument] (layPath options params scales).1 := by
  have checked {result : Except Error (Path α)} (raises : RaisesOnly [.parameter] result) :
      RaisesOnly [.parameter, .invalidArgument] result :=
    raises.mono (by decide)
  unfold layPath
  split
  · change RaisesOnly _ (Path.single options.strength)
    exact checked (Path.ofList_raises _)
  · split
    · exact .ok _
    · dsimp only
      split
      · next error largest =>
        exact RaisesOnly.error (by
          unfold Path.largestStrength at largest
          split at largest
          · cases largest
            decide
          · cases largest)
      · exact checked (Path.generate_raises _ _ _)

theorem create_raises (optimizer : Optimizer α) (tolerance warmupTolerance : α) :
    RaisesOnly [.parameter] (ConvergenceTest.create (some optimizer) tolerance warmupTolerance) :=
  .ite (.ok _) (.error (List.mem_singleton.mpr rfl))

/-- Nothing is written while the plan is laid out, and what is wrong is wrong with the options, the
    parameters or the data. -/
theorem plan_leaves (source? : Option (Source α)) (options : TrainOptions α) :
    Leaves [.parameter, .data, .invalidArgument] TrainState.reports (plan source? options) := by
  have among : ∀ {β : Type} {kinds : List ErrorKind} {result : Except Error β},
      RaisesOnly kinds result → (∀ kind ∈ kinds, kind ∈ [.parameter, .data, .invalidArgument]) →
      Leaves [.parameter, .data, .invalidArgument] TrainState.reports
        (lift result : TrainCommand α β) :=
    fun raises further => .lift (raises.mono further)
  refine (among (checkOptions_raises options) (by decide)).bind fun family => ?_
  refine (among (Params.parse_raises _ _) (by decide)).bind fun params => ?_
  refine (among (ofNames_raises _ _) (by decide)).bind fun optimizer => ?_
  split
  · exact .throw (by decide)
  · refine (among (checkRows_raises _) (by decide)).bind fun _ => ?_
    refine (tell_leaves _ _).bind fun _ => ?_
    refine (among (checkResponses_raises _ _) (by decide)).bind fun _ => ?_
    refine (tell_leaves _ _).bind fun _ => ?_
    refine (among (layPath_raises _ _ _) (by decide)).bind fun path => ?_
    refine (tell_leaves _ _).bind fun _ => ?_
    refine .bind (.lift (.ok _)) fun pass => ?_
    exact (among (create_raises _ _ _) (by decide)).bind fun test => .pure _

theorem plan_of_checked {source : Source α} {options : TrainOptions α} {family : Family}
    {method : Method} {params : Params α} {path : Path α} {test : ConvergenceTest α}
    (checked : Checked source options family method params path test) (state : TrainState α) :
    ∃ after, plan (some source) options state =
        .ok (planOf source options family method params path test) after ∧
      after.reports = state.reports := by
  have created (mode : PassMode) : Pass.create (some (Optimizer.ofMethod family method)) mode =
      .ok (⟨Optimizer.ofMethod family method, mode⟩ : Pass α) := rfl
  have laid : ∃ after, plan (some source) options state =
      .ok (planOf source options family method params path test) after := by
    unfold plan
    rw [lift_bind_of_ok checked.optionsPass, lift_bind_of_ok checked.paramsRead,
      lift_bind_of_ok checked.named]
    dsimp only
    rw [lift_bind_of_ok checked.rowsPass, tell_bind, lift_bind_of_ok checked.responsesPass,
      tell_bind,
      lift_bind_of_ok checked.pathLaid, tell_bind, lift_bind_of_ok (created _),
      lift_bind_of_ok checked.testMade]
    exact ⟨_, rfl⟩
  obtain ⟨after, ends⟩ := laid
  exact ⟨after, ends, (plan_leaves _ _).of_ok ends⟩

theorem plan_of_refused {source : Source α} {options : TrainOptions α} {family : Family}
    {params : Params α} {optimizer : Optimizer α} {error : Error}
    (optionsPass : checkOptions options = .ok family)
    (paramsRead : Params.parse options.params options.method = .ok params)
    (named : Optimizer.ofNames options.family options.method = .ok optimizer)
    (refused : checkRows source = .error error) (state : TrainState α) :
    plan (some source) options state = .error error state := by
  unfold plan
  rw [lift_bind_of_ok optionsPass, lift_bind_of_ok paramsRead, lift_bind_of_ok named]
  dsimp only
  rw [refused]
  exact lift_error_bind error _ state

end ElasticNet.Train
