import ElasticNet.Proofs.Run.SameSteps
import ElasticNet.Proofs.Train.Outcome

namespace ElasticNet.Train

open Command

variable {α : Type} [Scalar α]

/-- Plans that differ in their sources and in how rows are folded at most, as far as one model is
    fitted. -/
structure Plan.Alike (plan other : Plan α) : Prop where
  standardize : other.options.standardize = plan.options.standardize
  tolerance : other.options.tolerance = plan.options.tolerance
  budget : other.options.budget = plan.options.budget
  center : other.center = plan.center
  base : other.base = plan.base
  path : other.path = plan.path
  optimizer : other.pass.optimizer = plan.pass.optimizer
  test : other.test = plan.test

def SameButFolding (params other : Params α) : Prop :=
  other = { params with parallel := other.parallel }

inductive FitAlike (Related : Report α → Report α → Prop) (before otherBefore : TrainState α) :
    Except Error (TrainSummary α) × TrainState α →
    Except Error (TrainSummary α) × TrainState α → Prop
  | failed {error otherError : Error} {after otherAfter : TrainState α}
    (kind : otherError.kind = error.kind) (unwritten : after.reports = before.reports)
    (otherUnwritten : otherAfter.reports = otherBefore.reports) :
    FitAlike Related before otherBefore (.error error, after) (.error otherError, otherAfter)
  | fitted {summary : TrainSummary α} {row otherRow : Report α} {after otherAfter : TrainState α}
    (written : after.reports = before.reports ++ [row])
    (otherWritten : otherAfter.reports = otherBefore.reports ++ [otherRow])
    (related : Related row otherRow) :
    FitAlike Related before otherBefore (.ok summary, after) (.ok summary, otherAfter)

theorem layPath_of_sameButFolding {params other : Params α} (same : SameButFolding params other)
    (options : TrainOptions α) (text : String) (scales : Scales α) :
    layPath { options with params := text } other scales = layPath options params scales := by
  rw [same]
  rfl

theorem baseContext_of_sameButFolding {params other : Params α} (same : SameButFolding params other)
    (options : TrainOptions α) (text : String) (dimension : Nat) :
    baseContext { options with params := text } other dimension =
      baseContext options params dimension := by
  rw [same]
  rfl

def isNoClass (row : Row α) : Bool :=
  row.isComplete && row.response != 0 && row.response != 1

theorem checkResponses_binomial (source : Source α) : checkResponses .binomial source =
    (source.rows.find? isNoClass).elim (.ok ())
      fun row => .error (.badBinaryResponse (Scalar.text row.response)) := by
  have told : (fun row : Row α => row.isComplete && row.response != 0 && row.response != 1) =
      isNoClass := rfl
  unfold checkResponses
  dsimp only
  rw [told]
  cases source.rows.find? isNoClass with
  | none => rfl
  | some row => rfl

theorem checkResponses_alike {source other : Source α} {family : Family}
    (same : family = .binomial → other.rows.any isNoClass = source.rows.any isNoClass) :
    EndAlike Eq (checkResponses family source) (checkResponses family other) := by
  cases family with
  | gaussian => exact .ok rfl
  | binomial =>
    have found := same rfl
    rw [← List.isSome_find?, ← List.isSome_find?] at found
    rw [checkResponses_binomial, checkResponses_binomial]
    cases bad : source.rows.find? isNoClass with
    | none =>
      rw [bad, Option.isSome_none, Option.isSome_eq_false_iff, Option.isNone_iff_eq_none] at found
      rw [found]
      exact .ok rfl
    | some row =>
      rw [bad, Option.isSome_some] at found
      obtain ⟨otherRow, otherBad⟩ := Option.isSome_iff_exists.mp found
      rw [otherBad]
      exact .error rfl

omit [Scalar α] in
theorem tell_alike (notes other : List Note) :
    Alike Eq (tell notes : TrainCommand α Unit) (tell other : TrainCommand α Unit) :=
  fun _ _ => .ok rfl

/-- Data that the checks and the path cannot tell apart come to plans alike. -/
theorem plan_alike {options : TrainOptions α} {text : String} {source other : Source α}
    (params : EndAlike SameButFolding
      (Params.parse options.params options.method : Except _ (Params α))
      (Params.parse text options.method))
    (dimension : checkRows source = .ok () → other.dimension = source.dimension)
    (rows : EndAlike Eq (checkRows source) (checkRows other))
    (responses : ∀ family, checkOptions options = .ok family →
      EndAlike Eq (checkResponses family source) (checkResponses family other))
    (paths : checkRows source = .ok () → ∀ params,
      (layPath options params (Scales.measure other)).1 =
        (layPath options params (Scales.measure source)).1) :
    Alike Plan.Alike (plan (some source) options)
      (plan (some other) { options with params := text }) := by
  have checks : checkOptions { options with params := text } = checkOptions options := by
    simp only [checkOptions]
  unfold plan
  rw [checks]
  dsimp only
  refine (Alike.lift (EndAlike.of_eq rfl).given).bind ?_
  rintro family _ ⟨rfl, optionsPass⟩
  refine (Alike.lift params).bind fun params otherParams folding => ?_
  refine (Alike.lift (EndAlike.of_eq rfl)).bind ?_
  rintro optimizer _ rfl
  refine (Alike.lift rows.given).bind fun _ _ passed => ?_
  refine (tell_alike _ _).bind fun _ _ _ => ?_
  refine (Alike.lift (responses family optionsPass)).bind fun _ _ _ => ?_
  refine (tell_alike _ _).bind fun _ _ _ => ?_
  have laid : (layPath { options with params := text } otherParams (Scales.measure other)).1 =
      (layPath options params (Scales.measure source)).1 := by
    rw [layPath_of_sameButFolding folding, paths passed.2]
  refine (Alike.lift (EndAlike.of_eq laid)).bind ?_
  rintro path _ rfl
  refine (tell_alike _ _).bind fun _ _ _ => ?_
  have created : EndAlike (fun pass other : Pass α => other.optimizer = pass.optimizer)
      (Pass.create (some optimizer) (if params.parallel then .parallel else .single))
      (Pass.create (some optimizer) (if otherParams.parallel then .parallel else .single)) :=
    .ok rfl
  refine (Alike.lift created).bind fun pass otherPass own => ?_
  have tested : ConvergenceTest.create (some optimizer) options.tolerance
      (otherParams.warmupTolerance.getD options.tolerance) =
      ConvergenceTest.create (some optimizer) options.tolerance
        (params.warmupTolerance.getD options.tolerance) := by
    rw [folding]
  refine (Alike.lift (EndAlike.of_eq tested)).bind ?_
  rintro test _ rfl
  refine Alike.pure ⟨rfl, rfl, rfl, rfl, ?_, rfl, own, rfl⟩
  rw [dimension passed.2]
  exact baseContext_of_sameButFolding folding options text source.dimension

theorem eq_of_laid {source other : Source α} {options : TrainOptions α}
    {state otherState told otherTold : TrainState α} {laidOut otherLaidOut : Plan α}
    (alike : laidOut.Alike otherLaidOut)
    (laid : plan (some source) options state = .ok laidOut told)
    (otherLaid : plan (some other) options otherState = .ok otherLaidOut otherTold) :
    otherLaidOut = { laidOut with source := other } := by
  obtain ⟨_, _, _, _, _, _, ⟨⟩, checked, rfl⟩ := plan_eq_ok laid
  obtain ⟨_, _, _, _, _, _, ⟨⟩, otherChecked, rfl⟩ := plan_eq_ok otherLaid
  cases checked.paramsRead.symm.trans otherChecked.paramsRead
  obtain ⟨_, _, _, center, base, path, optimizer, test⟩ := alike
  unfold planOf at center base path optimizer test ⊢
  dsimp only at center base path optimizer test ⊢
  rw [center, path, optimizer, test, base]

section SameLoop

variable {plan other : Plan α} (alike : plan.Alike other) {dimension : Nat}
  {Sound OtherSound : Slots α → Prop} (sure : plan.Sure dimension Sound)
  (otherSure : other.Sure dimension OtherSound) {source otherSource : Source α}
  (fitting : source.dimension = dimension) (otherFitting : otherSource.dimension = dimension)
  (same : (fitRun plan none source).SameLoop (fitRun other none otherSource))
include alike sure otherSure fitting otherFitting same

theorem lastState_sameLoop :
    (lastState other none otherSource).progress = (lastState plan none source).progress ∧
    (fitRun other none otherSource).current (lastState other none otherSource) =
      (fitRun plan none source).current (lastState plan none source) := by
  have safe := sure.fitRun none fitting
  have otherAnswers := (otherSure.fitRun none otherFitting).answers
  exact (same.alone alike.budget safe.paid safe.answers otherAnswers).2

theorem endReport_sameLoop (scales : Scales.measure otherSource = Scales.measure source) :
    endReport other none otherSource = endReport plan none source := by
  obtain ⟨progress, current⟩ :=
    lastState_sameLoop alike sure otherSure fitting otherFitting same
  unfold endReport
  rw [alike.center]
  exact report_congr alike.standardize alike.tolerance plan.center alike.optimizer progress current
    scales rfl

end SameLoop

section Sure

variable {plan other : Plan α} {Sound OtherSound : Slots α → Prop}
  (sure : plan.Sure plan.source.dimension Sound)
  (otherSure : other.Sure other.source.dimension OtherSound) (path : other.path = plan.path)
  (phase : (lastState other none other.source).progress.phase =
    (lastState plan none plan.source).progress.phase)
  {Related : Report α → Report α → Prop}
  (related : ∀ row otherRow, endReport plan none plan.source = .ok row →
    endReport other none other.source = .ok otherRow → Related row otherRow)
  (told otherTold : TrainState α)
include sure otherSure path phase related

theorem trainAll_alike : FitAlike Related told otherTold
    (Command.result (trainAll plan) told) (Command.result (trainAll other) otherTold) := by
  unfold Command.result
  cases ended : (lastState plan none plan.source).progress.phase with
  | failed failure position =>
    rw [ended] at phase
    obtain ⟨after, ends, kept⟩ := trainAll_of_failed sure rfl ended told
    obtain ⟨otherAfter, otherEnds, otherKept⟩ := trainAll_of_failed otherSure rfl phase otherTold
    rw [ends, otherEnds]
    exact .failed rfl kept otherKept
  | start | atPosition _ _ | done _ _ =>
    rw [ended] at phase
    obtain ⟨row, after, given, ends, written⟩ :=
      trainAll_of_done sure rfl (by rw [ended]; rfl) told
    obtain ⟨otherRow, otherAfter, otherGiven, otherEnds, otherWritten⟩ :=
      trainAll_of_done otherSure rfl (by rw [phase]; rfl) otherTold
    rw [ends, otherEnds, path]
    exact .fitted written otherWritten (related row otherRow given otherGiven)

end Sure

theorem settleAll_alike {plan other : Plan α} (path : other.path = plan.path)
    {ended : Except Error Unit × RunState α}
    (terminal : ended.1 = .ok () → ended.2.progress.phase.isTerminal = true)
    {Related : Report α → Report α → Prop}
    (related : ended.2.progress.phase.isDone = true → EndAlike Related
      (report plan.options plan.center (fitRun plan none plan.source) ended.2
        (fitInput plan.source plan.base plan.options.standardize plan.center))
      (report other.options other.center (fitRun other none other.source) ended.2
        (fitInput other.source other.base other.options.standardize other.center)))
    (told otherTold : TrainState α) : FitAlike Related told otherTold
      (Command.result (settleAll plan ended) told)
      (Command.result (settleAll other ended) otherTold) := by
  obtain ⟨result, last⟩ := ended
  unfold Command.result settleAll
  rw [tell_bind, tell_bind]
  cases result with
  | error error => exact .failed rfl rfl rfl
  | ok answer =>
    rw [lift_bind_of_ok rfl, lift_bind_of_ok rfl]
    have ends := terminal rfl
    dsimp only at ends related ⊢
    cases stands : last.progress.phase with
    | start | atPosition _ _ =>
      rw [stands] at ends
      cases ends
    | failed failure position => exact .failed rfl rfl rfl
    | done position converged =>
      rw [stands] at related
      have alike := related rfl
      dsimp only
      generalize report plan.options plan.center (fitRun plan none plan.source) last
        (fitInput plan.source plan.base plan.options.standardize plan.center) = first at alike ⊢
      generalize report other.options other.center (fitRun other none other.source) last
        (fitInput other.source other.base other.options.standardize other.center) = second
          at alike ⊢
      cases alike with
      | error kind => exact .failed kind rfl rfl
      | ok given =>
        rw [path]
        exact .fitted rfl rfl given

theorem trainAll_of_complete {plan : Plan α} (paid : 0 < plan.options.budget) {other : Source α}
    (complete : (fittedSource other plan.options.standardize plan.center).partitions.map
        Partition.complete =
      (fittedSource plan.source plan.options.standardize plan.center).partitions.map
        Partition.complete)
    (context : (fitInput other plan.base plan.options.standardize plan.center).context =
      (fitInput plan.source plan.base plan.options.standardize plan.center).context)
    {Related : Report α → Report α → Prop}
    (related : ∀ {state : RunState α}, state.progress.phase.isDone = true → EndAlike Related
      (report plan.options plan.center (fitRun plan none plan.source) state
        (fitInput plan.source plan.base plan.options.standardize plan.center))
      (report plan.options plan.center (fitRun plan none other) state
        (fitInput other plan.base plan.options.standardize plan.center)))
    (told otherTold : TrainState α) : FitAlike Related told otherTold
      (Command.result (trainAll plan) told)
      (Command.result (trainAll { plan with source := other }) otherTold) := by
  have runs : (fitRun { plan with source := other } none other).toEnd =
      (fitRun plan none plan.source).toEnd := by
    have shape : fitRun { plan with source := other } none other =
        { fitRun plan none plan.source with
          source := fittedSource other plan.options.standardize plan.center } := by
      unfold fitRun
      dsimp only
      rw [context]
      rfl
    rw [shape]
    exact Run.toEnd_of_steps (Pass.step_congr plan.pass complete)
  have terminal : (Command.result (fitRun plan none plan.source).toEnd .start).1 = .ok () →
      (Command.result (fitRun plan none plan.source).toEnd .start).2.progress.phase.isTerminal =
        true := by
    unfold Command.result
    cases ended : (fitRun plan none plan.source).toEnd .start with
    | ok answer after => exact fun _ => Run.isTerminal_of_toEnd paid ended
    | error error after => exact nofun
  have otherPaid : 0 < ({ plan with source := other } : Plan α).options.budget := paid
  rw [trainAll_eq paid, trainAll_eq otherPaid, runs]
  refine settleAll_alike ?_ terminal (fun done => ?_) told otherTold
  · rfl
  · exact related done

omit [Scalar α] in
theorem FitAlike.before {Related : Report α → Report α → Prop}
    {before otherBefore told otherTold : TrainState α}
    {ending otherEnding : Except Error (TrainSummary α) × TrainState α}
    (alike : FitAlike Related told otherTold ending otherEnding)
    (unwritten : told.reports = before.reports)
    (otherUnwritten : otherTold.reports = otherBefore.reports) :
    FitAlike Related before otherBefore ending otherEnding := by
  cases alike with
  | failed kind kept otherKept =>
    exact .failed kind (kept.trans unwritten) (otherKept.trans otherUnwritten)
  | fitted written otherWritten related =>
    exact .fitted (unwritten ▸ written) (otherUnwritten ▸ otherWritten) related

/-- Trainings with plans alike end in a relation if refusals do, and if the trainings of the plans
    do. -/
theorem train_related {source other : Source α} {options otherOptions : TrainOptions α}
    {Plans : Plan α → Plan α → Prop}
    {Ends : Except Error (TrainSummary α) × TrainState α →
      Except Error (TrainSummary α) × TrainState α → Prop}
    (grouped : otherOptions.grouped = options.grouped)
    (plans : Alike Plans (plan (some source) options) (plan (some other) otherOptions))
    {state otherState : TrainState α}
    (refused : ∀ {error otherError after otherAfter}, otherError.kind = error.kind →
      after.reports = state.reports → otherAfter.reports = otherState.reports →
      Ends (.error error, after) (.error otherError, otherAfter))
    (runs : ∀ {laidOut otherLaidOut told otherTold}, Plans laidOut otherLaidOut →
      plan (some source) options state = .ok laidOut told →
      plan (some other) otherOptions otherState = .ok otherLaidOut otherTold →
      told.reports = state.reports → otherTold.reports = otherState.reports →
      Ends (Command.result (if options.grouped then trainGroups laidOut else trainAll laidOut) told)
        (Command.result (if options.grouped then trainGroups otherLaidOut
          else trainAll otherLaidOut) otherTold)) :
    Ends (Command.result (train (some source) options) state)
      (Command.result (train (some other) otherOptions) otherState) := by
  have alike := plans state otherState
  have leaves := plan_leaves (some source) options
  have otherLeaves := plan_leaves (some other) otherOptions
  unfold Command.result at alike runs ⊢
  unfold train
  rw [grouped]
  cases laid : plan (some source) options state with
  | error error after =>
    rw [laid] at alike
    cases otherLaid : plan (some other) otherOptions otherState with
    | error otherError otherAfter =>
      rw [otherLaid] at alike
      cases alike with
      | error kind =>
        rw [bind_of_error laid, bind_of_error otherLaid]
        exact refused kind (leaves.of_error laid).2 (otherLeaves.of_error otherLaid).2
    | ok _ _ =>
      rw [otherLaid] at alike
      cases alike
  | ok laidOut told =>
    rw [laid] at alike
    cases otherLaid : plan (some other) otherOptions otherState with
    | error _ _ =>
      rw [otherLaid] at alike
      cases alike
    | ok otherLaidOut otherTold =>
      rw [otherLaid] at alike
      cases alike with
      | ok related =>
        rw [bind_of_ok laid, bind_of_ok otherLaid]
        exact runs related laid otherLaid (leaves.of_ok laid) (otherLeaves.of_ok otherLaid)

theorem train_alike {source other : Source α} {options otherOptions : TrainOptions α}
    {Plans : Plan α → Plan α → Prop} {Related : Report α → Report α → Prop}
    (single : options.grouped = false) (otherSingle : otherOptions.grouped = false)
    (plans : Alike Plans (plan (some source) options) (plan (some other) otherOptions))
    {state otherState : TrainState α}
    (runs : ∀ {laidOut otherLaidOut told otherTold}, Plans laidOut otherLaidOut →
      plan (some source) options state = .ok laidOut told →
      plan (some other) otherOptions otherState = .ok otherLaidOut otherTold →
      FitAlike Related told otherTold (Command.result (trainAll laidOut) told)
        (Command.result (trainAll otherLaidOut) otherTold)) :
    FitAlike Related state otherState (Command.result (train (some source) options) state)
      (Command.result (train (some other) otherOptions) otherState) := by
  refine train_related (otherSingle.trans single.symm) plans .failed ?_
  intro laidOut otherLaidOut told otherTold related laid otherLaid unwritten otherUnwritten
  rw [single]
  exact (runs related laid otherLaid).before unwritten otherUnwritten

end ElasticNet.Train
