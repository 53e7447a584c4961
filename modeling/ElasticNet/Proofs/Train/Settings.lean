import ElasticNet.Proofs.Fista.Passes
import ElasticNet.Proofs.Params.Bounds
import ElasticNet.Proofs.Path.Generated
import ElasticNet.Proofs.Train.Outcome

namespace ElasticNet.Train

open Exact

section Plans

variable {α : Type} [Scalar α]

theorem layPath_proper {options : TrainOptions α} {params : Params α} (bounds : params.InBounds)
    {scales : Scales α} {path : Path α} (laid : (layPath options params scales).1 = .ok path) :
    Path.Proper path.strengths := by
  unfold layPath at laid
  split at laid
  · change Path.ofList [options.strength] = .ok path at laid
    obtain ⟨kept, proper⟩ := Path.ofList_eq_ok_iff.mp laid
    rwa [kept]
  · split at laid
    · next given explicit =>
      cases laid
      exact bounds.warmupPath _ explicit
    · dsimp only at laid
      split at laid
      · cases laid
      · obtain ⟨_, kept, proper⟩ := Path.generate_eq_ok_iff.mp laid
        rwa [kept]

def rawRun (plan : Plan α) (group : Option String) (source : Source α) : Run α where
  group := group
  path := plan.path
  pass := plan.pass
  test := plan.test
  context := { plan.base with
    totalRows := source.completeCount
    means := (Scales.measure source).means
    responseMean := (Scales.measure source).responseMean }
  source := source
  budget := plan.options.budget

theorem fitRun_eq_rawRun {plan : Plan α} (raw : plan.options.standardize = false)
    (group : Option String) (source : Source α) : fitRun plan group source =
      rawRun plan group source := by
  unfold fitRun fitInput fittedSource rawRun
  simp only [raw, Bool.false_eq_true, false_and, if_false, Scales.complete_measure]

end Plans

theorem Checked.wellPosed {source : Source Exact} {options : TrainOptions Exact} {family : Family}
    {method : Method} {params : Params Exact} {path : Path Exact} {test : ConvergenceTest Exact}
    (checked : Checked source options family method params path test)
    (fista : Method.ofName? options.method = some .fista)
    (fits : Fista.slotCount source.dimension < UInt32.size) (group : Option String)
    {rows : Source Exact} (fitting : rows.dimension = source.dimension)
    (some : rows.completeCount ≠ 0) (few : rows.completeCount < UInt64.size) :
    Fista.WellPosed family
      (rawRun (planOf source options family method params path test) group rows) := by
  have passed := checkOptions_eq_ok_iff.mp checked.optionsPass
  have bounds := (Params.accepted_of_parse Params.accepted_default_exact checked.paramsRead).bounds
  have proper := layPath_proper bounds checked.pathLaid
  obtain ⟨wide, _⟩ := checkRows_eq_ok checked.rowsPass
  exact {
    optimizer := checked.fista fista
    dimension := fitting.symm
    features := fitting ▸ wide
    small := fitting ▸ fits
    rows := Source.samples_ne_nil some
    few := rows.length_samples ▸ few
    total := rows.length_samples.symm
    mixing := passed.mixing.1
    share := passed.mixing.2
    maxStepSize := bounds.maxStepSize
    eta := bounds.eta
    strengths := fun strength inside => (proper.nonneg strength inside).2 }

end ElasticNet.Train
